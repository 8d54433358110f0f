import KiroProxy.Lib.Lapsing
import KiroProxy.Lib.Run

/-! The prompt-cache tracker: which prefixes an account has sent, each for its time to live. A request plans before it is
sent and commits after it was answered, and other requests do both in between. -/
namespace KiroProxy.PromptCache

open Lapsing Run

def maxEntriesPerAccount : Nat := 200

structure PromptCacheProfile where
  fingerprint : String
  tokens : Nat
  ttl : Nat

structure PromptCachePlan where
  profile : Option PromptCacheProfile := none
  cacheReadTokens : Nat := 0

structure Entry where
  expiresAt : Nat
  ttl : Nat

abbrev Entries := Table String (Table String Entry)

def pruneExpired (entries : Entries) (now : Nat) : Entries :=
  (entries.mapValues (prune Entry.expiresAt now)).filter fun _ account => account.size ≠ 0

def plan (entries : Entries) (now : Nat) (accountId : String) :
    Option PromptCacheProfile → Entries × PromptCachePlan
  | none => (entries, {})
  | some profile =>
    let entries := pruneExpired entries now
    let cacheHit := (entries.get? accountId).any fun account => (account.get? profile.fingerprint).isSome
    (entries, { profile := some profile, cacheReadTokens := if cacheHit then profile.tokens else 0 })

/-- A prefix that was planned as read keeps the time to live it has; any other gets its own. -/
def written (now : Nat) (plan : PromptCachePlan) (profile : PromptCacheProfile) (account : Table String Entry) : Entry :=
  match if 0 < plan.cacheReadTokens then account.get? profile.fingerprint else none with
  | some entry => { entry with expiresAt := now + entry.ttl }
  | none => ⟨now + profile.ttl, profile.ttl⟩

def commit (walk : Walk String Entry) (entries : Entries) (now : Nat) (accountId : String) (plan : PromptCachePlan) :
    Entries :=
  match plan.profile with
  | none => entries
  | some profile =>
    let entries := pruneExpired entries now
    let account := (entries.get? accountId).getD ∅
    entries.insert accountId (evict walk Entry.expiresAt maxEntriesPerAccount
      (account.insert profile.fingerprint (written now plan profile account)))

/-! ### The tracker among its requests -/

structure Tracker where
  entries : Entries := ∅
  plans : Nat → PromptCachePlan := fun _ => {}
  clock : Nat := 0

inductive Action where
  | wait (elapsed : Nat)
  | plan (request : Nat) (accountId : String) (profile : Option PromptCacheProfile)
  | commit (request : Nat) (accountId : String) (walk : Walk String Entry)

def Tracker.step (tracker : Tracker) : Action → Tracker
  | .wait elapsed => { tracker with clock := tracker.clock + elapsed }
  | .plan request accountId profile =>
    let (entries, planned) := plan tracker.entries tracker.clock accountId profile
    { tracker with entries := entries, plans := Function.update tracker.plans request planned }
  | .commit request accountId walk =>
    { tracker with entries := commit walk tracker.entries tracker.clock accountId (tracker.plans request) }

/-- What the tracker is for: a prefix that an account commits is cached from then on for its time to live. -/
structure Promises where
  promised : String → String → Nat := fun _ _ => 0
  requests : Nat → Option PromptCacheProfile := fun _ => none
  clock : Nat := 0

def Promises.step (promises : Promises) : Action → Promises
  | .wait elapsed => { promises with clock := promises.clock + elapsed }
  | .plan request _ profile => { promises with requests := Function.update promises.requests request profile }
  | .commit request accountId _ => match promises.requests request with
    | none => promises
    | some profile => { promises with
        promised := Function.update promises.promised accountId
          (Function.update (promises.promised accountId) profile.fingerprint (promises.clock + profile.ttl)) }

/-- The fingerprint covers the blocks from which the time to live is read. -/
def Action.Covered (life : String → Nat) : Action → Prop
  | .plan _ _ (some profile) => profile.ttl = life profile.fingerprint
  | _ => True

/-! ### What the entries keep of the promises -/

variable {life : String → Nat} {promises : Promises} {tracker : Tracker} {entries : Entries} {now : Nat}
  {accountId : String}

def Entries.of (entries : Entries) (accountId : String) : Table String Entry := (entries.get? accountId).getD ∅

structure Kept (life : String → Nat) (promised : String → String → Nat) (now : Nat) (entries : Entries) : Prop where
  keeps : ∀ accountId, Keeps Entry.expiresAt maxEntriesPerAccount (promised accountId) now (entries.of accountId)
  ttl : ∀ accountId fingerprint entry, (entries.of accountId).get? fingerprint = some entry → entry.ttl = life fingerprint
  bound : ∀ accountId fingerprint, promised accountId fingerprint ≤ now + life fingerprint

theorem pruneExpired_of (entries : Entries) (now : Nat) (accountId : String) :
    (pruneExpired entries now).of accountId = prune Entry.expiresAt now (entries.of accountId) := by
  have kept : (pruneExpired entries now).get? accountId =
      ((entries.get? accountId).map (prune Entry.expiresAt now)).filter fun account => account.size ≠ 0 := by
    rw [← Table.get?_mapValues]
    ext account
    rw [← Table.mem_entries, Option.filter_eq_some_iff, ← Table.mem_entries]
    exact List.mem_filter
  unfold Entries.of
  rw [kept]
  cases entries.get? accountId with
  | none => rfl
  | some account =>
    rw [Option.map_some, Option.filter_some]
    split
    case isTrue => rfl
    case isFalse empty =>
      have none_left : (prune Entry.expiresAt now account).entries = [] := by simpa [Table.size] using empty
      show ∅ = prune Entry.expiresAt now account
      generalize prune Entry.expiresAt now account = left at none_left
      cases left
      cases none_left
      rfl

variable {promised : String → String → Nat}

theorem Kept.later {next : Nat} (kept : Kept life promised now entries) (since : now ≤ next) :
    Kept life promised next entries where
  keeps accountId := (kept.keeps accountId).later since
  ttl := kept.ttl
  bound accountId fingerprint := (kept.bound accountId fingerprint).trans (by omega)

theorem Kept.prune (kept : Kept life promised now entries) : Kept life promised now (pruneExpired entries now) where
  keeps accountId := by
    rw [pruneExpired_of]
    exact (kept.keeps accountId).prune
  ttl accountId fingerprint entry found := by
    rw [pruneExpired_of, get?_prune] at found
    exact kept.ttl accountId fingerprint entry (Option.filter_eq_some_iff.1 found).1
  bound := kept.bound

theorem written_eq {account : Table String Entry} {profile : PromptCacheProfile} (now : Nat) (plan : PromptCachePlan)
    (old : ∀ entry, account.get? profile.fingerprint = some entry → entry.ttl = life profile.fingerprint)
    (covered : profile.ttl = life profile.fingerprint) :
    written now plan profile account = ⟨now + life profile.fingerprint, life profile.fingerprint⟩ := by
  unfold written
  split
  case h_1 entry found =>
    split at found
    · rw [← old entry found]
    · cases found
  case h_2 => rw [covered]

theorem insert_of (entries : Entries) (accountId : String) (account : Table String Entry) (other : String) :
    Entries.of (entries.insert accountId account) other = if other = accountId then account else entries.of other := by
  unfold Entries.of
  rw [Table.get?_insert]
  split
  · rfl
  · rfl

theorem Kept.commit (kept : Kept life promised now entries) (walk : Walk String Entry) (accountId : String)
    {plan : PromptCachePlan} {profile : PromptCacheProfile} (planned : plan.profile = some profile)
    (covered : profile.ttl = life profile.fingerprint) :
    Kept life (Function.update promised accountId
        (Function.update (promised accountId) profile.fingerprint (now + profile.ttl))) now
      (commit walk entries now accountId plan) := by
  have pruned := kept.prune
  unfold PromptCache.commit
  rw [planned]
  dsimp only
  generalize pruneExpired entries now = entries at pruned
  have entry := written_eq now plan (pruned.ttl accountId profile.fingerprint) covered
  rw [← Entries.of, entry, covered]
  have put := (pruned.keeps accountId).put walk ⟨now + life profile.fingerprint, life profile.fingerprint⟩
    (pruned.bound accountId profile.fingerprint)
  have lived : ∀ fingerprint entry, (evict walk Entry.expiresAt maxEntriesPerAccount
      ((entries.of accountId).insert profile.fingerprint
        ⟨now + life profile.fingerprint, life profile.fingerprint⟩)).get? fingerprint = some entry →
      entry.ttl = life fingerprint := by
    intro fingerprint entry found
    have before := get?_evict found
    rw [Table.get?_insert] at before
    split at before
    case isTrue same =>
      cases before
      rw [same]
    case isFalse => exact pruned.ttl accountId fingerprint entry before
  generalize evict walk _ _ _ = account at put lived
  constructor
  · intro other
    rw [insert_of]
    split
    case isTrue same =>
      rw [same, Function.update_self]
      exact put
    case isFalse apart =>
      rw [Function.update_of_ne apart]
      exact pruned.keeps other
  · intro other fingerprint entry found
    rw [insert_of] at found
    split at found
    · exact lived fingerprint entry found
    · exact pruned.ttl other fingerprint entry found
  · intro other fingerprint
    by_cases same : other = accountId
    · rw [same, Function.update_self]
      by_cases here : fingerprint = profile.fingerprint
      · rw [here, Function.update_self]
      · rw [Function.update_of_ne here]
        exact pruned.bound accountId fingerprint
    · rw [Function.update_of_ne same]
      exact pruned.bound other fingerprint

/-! ### Any run -/

structure Refines (life : String → Nat) (tracker : Tracker) (promises : Promises) : Prop where
  clock : tracker.clock = promises.clock
  requests : ∀ request, (tracker.plans request).profile = promises.requests request
  covered : ∀ request profile, promises.requests request = some profile → profile.ttl = life profile.fingerprint
  kept : Kept life promises.promised promises.clock tracker.entries

theorem refines_start (life : String → Nat) : Refines life {} {} where
  clock := rfl
  requests _ := rfl
  covered _ _ found := by cases found
  kept := ⟨fun _ => keeps_empty, fun _ _ _ found => (by cases found), fun _ _ => Nat.zero_le _⟩

theorem plan_profile (entries : Entries) (now : Nat) (accountId : String) (profile : Option PromptCacheProfile) :
    (plan entries now accountId profile).2.profile = profile := by
  cases profile with
  | none => rfl
  | some profile => rfl

theorem Kept.plan (kept : Kept life promised now entries) (accountId : String) (profile : Option PromptCacheProfile) :
    Kept life promised now (plan entries now accountId profile).1 := by
  cases profile with
  | none => exact kept
  | some profile => exact kept.prune

theorem Refines.step (refines : Refines life tracker promises) (action : Action) (covers : action.Covered life) :
    Refines life (tracker.step action) (promises.step action) := by
  cases action with
  | wait elapsed =>
    exact ⟨congrArg (· + elapsed) refines.clock, refines.requests, refines.covered,
      refines.kept.later (Nat.le_add_right _ _)⟩
  | plan request accountId profile =>
    refine ⟨refines.clock, fun other => ?_, fun other found there => ?_, ?_⟩
    · dsimp only [Tracker.step, Promises.step]
      by_cases same : other = request
      · rw [same, Function.update_self, Function.update_self, plan_profile]
      · rw [Function.update_of_ne same, Function.update_of_ne same, refines.requests]
    · dsimp only [Promises.step] at there
      by_cases same : other = request
      · rw [same, Function.update_self] at there
        rw [there] at covers
        exact covers
      · rw [Function.update_of_ne same] at there
        exact refines.covered other found there
    · dsimp only [Tracker.step, Promises.step]
      rw [refines.clock]
      exact refines.kept.plan accountId profile
  | commit request accountId walk =>
    have planned := refines.requests request
    cases committed : promises.requests request with
    | none =>
      rw [committed] at planned
      have still : tracker.step (.commit request accountId walk) = tracker := by
        rw [Tracker.step, commit, planned]
      rw [still, Promises.step, committed]
      exact refines
    | some profile =>
      rw [committed] at planned
      dsimp only [Tracker.step, Promises.step]
      rw [committed, refines.clock]
      exact ⟨rfl, refines.requests, refines.covered,
        refines.kept.commit walk accountId planned (refines.covered request profile committed)⟩

theorem refines_run {actions : List Action} (covers : ∀ action ∈ actions, action.Covered life)
    (refines : Refines life tracker promises) :
    Refines life (run Tracker.step tracker actions) (run Promises.step promises actions) := by
  induction actions generalizing tracker promises with
  | nil => exact refines
  | cons action rest ih =>
    exact ih (fun other member => covers other (List.mem_cons_of_mem action member))
      (refines.step action (covers action List.mem_cons_self))

theorem told_eq (entries : Entries) (now : Nat) (accountId : String) (profile : PromptCacheProfile) :
    (plan entries now accountId (some profile)).2.cacheReadTokens =
      if (((pruneExpired entries now).of accountId).get? profile.fingerprint).isSome then profile.tokens else 0 := by
  unfold plan Entries.of
  dsimp only
  cases (pruneExpired entries now).get? accountId with
  | none => rfl
  | some account => rfl

/-- After any run a plan tells a hit only for a prefix whose promise holds, and misses one only where two hundred other
prefixes of the account were promised as much; no account has more entries than that. -/
theorem hits_as_promised {actions : List Action} (covers : ∀ action ∈ actions, action.Covered life) (accountId : String)
    (profile : PromptCacheProfile) :
    let tracker := run Tracker.step {} actions
    let promises := run Promises.step {} actions
    let told := (plan tracker.entries tracker.clock accountId (some profile)).2.cacheReadTokens
    (∀ account, tracker.entries.get? accountId = some account → account.size ≤ maxEntriesPerAccount) ∧
    (told ≠ 0 → told = profile.tokens ∧ promises.clock < promises.promised accountId profile.fingerprint) ∧
    (promises.clock < promises.promised accountId profile.fingerprint → told = profile.tokens ∨
      Crowded maxEntriesPerAccount (promises.promised accountId) profile.fingerprint) := by
  intro tracker promises told
  have refines : Refines life tracker promises := refines_run covers (refines_start life)
  have pruned := refines.kept.prune.keeps accountId
  have found : told = _ := told_eq tracker.entries tracker.clock accountId profile
  rw [refines.clock, pruneExpired_of, get?_prune] at found
  rw [pruneExpired_of] at pruned
  refine ⟨fun account here => ?_, ?_⟩
  · have size := (refines.kept.keeps accountId).size
    rwa [Entries.of, here] at size
  · cases kept : (tracker.entries.of accountId).get? profile.fingerprint with
    | none =>
      rw [kept] at found
      refine ⟨fun hit => absurd found hit, fun open_ => .inr ?_⟩
      exact (refines.kept.keeps accountId).missing _ open_ kept
    | some entry =>
      have lapses := (refines.kept.keeps accountId).exact _ _ kept
      rw [kept, Option.filter_some, lapses] at found
      split at found
      case isTrue open_ => exact ⟨fun _ => ⟨found, of_decide_eq_true open_⟩, fun _ => .inl found⟩
      case isFalse lapsed =>
        exact ⟨fun hit => absurd found hit, fun open_ => absurd (decide_eq_true open_) lapsed⟩

def greeting : PromptCacheProfile := ⟨"greeting", 100, 300⟩

/-- A request is answered, and the next one with the same beginning comes ten seconds later. -/
def greeted : List Action := [.plan 0 "account" (some greeting), .commit 0 "account" ⟨id, fun _ => .refl _⟩, .wait 10]

theorem greeted_covered (action : Action) (member : action ∈ greeted) : action.Covered fun _ => 300 := by
  simp only [greeted, List.mem_cons, List.not_mem_nil, or_false] at member
  obtain rfl | rfl | rfl := member
  · exact rfl
  · exact trivial
  · exact trivial

theorem hits_as_promised_greeting :
    let tracker := run Tracker.step {} greeted
    (plan tracker.entries tracker.clock "account" (some greeting)).2.cacheReadTokens = 100 ∨
      Crowded maxEntriesPerAccount ((run Promises.step {} greeted).promised "account") "greeting" :=
  (hits_as_promised greeted_covered "account" greeting).2.2 (by decide)

end KiroProxy.PromptCache

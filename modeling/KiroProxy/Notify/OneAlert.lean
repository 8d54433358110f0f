import KiroProxy.Lib.Census
import KiroProxy.Notify.Incident

/-! One alert for an incident: between two of its resolutions one call at most queues it. A
rollback that comes after a resolution takes a later mark for its own when their clocks agree. -/
namespace KiroProxy.Notify

open Run Census

variable {sha : Sha256}

/-! ### Keys -/

theorem asStr_plain (kind : WebhookEventKind) : ':' ∉ kind.asStr.toList := by
  cases kind <;> decide

theorem asStr_inj : ∀ {kind kind' : WebhookEventKind}, kind.asStr.toList = kind'.asStr.toList → kind = kind' := by
  have apart : ∀ kind kind' : WebhookEventKind, kind ≠ kind' → kind.asStr ≠ kind'.asStr := by
    intro kind kind'
    cases kind <;> cases kind' <;> decide
  intro kind kind' same
  by_contra other
  exact apart kind kind' other (String.toList_inj.1 same)

theorem incidentKey_toList (identity : String) (kind : WebhookEventKind) (account : String) :
    (incidentKey identity kind account).toList =
      (identity.toList ++ ':' :: kind.asStr.toList) ++ ':' :: account.toList := by
  simp [incidentKey, String.toList_append]

theorem resolveSuffix_toList (kind : WebhookEventKind) (account : String) :
    (resolveSuffix kind account).toList = (':' :: kind.asStr.toList) ++ ':' :: account.toList := by
  simp [resolveSuffix, String.toList_append]

variable {account identity : String} {kind : WebhookEventKind}

theorem incidentKey_inj {identity' account' : String} {kind' : WebhookEventKind} (plain : ':' ∉ account.toList)
    (plain' : ':' ∉ account'.toList) (same : incidentKey identity kind account = incidentKey identity' kind' account') :
    identity = identity' ∧ kind = kind' ∧ account = account' := by
  have keys := congrArg String.toList same
  rw [incidentKey_toList, incidentKey_toList] at keys
  obtain ⟨fronts, accounts⟩ := Text.eq_of_append_sep plain plain' keys
  obtain ⟨identities, kinds⟩ := Text.eq_of_append_sep (asStr_plain kind) (asStr_plain kind') fronts
  exact ⟨String.toList_inj.1 identities, asStr_inj kinds, String.toList_inj.1 accounts⟩

theorem endsWith_resolveSuffix {account' : String} {kind' : WebhookEventKind} (plain : ':' ∉ account.toList)
    (plain' : ':' ∉ account'.toList) :
    Text.endsWith (incidentKey identity kind account) (resolveSuffix kind' account') = true ↔
      kind = kind' ∧ account = account' := by
  rw [Text.endsWith, List.isSuffixOf_iff_suffix, incidentKey_toList, resolveSuffix_toList]
  constructor
  · rintro ⟨front, whole⟩
    rw [← List.append_assoc] at whole
    obtain ⟨fronts, accounts⟩ := Text.eq_of_append_sep plain' plain whole
    obtain ⟨-, kinds⟩ := Text.eq_of_append_sep (asStr_plain kind') (asStr_plain kind) fronts
    exact ⟨(asStr_inj kinds).symm, (String.toList_inj.1 accounts).symm⟩
  · rintro ⟨rfl, rfl⟩
    exact ⟨identity.toList, by simp⟩

/-! ### The guarantee -/

def Action.plain : Action → Bool
  | .emit _ _ event _ => !(accountName event.accountId).toList.contains ':'
  | .advance _ _ _ => true
  | .resolve _ accountId => !(accountName accountId).toList.contains ':'

def Notifier.subject (s : Notifier) : Action → Option (WebhookEventKind × String)
  | .emit _ _ event _ => some (event.kind, accountName event.accountId)
  | .advance i _ _ => s.emits[i]?.map fun emit => (emit.event.kind, accountName emit.event.accountId)
  | .resolve kind accountId => some (kind, accountName accountId)

structure OneAlert (sha : Sha256) (s : Notifier) : Prop where
  once : ∀ identity kind account period, s.queued.countP (fun mark =>
    mark.identity = identity ∧ mark.kind = kind ∧ mark.account = account ∧ mark.since = period) ≤ 1
  settled : (∀ emit ∈ s.emits, emit.done = true) → ∀ key timestamp,
    s.activeIncidents.get? key = some timestamp →
      ∃ mark ∈ s.queued, mark.key = key ∧ mark.timestamp = timestamp ∧ mark.since = s.resolves mark.kind mark.account
  apart : ∀ action, action.plain = true → ∀ identity kind account, ':' ∉ account.toList →
    s.subject action ≠ some (kind, account) →
    (step sha s action).activeIncidents.get? (incidentKey identity kind account) =
      s.activeIncidents.get? (incidentKey identity kind account)

/-- A mark that is rolled back after a resolution of its incident finds no later mark of the
same key with its own timestamp. -/
def Notifier.distinguishes (s : Notifier) : Action → Bool
  | .advance i _ _ => s.emits[i]?.all fun emit =>
      match emit.stage with
      | .refused (some mark) _ => mark.since = s.resolves mark.kind mark.account ∨
          s.activeIncidents.get? mark.key ≠ some mark.timestamp
      | _ => true
  | _ => true

/-! ### What a step does -/

/-- The marks with a property that are queued or held by a call on its way. -/
def Notifier.tally (s : Notifier) (p : Mark → Bool) : Nat :=
  s.queued.countP p + s.emits.countP fun emit => emit.mark.any p

def Notifier.Holds (s : Notifier) (mark : Mark) : Prop := 0 < s.tally (· = mark)

def Emit.wellFormed (emit : Emit) : Prop :=
  ':' ∉ (accountName emit.event.accountId).toList ∧ ∀ mark, emit.mark = some mark →
    (emit.event.kind, accountName emit.event.accountId) = (mark.kind, mark.account)

inductive Change (s : Notifier) (action : Action) (s' : Notifier) : Prop where
  | silent (incidents : s'.activeIncidents = s.activeIncidents) (resolves : s'.resolves = s.resolves)
      (tally : ∀ p, s'.tally p = s.tally p)
  | marked (mark : Mark) (free : s.activeIncidents.get? mark.key = none)
      (incidents : s'.activeIncidents = s.activeIncidents.insert mark.key mark.timestamp)
      (resolves : s'.resolves = s.resolves) (tally : ∀ p, s'.tally p = s.tally p + (p mark).toNat)
      (now : mark.since = s.resolves mark.kind mark.account) (plain : ':' ∉ mark.account.toList)
      (subject : s.subject action = some (mark.kind, mark.account))
  | rolledBack (mark : Mark) (incidents : s'.activeIncidents = rollbackMark s.activeIncidents mark)
      (resolves : s'.resolves = s.resolves) (tally : ∀ p, s'.tally p + (p mark).toNat = s.tally p)
      (plain : ':' ∉ mark.account.toList) (subject : s.subject action = some (mark.kind, mark.account))
      (distinguished : s.distinguishes action = true →
        mark.since = s.resolves mark.kind mark.account ∨ s.activeIncidents.get? mark.key ≠ some mark.timestamp)
  | resolved (kind : WebhookEventKind) (accountId : Option String) (call : action = .resolve kind accountId)
      (result : s' = s.resolve kind accountId)

section Step

variable {s : Notifier} {i : Nat} {emit : Emit} {mark : Mark} {now : Int} {target : WebhookConfig}
  {left : List WebhookConfig} {accepted : Bool} {p : Mark → Bool}

theorem tally_pos : 0 < s.tally p ↔ ∃ mark, s.Holds mark ∧ p mark = true := by
  have member : ∀ p : Mark → Bool, 0 < s.tally p ↔
      ∃ mark, (mark ∈ s.queued ∨ ∃ emit ∈ s.emits, emit.mark = some mark) ∧ p mark = true := by
    intro p
    unfold Notifier.tally
    rw [Nat.add_pos_iff_pos_or_pos, List.countP_pos_iff, List.countP_pos_iff]
    constructor
    · rintro (⟨mark, queued, holds⟩ | ⟨emit, sent, holds⟩)
      · exact ⟨mark, .inl queued, holds⟩
      · obtain ⟨mark, held, holds⟩ := (Option.any_eq_true _ _).1 holds
        exact ⟨mark, .inr ⟨emit, sent, held⟩, holds⟩
    · rintro ⟨mark, queued | ⟨emit, sent, held⟩, holds⟩
      · exact .inl ⟨mark, queued, holds⟩
      · exact .inr ⟨emit, sent, by simp [held, holds]⟩
  have same : ∀ mark, s.Holds mark ↔ mark ∈ s.queued ∨ ∃ emit ∈ s.emits, emit.mark = some mark := by
    intro mark
    rw [Notifier.Holds, member]
    constructor
    · rintro ⟨mark, here, same⟩
      obtain rfl := of_decide_eq_true same
      exact here
    · intro here
      exact ⟨mark, here, by simp⟩
  rw [member]
  simp only [same]

variable {held : Option Mark}

theorem tally_set {held' : Option Mark} (here : s.emits[i]? = some emit) (before : emit.mark = held) (next : Emit)
    (after : next.mark = held') (incidents : Incidents) (queued : List Mark) (p : Mark → Bool) :
    Notifier.tally { s with activeIncidents := incidents, emits := s.emits.set i next, queued := queued } p +
        (held.any p).toNat + s.queued.countP p = s.tally p + (held'.any p).toNat + queued.countP p := by
  have balance := countP_set_balance (fun emit : Emit => emit.mark.any p) next here
  unfold Notifier.tally
  simp only [before, after] at balance ⊢
  omega

theorem subject_advance (here : s.emits[i]? = some emit) (wellFormed : emit.wellFormed)
    (held : emit.mark = some mark) : s.subject (.advance i now accepted) = some (mark.kind, mark.account) := by
  simp [Notifier.subject, here, wellFormed.2 mark held]

theorem visit_change (here : s.emits[i]? = some emit) (stage : emit.stage = .visiting (target :: left))
    (wellFormed : emit.wellFormed) : Change s (.advance i now accepted) (s.visit sha i emit now target left) := by
  have unmarked : emit.mark = none := by rw [Emit.mark, stage]
  unfold Notifier.visit
  split
  · refine .silent rfl rfl fun p => ?_
    have moved := tally_set here unmarked { emit with stage := .sending none left } rfl s.activeIncidents s.queued p
    exact Nat.add_right_cancel moved
  · unfold markSend
    dsimp only
    split
    · refine .silent rfl rfl fun p => ?_
      have moved := tally_set here unmarked { emit with stage := .visiting left } rfl s.activeIncidents s.queued p
      exact Nat.add_right_cancel moved
    case isFalse free =>
      refine .marked _ (by simpa using free) rfl rfl (fun p => ?_) rfl wellFormed.1 ?_
      · exact Nat.add_right_cancel (tally_set here unmarked _ rfl _ s.queued p)
      · simp [Notifier.subject, here]

theorem trySend_change (here : s.emits[i]? = some emit) (stage : emit.stage = .sending held left) :
    Change s (.advance i now accepted) (s.trySend i emit held left accepted) := by
  have marked : emit.mark = held := by rw [Emit.mark, stage]
  unfold Notifier.trySend
  split
  · refine .silent rfl rfl fun p => ?_
    have moved := tally_set here marked { emit with stage := .visiting left, queued := emit.queued + 1 }
      (show _ = none from rfl) s.activeIncidents (held.toList ++ s.queued) p
    have one : held.toList.countP p = (held.any p).toNat := by
      cases held with
      | none => rfl
      | some mark => cases holds : p mark <;> simp [holds]
    rw [List.countP_append, one, Option.any_none, Bool.toNat_false] at moved
    omega
  · refine .silent rfl rfl fun p => ?_
    have moved := tally_set here marked { emit with stage := .refused held left } rfl s.activeIncidents s.queued p
    exact Nat.add_right_cancel (Nat.add_right_cancel moved)

theorem rollback_change (here : s.emits[i]? = some emit) (stage : emit.stage = .refused held left)
    (wellFormed : emit.wellFormed) : Change s (.advance i now accepted) (s.rollback i emit held left) := by
  have marked : emit.mark = held := by rw [Emit.mark, stage]
  have moved := tally_set here marked { emit with stage := .visiting left } rfl
    (s.rollback i emit held left).activeIncidents s.queued
  cases held with
  | none => exact .silent rfl rfl fun p => Nat.add_right_cancel (moved p)
  | some mark =>
    have account := wellFormed.2 mark marked
    refine .rolledBack mark rfl rfl (fun p => ?_) ?_ (subject_advance here wellFormed marked) ?_
    · exact Nat.add_right_cancel (moved p)
    · rw [← (Prod.mk.inj account).2]
      exact wellFormed.1
    · intro distinguishes
      simpa [Notifier.distinguishes, here, stage] using distinguishes

theorem step_change (wellFormed : ∀ emit ∈ s.emits, emit.wellFormed) (action : Action) :
    Change s action (step sha s action) := by
  cases action with
  | emit targets name event isTest =>
    refine .silent rfl rfl fun p => ?_
    simp [step, Notifier.tally, Emit.start, Emit.mark]
  | advance i now accepted =>
    show Change s _ (s.advance sha i now accepted)
    unfold Notifier.advance
    split
    · exact .silent rfl rfl fun _ => rfl
    case h_2 emit here =>
      have fine := wellFormed emit (List.mem_of_getElem? here)
      split
      · exact .silent rfl rfl fun _ => rfl
      case h_2 target left stage => exact visit_change here stage fine
      case h_3 held left stage => exact trySend_change here stage
      case h_4 held left stage => exact rollback_change here stage fine
  | resolve kind accountId => exact .resolved kind accountId rfl rfl

end Step

/-! ### Invariants -/

section Invariants

variable {s : Notifier} {mark other : Mark} {action : Action} {p : Mark → Bool}

theorem wellFormed_set {i : Nat} {emit next : Emit} (all : ∀ emit ∈ s.emits, emit.wellFormed)
    (here : s.emits[i]? = some emit) (event : next.event = emit.event) (mark : next.mark = none ∨ next.mark = emit.mark) :
    ∀ emit ∈ s.emits.set i next, emit.wellFormed := by
  have fine := all emit (List.mem_of_getElem? here)
  refine all_set all ⟨by rw [event]; exact fine.1, ?_⟩
  intro held same
  rcases mark with gone | kept
  · rw [gone] at same
    cases same
  · rw [event]
    exact fine.2 held (kept ▸ same)

theorem step_wellFormed (all : ∀ emit ∈ s.emits, emit.wellFormed) (plain : action.plain = true) :
    ∀ emit ∈ (step sha s action).emits, emit.wellFormed := by
  cases action with
  | emit targets name event isTest =>
    intro emit member
    rcases List.mem_append.1 member with old | new
    · exact all emit old
    · obtain rfl := List.mem_singleton.1 new
      exact ⟨by simpa [Action.plain, Emit.start] using plain, fun _ none => by cases none⟩
  | resolve kind accountId => exact all
  | advance i now accepted =>
    show ∀ emit ∈ (s.advance sha i now accepted).emits, _
    unfold Notifier.advance
    split
    · exact all
    case h_2 emit here =>
      split
      · exact all
      case h_2 target left stage =>
        unfold Notifier.visit
        split
        · exact wellFormed_set all here rfl (.inl rfl)
        · unfold markSend
          dsimp only
          split
          · exact wellFormed_set all here rfl (.inl rfl)
          case h_2 mark marked =>
            refine all_set all ⟨(all emit (List.mem_of_getElem? here)).1, ?_⟩
            intro held same
            cases same
            split at marked <;> cases marked
            rfl
      case h_3 held left stage =>
        unfold Notifier.trySend
        split
        · exact wellFormed_set all here rfl (.inl rfl)
        · refine wellFormed_set all here rfl (.inr ?_)
          simp [Emit.mark, stage]
      case h_4 held left stage => exact wellFormed_set all here rfl (.inl rfl)

theorem tally_of_holds (held : s.Holds mark) (holds : p mark = true) : 0 < s.tally p := tally_pos.2 ⟨mark, held, holds⟩

/-- What every step keeps: an active key is one that the last call to mark it holds or has queued. -/
structure Owned (s : Notifier) : Prop where
  wellFormed : ∀ emit ∈ s.emits, emit.wellFormed
  plain : ∀ mark, s.Holds mark → ':' ∉ mark.account.toList
  past : ∀ mark, s.Holds mark → mark.since ≤ s.resolves mark.kind mark.account
  owner : ∀ key timestamp, s.activeIncidents.get? key = some timestamp → ∃ mark, s.Holds mark ∧
    mark.key = key ∧ mark.timestamp = timestamp ∧ mark.since = s.resolves mark.kind mark.account

variable {s' : Notifier}

theorem holds_congr (tally : ∀ p, s'.tally p = s.tally p) : s'.Holds mark ↔ s.Holds mark := by
  rw [Notifier.Holds, tally, Notifier.Holds]

theorem holds_marked (tally : ∀ p, s'.tally p = s.tally p + (p mark).toNat) :
    s'.Holds other ↔ s.Holds other ∨ other = mark := by
  rw [Notifier.Holds, tally, Notifier.Holds, Nat.add_pos_iff_pos_or_pos]
  refine or_congr_right ?_
  by_cases same : mark = other <;> simp [same, eq_comm]

theorem holds_rolledBack (tally : ∀ p, s'.tally p + (p mark).toNat = s.tally p) :
    (s'.Holds other → s.Holds other) ∧ (s.Holds other → other ≠ mark → s'.Holds other) := by
  have sum := tally fun m => m = other
  unfold Notifier.Holds
  constructor
  · intro held
    omega
  · intro held different
    rw [decide_eq_false (Ne.symm different), Bool.toNat_false] at sum
    omega

theorem get?_rollbackMark {incidents : Incidents} {key : String} {timestamp : Int}
    (here : (rollbackMark incidents mark).get? key = some timestamp) :
    incidents.get? key = some timestamp ∧ ¬(key = mark.key ∧ timestamp = mark.timestamp) := by
  unfold rollbackMark at here
  split at here
  · rw [Table.get?_erase] at here
    split at here
    · cases here
    · rename_i other
      exact ⟨here, fun same => other same.1⟩
  · rename_i moved
    refine ⟨here, ?_⟩
    rintro ⟨rfl, rfl⟩
    exact moved here

theorem resolve_other {accountId : Option String} (plain : ':' ∉ mark.account.toList)
    (plain' : ':' ∉ (accountName accountId).toList)
    (different : ¬(mark.kind = kind ∧ mark.account = accountName accountId)) :
    (s.resolve kind accountId).resolves mark.kind mark.account = s.resolves mark.kind mark.account ∧
      (s.resolve kind accountId).activeIncidents.get? mark.key = s.activeIncidents.get? mark.key := by
  have kept : Text.endsWith mark.key (resolveSuffix kind (accountName accountId)) = false := by
    rw [Bool.eq_false_iff]
    exact fun ends => different ((endsWith_resolveSuffix plain plain').1 ends)
  constructor
  · simp [Notifier.resolve, different]
  · simp [Notifier.resolve, resolveIncident, kept]

theorem step_owned (owned : Owned s) (plain : action.plain = true) : Owned (step sha s action) := by
  have after : ∀ emit ∈ (step sha s action).emits, emit.wellFormed := step_wellFormed owned.wellFormed plain
  generalize changed : step sha s action = s' at after ⊢
  have change : Change s action s' := changed ▸ step_change owned.wellFormed action
  cases change with
  | silent incidents resolves tally =>
    constructor
    · exact after
    · exact fun mark held => owned.plain mark ((holds_congr tally).1 held)
    · intro mark held
      rw [resolves]
      exact owned.past mark ((holds_congr tally).1 held)
    · intro key timestamp here
      rw [incidents] at here
      obtain ⟨mark, held, facts⟩ := owned.owner key timestamp here
      rw [resolves]
      exact ⟨mark, (holds_congr tally).2 held, facts⟩
  | marked new free incidents resolves tally now newPlain subject =>
    constructor
    · exact after
    · intro mark held
      rcases (holds_marked tally).1 held with old | rfl
      · exact owned.plain mark old
      · exact newPlain
    · intro mark held
      rw [resolves]
      rcases (holds_marked tally).1 held with old | rfl
      · exact owned.past mark old
      · exact now.le
    · intro key timestamp here
      rw [incidents, Table.get?_insert] at here
      rw [resolves]
      split at here
      case isTrue same =>
        cases here
        exact ⟨new, (holds_marked tally).2 (.inr rfl), same.symm, rfl, now⟩
      case isFalse =>
        obtain ⟨mark, held, facts⟩ := owned.owner key timestamp here
        exact ⟨mark, (holds_marked tally).2 (.inl held), facts⟩
  | rolledBack old incidents resolves tally =>
    constructor
    · exact after
    · exact fun mark held => owned.plain mark ((holds_rolledBack tally).1 held)
    · intro mark held
      rw [resolves]
      exact owned.past mark ((holds_rolledBack tally).1 held)
    · intro key timestamp here
      rw [incidents] at here
      obtain ⟨before, kept⟩ := get?_rollbackMark here
      obtain ⟨mark, held, named, dated, current⟩ := owned.owner key timestamp before
      have different : mark ≠ old := by
        rintro rfl
        exact kept ⟨named.symm, dated.symm⟩
      rw [resolves]
      exact ⟨mark, (holds_rolledBack tally).2 held different, named, dated, current⟩
  | resolved kind accountId call result =>
    subst result
    have plain' : ':' ∉ (accountName accountId).toList := by
      rw [call] at plain
      simpa [Action.plain] using plain
    constructor
    · exact after
    · exact owned.plain
    · exact fun mark held => (owned.past mark held).trans (Nat.le_add_right _ _)
    · intro key timestamp here
      have kept : s.activeIncidents.get? key = some timestamp ∧
          Text.endsWith key (resolveSuffix kind (accountName accountId)) = false := by
        simp only [Notifier.resolve, resolveIncident, Table.get?_retain] at here
        split at here
        case isTrue ends => exact ⟨here, by simpa using ends⟩
        case isFalse => cases here
      obtain ⟨mark, held, named, dated, current⟩ := owned.owner key timestamp kept.1
      have different : ¬(mark.kind = kind ∧ mark.account = accountName accountId) := by
        intro same
        have ends : Text.endsWith mark.key _ = true :=
          (endsWith_resolveSuffix (owned.plain mark held) plain').2 same
        rw [named, kept.2] at ends
        cases ends
      refine ⟨mark, held, named, dated, ?_⟩
      rw [(resolve_other (owned.plain mark held) plain' different).1]
      exact current

/-- What timely steps keep: no two calls hold or have queued marks of one incident and period,
and the mark of the present period is in its place. -/
structure Single (s : Notifier) : Prop where
  owned : Owned s
  live : ∀ mark, s.Holds mark → mark.since = s.resolves mark.kind mark.account →
    s.activeIncidents.get? mark.key = some mark.timestamp
  once : ∀ key period, s.tally (fun mark => mark.key = key ∧ mark.since = period) ≤ 1

theorem key_inj (plain : ':' ∉ mark.account.toList) (plain' : ':' ∉ other.account.toList) (same : mark.key = other.key) :
    mark.kind = other.kind ∧ mark.account = other.account :=
  (incidentKey_inj plain plain' same).2

theorem step_single (single : Single s) (plain : action.plain = true) (distinguishes : s.distinguishes action = true) :
    Single (step sha s action) := by
  have owned : Owned (step sha s action) := step_owned single.owned plain
  generalize changed : step sha s action = s' at owned ⊢
  have change : Change s action s' := changed ▸ step_change single.owned.wellFormed action
  cases change with
  | silent incidents resolves tally =>
    refine ⟨owned, ?_, ?_⟩
    · intro mark held current
      rw [incidents]
      rw [resolves] at current
      exact single.live mark ((holds_congr tally).1 held) current
    · intro key period
      rw [tally]
      exact single.once key period
  | marked new free incidents resolves tally now newPlain subject =>
    -- The key is free, so nobody holds a mark of it in this period.
    have first : ∀ mark, s.Holds mark → mark.key = new.key → mark.since ≠ new.since := by
      intro mark held same period
      obtain ⟨kind, account⟩ := key_inj (single.owned.plain mark held) newPlain same
      have here := single.live mark held (by rw [period, now, kind, account])
      rw [same, free] at here
      cases here
    refine ⟨owned, ?_, ?_⟩
    · intro mark held current
      rw [incidents, Table.get?_insert]
      rw [resolves] at current
      rcases (holds_marked tally).1 held with old | rfl
      · have different : mark.key ≠ new.key := by
          intro same
          obtain ⟨kind, account⟩ := key_inj (single.owned.plain mark old) newPlain same
          exact first mark old same (by rw [current, now, kind, account])
        rw [if_neg different]
        exact single.live mark old current
      · rw [if_pos rfl]
    · intro key period
      rw [tally]
      by_cases own : new.key = key ∧ new.since = period
      · have none : s.tally (fun mark => mark.key = key ∧ mark.since = period) = 0 := by
          by_contra some
          obtain ⟨mark, held, same⟩ := tally_pos.1 (Nat.pos_of_ne_zero some)
          obtain ⟨named, dated⟩ := of_decide_eq_true same
          exact first mark held (named.trans own.1.symm) (dated.trans own.2.symm)
        rw [none]
        exact (Nat.zero_add _).trans_le (Bool.toNat_le _)
      · rw [decide_eq_false own, Bool.toNat_false]
        exact single.once key period
  | rolledBack old incidents resolves tally oldPlain subject distinguished =>
    refine ⟨owned, ?_, ?_⟩
    · intro mark held current
      rw [resolves] at current
      have before := (holds_rolledBack tally).1 held
      have here := single.live mark before current
      rw [incidents, rollbackMark]
      split
      case isFalse => exact here
      case isTrue found =>
        rw [Table.get?_erase, if_neg]
        · exact here
        · intro same
          -- Both marks would be of the present period.
          have period := (distinguished distinguishes).resolve_right (not_not.2 found)
          obtain ⟨kind, account⟩ := key_inj (single.owned.plain mark before) oldPlain same
          have two := tally fun m => m.key = old.key ∧ m.since = old.since
          have one := single.once old.key old.since
          have other := tally_of_holds (p := fun m => m.key = old.key ∧ m.since = old.since) held
            (by simp [same, current, period, kind, account])
          simp only [and_self, decide_true, Bool.toNat_true] at two
          omega
    · intro key period
      have fewer := tally fun m => m.key = key ∧ m.since = period
      have one := single.once key period
      omega
  | resolved kind accountId call result =>
    subst result
    have plain' : ':' ∉ (accountName accountId).toList := by
      rw [call] at plain
      simpa [Action.plain] using plain
    refine ⟨owned, ?_, single.once⟩
    intro mark held current
    by_cases same : mark.kind = kind ∧ mark.account = accountName accountId
    · have past := single.owned.past mark held
      simp only [Notifier.resolve, if_pos same] at current
      omega
    · obtain ⟨resolves, kept⟩ := resolve_other (s := s) (single.owned.plain mark held) plain' same
      rw [kept]
      exact single.live mark held (by rw [current, resolves])

theorem owned_settled (owned : Owned s) (done : ∀ emit ∈ s.emits, emit.done = true) {key : String} {timestamp : Int}
    (here : s.activeIncidents.get? key = some timestamp) : ∃ mark ∈ s.queued, mark.key = key ∧
      mark.timestamp = timestamp ∧ mark.since = s.resolves mark.kind mark.account := by
  obtain ⟨mark, held, facts⟩ := owned.owner key timestamp here
  have idle : s.emits.countP (fun emit => emit.mark.any (· = mark)) = 0 := by
    rw [List.countP_eq_zero]
    intro emit member
    have stage : emit.stage = .visiting [] := by simpa [Emit.done] using done emit member
    simp [Emit.mark, stage]
  rw [Notifier.Holds, Notifier.tally, idle] at held
  obtain ⟨queued, member, same⟩ := List.countP_pos_iff.1 held
  obtain rfl := of_decide_eq_true same
  exact ⟨queued, member, facts⟩

theorem owned_apart (owned : Owned s) (plain : action.plain = true) (accountPlain : ':' ∉ account.toList)
    (subject : s.subject action ≠ some (kind, account)) :
    (step sha s action).activeIncidents.get? (incidentKey identity kind account) =
      s.activeIncidents.get? (incidentKey identity kind account) := by
  have different : ∀ mark : Mark, ':' ∉ mark.account.toList → s.subject action = some (mark.kind, mark.account) →
      incidentKey identity kind account ≠ mark.key := by
    intro mark markPlain about same
    obtain ⟨-, rfl, rfl⟩ := incidentKey_inj accountPlain markPlain same
    exact subject about
  have change : Change s action (step sha s action) := step_change owned.wellFormed action
  cases change with
  | silent incidents => rw [incidents]
  | marked new free incidents resolves tally now newPlain about =>
    rw [incidents, Table.get?_insert, if_neg (different new newPlain about)]
  | rolledBack old incidents resolves tally oldPlain about =>
    rw [incidents, rollbackMark]
    split
    · rw [Table.get?_erase, if_neg (different old oldPlain about)]
    · rfl
  | resolved k accountId call result =>
    subst call
    rw [result]
    have plain' : ':' ∉ (accountName accountId).toList := by simpa [Action.plain] using plain
    let mark : Mark := ⟨identity, kind, account, 0, 0⟩
    have other : ¬(mark.kind = k ∧ mark.account = accountName accountId) :=
      fun same => subject (congrArg some (Prod.ext same.1.symm same.2.symm))
    exact (resolve_other accountPlain plain' other).2

theorem single_oneAlert (single : Single s) : OneAlert sha s where
  once identity kind account period := by
    refine le_trans ?_ (single.once (incidentKey identity kind account) period)
    refine le_trans (List.countP_mono_left ?_) (Nat.le_add_right _ _)
    intro mark _ fits
    obtain ⟨rfl, rfl, rfl, rfl⟩ := of_decide_eq_true fits
    simp [Mark.key]
  settled done _ _ here := owned_settled single.owned done here
  apart _ plain _ _ _ accountPlain subject := owned_apart single.owned plain accountPlain subject

end Invariants

/-- Where every rollback tells its own mark from a later one, an incident is alerted once. -/
theorem one_alert (sha : Sha256) (actions : List Action) (plain : ∀ action ∈ actions, action.plain = true)
    (distinguishes : Along (step sha) (fun s action => s.distinguishes action = true) {} actions) :
    OneAlert sha (run (step sha) {} actions) := by
  refine single_oneAlert (run_keeps (P := Single) ?_ ((Along.of_mem plain).and distinguishes) ?_)
  · exact fun s action single allowed => step_single single allowed.1 allowed.2
  · have nobody : ∀ mark, ¬({} : Notifier).Holds mark := fun mark held => by simp [Notifier.Holds, Notifier.tally] at held
    refine ⟨⟨?_, ?_, ?_, ?_⟩, ?_, ?_⟩
    · exact fun emit member => absurd member List.not_mem_nil
    · exact fun mark held => absurd held (nobody mark)
    · exact fun mark held => absurd held (nobody mark)
    · exact fun key timestamp here => by cases here
    · exact fun mark held => absurd held (nobody mark)
    · exact fun key period => Nat.zero_le 1

def alertsDigest : Sha256 := fun _ =>
  #v[132, 172, 28, 164, 21, 65, 195, 164, 163, 178, 13, 182, 235, 28, 8, 246,
    55, 225, 227, 55, 117, 233, 165, 164, 62, 195, 63, 134, 97, 255, 159, 53]

def alerts : WebhookConfig :=
  { name := "alerts", kind := "custom", url := "https://hooks.example.com/alerts", events := ["quota-exhausted"] }

def exhausted : Action := .emit [alerts] none ⟨.accountQuotaExhausted, some "acc_1"⟩ false

def recovered : Action := .resolve .accountQuotaExhausted (some "acc_1")

/-- The first call finds the queue full, a second one alerts after the recovery, and a third
one is suppressed. -/
def patientRun : List Action :=
  [exhausted, .advance 0 5 true, recovered, exhausted, .advance 1 6 true, .advance 1 6 true, .advance 0 7 false,
    .advance 0 7 true, exhausted, .advance 2 8 true]

theorem one_alert_patient : (run (step alertsDigest) {} patientRun).queued.length = 1 ∧
    OneAlert alertsDigest (run (step alertsDigest) {} patientRun) :=
  ⟨by decide, one_alert alertsDigest patientRun (by decide) (by decide)⟩

/-- The same, but the second mark is set in the millisecond of the first; the third call alerts again. -/
def hastyRun : List Action :=
  [exhausted, .advance 0 5 true, recovered, exhausted, .advance 1 5 true, .advance 1 6 true, .advance 0 7 false,
    .advance 0 7 true, exhausted, .advance 2 8 true, .advance 2 8 true]

theorem alerted_twice : ¬ ∀ (sha : Sha256) (actions : List Action), (∀ action ∈ actions, action.plain = true) →
    OneAlert sha (run (step sha) {} actions) := by
  intro guaranteed
  have once := (guaranteed alertsDigest hastyRun (by decide)).once
    (targetIncidentIdentity alertsDigest alerts) .accountQuotaExhausted "acc_1" 1
  exact absurd once (by decide)

end KiroProxy.Notify

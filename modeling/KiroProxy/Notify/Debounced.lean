import KiroProxy.Notify.QuotaAlerts
import Mathlib.Data.Finset.Card
import Mathlib.Data.List.Induction

/-! A quota incident is resolved only after several generations have been seen recovered: the pending observation counts
the generations of the last sightings. -/
namespace KiroProxy.Alerts

open Notify (WebhookEventKind)
open Pool (Usage PoolConfig AccountCreditState)
open KiroProxy.Run (run)

/-! ### Sightings -/

/-- The state in which a reconciliation sees the account, and by which generation. -/
structure Sighting where
  state : AccountCreditState
  generation : Option Nat
  deriving DecidableEq

def AppState.seen (state : AppState) (accountId : String) : Option Sighting :=
  match state.pool accountId with
  | none => none
  | some runtime =>
    if !runtime.account.enabled then none
    else match state.authoritativeCreditObservation runtime.account state.config runtime.upstreamExhausted with
    | .unknown => none
    | .known seen _ generation => some ⟨seen, generation⟩

def sightings (accountId : String) (state : AppState) : Action → List Sighting
  | .sync synced _ => if synced = accountId then (state.seen accountId).toList else []
  | _ => []

def history (accountId : String) : AppState → List Action → List Sighting
  | _, [] => []
  | state, action :: rest => sightings accountId state action ++ history accountId (step state action) rest

theorem history_append (accountId : String) (state : AppState) (first second : List Action) :
    history accountId state (first ++ second) =
      history accountId state first ++ history accountId (run step state first) second := by
  induction first generalizing state with
  | nil => rfl
  | cons action rest ih =>
    rw [List.cons_append, history, history, ih, List.append_assoc]
    rfl

/-! ### Streaks -/

def generations (back : List Sighting) : Nat := (back.filterMap (·.generation)).toFinset.card

/-- Sightings in which every generation was first seen in the same state; afterwards it may be seen in another one, under
another configuration, but not exhausted. -/
structure Streak (seen : AccountCreditState) (back : List Sighting) : Prop where
  first : ∀ earlier sighting later, back = earlier ++ sighting :: later →
    sighting.generation ∉ earlier.map (·.generation) → sighting.state = seen
  lasting : ∀ sighting ∈ back, sighting.state ≠ .exhausted

variable {seen : AccountCreditState} {sighting : Sighting} {before : List Sighting}

theorem Streak.start (recovered : seen ≠ .exhausted) (generation : Option Nat) :
    Streak seen [⟨seen, generation⟩] where
  first earlier sighting later parts _ := by
    cases earlier with
    | nil =>
      cases parts
      rfl
    | cons _ rest => cases rest <;> cases parts
  lasting sighting member := by
    rw [List.mem_singleton.1 member]
    exact recovered

/-- The last sighting of a streak is one of a generation that has been seen before, or is in the same state. -/
theorem Streak.snoc {back : List Sighting} (streak : Streak seen back) (recovered : sighting.state ≠ .exhausted)
    (counts : sighting.generation ∈ back.map (·.generation) ∨ sighting.state = seen) :
    Streak seen (back ++ [sighting]) where
  first earlier other later parts fresh := by
    rcases List.append_eq_append_iff.1 parts with ⟨between, rfl, rest⟩ | ⟨between, rfl, rest⟩
    · cases between with
      | nil =>
        cases rest
        rw [List.append_nil] at fresh
        rcases counts with again | same
        · exact absurd again fresh
        · exact same
      | cons _ between => cases between <;> cases rest
    · cases between with
      | nil =>
        cases rest
        rcases counts with again | same
        · exact absurd (by simpa using again) fresh
        · exact same
      | cons _ between =>
        cases rest
        exact streak.first earlier other between rfl fresh
  lasting other member := by
    rcases List.mem_append.1 member with inside | member
    · exact streak.lasting other inside
    · rw [List.mem_singleton.1 member]
      exact recovered

theorem generations_snoc (back : List Sighting) (seen : AccountCreditState) (generation : Nat) :
    generations (back ++ [⟨seen, some generation⟩]) =
      if some generation ∈ back.map (·.generation) then generations back else generations back + 1 := by
  have among : some generation ∈ back.map (·.generation) ↔ generation ∈ (back.filterMap (·.generation)).toFinset := by
    simp
  have more : (back ++ [(⟨seen, some generation⟩ : Sighting)]).filterMap (·.generation) =
      back.filterMap (·.generation) ++ [generation] := by simp
  unfold generations
  rw [more, List.toFinset_append, List.toFinset_cons, List.toFinset_nil, insert_empty_eq, Finset.union_comm,
    ← Finset.insert_eq]
  split
  · rename_i again
    rw [Finset.insert_eq_of_mem (among.1 again)]
  · rename_i fresh
    rw [Finset.card_insert_of_notMem (mt among.2 fresh)]

/-- The pending observation counts no more generations than a streak at the end has. -/
def Counts (seen : List Sighting) (pending : PendingCreditObservation) : Prop :=
  ∃ back, back <:+ seen ∧ Streak pending.state back ∧
    back.getLast?.map (·.generation) = some (some pending.generation) ∧ pending.consecutive ≤ generations back

theorem Counts.start (recovered : seen ≠ .exhausted) (before : List Sighting) (generation : Nat) :
    Counts (before ++ [⟨seen, some generation⟩]) ⟨generation, seen, 1⟩ :=
  ⟨_, List.suffix_append before _, .start recovered _, rfl, Nat.le_refl 1⟩

theorem suffix_snoc {back seen : List Sighting} (suffix : back <:+ seen) (sighting : Sighting) :
    back ++ [sighting] <:+ seen ++ [sighting] := by
  obtain ⟨front, rfl⟩ := suffix
  exact ⟨front, by rw [List.append_assoc]⟩

theorem Counts.again {pending : PendingCreditObservation} (counts : Counts before pending)
    (recovered : seen ≠ .exhausted) :
    Counts (before ++ [⟨seen, some pending.generation⟩]) pending := by
  obtain ⟨back, suffix, streak, last, enough⟩ := counts
  obtain ⟨final, found, same⟩ := Option.map_eq_some_iff.1 last
  have known : some pending.generation ∈ back.map (·.generation) :=
    List.mem_map.2 ⟨final, List.mem_of_getLast? found, same⟩
  refine ⟨_, suffix_snoc suffix _, streak.snoc recovered (.inl known), by simp, ?_⟩
  rw [generations_snoc, if_pos known]
  exact enough

theorem Counts.next {pending : PendingCreditObservation} (counts : Counts before pending)
    (recovered : pending.state ≠ .exhausted) {generation : Nat} (fresh : some generation ∈ before.map (·.generation) →
      before.getLast?.map (·.generation) = some (some generation)) (other : pending.generation ≠ generation) :
    Counts (before ++ [⟨pending.state, some generation⟩])
      ⟨generation, pending.state, min (pending.consecutive + 1) 255⟩ := by
  obtain ⟨back, suffix, streak, last, enough⟩ := counts
  have unknown : some generation ∉ back.map (·.generation) := by
    intro known
    obtain ⟨front, rfl⟩ := suffix
    have final := fresh (by rw [List.map_append]; exact List.mem_append_right _ known)
    obtain ⟨sighting, found, same⟩ := Option.map_eq_some_iff.1 last
    rw [List.getLast?_append, found, Option.some_or, Option.map_some, same] at final
    exact other (Option.some.inj (Option.some.inj final))
  refine ⟨_, suffix_snoc suffix _, streak.snoc recovered (.inr rfl), by simp, ?_⟩
  rw [generations_snoc, if_neg unknown]
  dsimp only
  omega

/-! ### Generations -/

namespace AppState

variable (state : AppState)

def underway : List Nat := state.recordings.map (·.observation.generation)

structure Issued : Prop where
  named : ∀ accountId runtime, state.pool accountId = some runtime → runtime.account.id = accountId
  distinct : state.underway.Nodup
  issued : ∀ generation ∈ state.underway, generation ≤ state.authoritativeUsageGeneration
  recorded : ∀ accountId observation, state.authoritativeUsage accountId = some observation →
    observation.generation ≤ state.authoritativeUsageGeneration ∧ observation.generation ∉ state.underway

/-- What has been seen has been in the map; only the generation that is there now can be seen again. -/
structure Met (accountId : String) (seen : List Sighting) : Prop where
  past : ∀ sighting ∈ seen, ∀ generation ∈ sighting.generation,
    generation ≤ state.authoritativeUsageGeneration ∧ generation ∉ state.underway
  present : ∀ observation, state.authoritativeUsage accountId = some observation →
    some observation.generation ∈ seen.map (·.generation) →
    seen.getLast?.map (·.generation) = some (some observation.generation)

/-- What is pending is not yet confirmed, and counts what has been seen. -/
def Counted (accountId : String) (seen : List Sighting) : Prop :=
  ∀ pending, state.pendingCreditObservations accountId = some pending →
    pending.consecutive < recoveryConfirmations ∧ Counts seen pending

variable {state}

theorem takeGeneration_underway (accountId : String) (usage : Usage) :
    (state.takeGeneration accountId usage).underway =
      (state.authoritativeUsageGeneration + 1) :: state.underway := rfl

theorem Issued.takeGeneration (issued : state.Issued) (accountId : String) (usage : Usage) :
    (state.takeGeneration accountId usage).Issued where
  named := issued.named
  distinct := by
    rw [takeGeneration_underway]
    refine List.nodup_cons.2 ⟨fun member => ?_, issued.distinct⟩
    have old := issued.issued _ member
    omega
  issued generation member := by
    rw [takeGeneration_underway] at member
    show generation ≤ state.authoritativeUsageGeneration + 1
    rcases List.mem_cons.1 member with rfl | old
    · exact Nat.le_refl _
    · exact Nat.le_succ_of_le (issued.issued generation old)
  recorded other observation known := by
    obtain ⟨old, absent⟩ := issued.recorded other observation known
    rw [takeGeneration_underway]
    refine ⟨Nat.le_succ_of_le old, fun member => ?_⟩
    rcases List.mem_cons.1 member with new | inside
    · omega
    · exact absent inside

theorem insert_underway (issued : state.Issued) {recording : Recording} (there : recording ∈ state.recordings)
    (generation : Nat) :
    generation ∈ (state.insertObservation recording).underway ↔
      generation ∈ state.underway ∧ generation ≠ recording.observation.generation := by
  have recordings : (state.insertObservation recording).recordings = state.recordings.erase recording := by
    unfold insertObservation
    rw [if_pos there]
  have distinct := issued.distinct
  unfold underway at distinct ⊢
  rw [recordings]
  have once : state.recordings.Nodup := List.Nodup.of_map _ distinct
  constructor
  · intro member
    obtain ⟨other, inside, rfl⟩ := List.mem_map.1 member
    obtain ⟨differs, kept⟩ := (List.Nodup.mem_erase_iff once).1 inside
    exact ⟨List.mem_map.2 ⟨other, kept, rfl⟩,
      fun same => differs (List.inj_on_of_nodup_map distinct kept there same)⟩
  · rintro ⟨member, differs⟩
    obtain ⟨other, inside, rfl⟩ := List.mem_map.1 member
    refine List.mem_map.2 ⟨other, (List.Nodup.mem_erase_iff once).2 ⟨?_, inside⟩, rfl⟩
    rintro rfl
    exact differs rfl

theorem insert_usage {recording : Recording} (there : recording ∈ state.recordings) :
    (state.insertObservation recording).authoritativeUsage =
      Function.update state.authoritativeUsage recording.accountId (some recording.observation) := by
  unfold insertObservation
  rw [if_pos there]

variable (state) in
theorem insert_other (recording : Recording) :
    (state.insertObservation recording).pool = state.pool ∧
      (state.insertObservation recording).authoritativeUsageGeneration = state.authoritativeUsageGeneration ∧
      (state.insertObservation recording).pendingCreditObservations = state.pendingCreditObservations := by
  unfold insertObservation
  split <;> exact ⟨rfl, rfl, rfl⟩

theorem Issued.insertObservation (issued : state.Issued) (recording : Recording) :
    (state.insertObservation recording).Issued := by
  by_cases there : recording ∈ state.recordings
  · obtain ⟨pool, generation, -⟩ := insert_other state recording
    have mine : recording.observation.generation ∈ state.underway := List.mem_map_of_mem there
    constructor
    · rw [pool]
      exact issued.named
    · unfold AppState.insertObservation
      rw [if_pos there]
      exact issued.distinct.sublist (List.erase_sublist.map _)
    · intro other member
      rw [generation]
      exact issued.issued other ((insert_underway issued there other).1 member).1
    · intro accountId observation known
      rw [generation, insert_underway issued there]
      rw [insert_usage there] at known
      by_cases same : accountId = recording.accountId
      · rw [same, Function.update_self] at known
        obtain rfl := Option.some.inj known
        exact ⟨issued.issued _ mine, fun outside => outside.2 rfl⟩
      · rw [Function.update_of_ne same] at known
        obtain ⟨old, absent⟩ := issued.recorded accountId observation known
        exact ⟨old, fun inside => absent inside.1⟩
  · unfold AppState.insertObservation
    rw [if_neg there]
    exact issued

variable {accountId : String}

theorem Met.insertObservation (issued : state.Issued) {seen : List Sighting} (met : state.Met accountId seen)
    (recording : Recording) :
    (state.insertObservation recording).Met accountId seen := by
  by_cases there : recording ∈ state.recordings
  · obtain ⟨-, generation, -⟩ := insert_other state recording
    have mine : recording.observation.generation ∈ state.underway := List.mem_map_of_mem there
    constructor
    · intro sighting member other found
      obtain ⟨old, absent⟩ := met.past sighting member other found
      rw [generation, insert_underway issued there]
      exact ⟨old, fun inside => absent inside.1⟩
    · intro observation known again
      rw [insert_usage there] at known
      by_cases same : accountId = recording.accountId
      · -- what is inserted has not been seen before
        rw [same, Function.update_self] at known
        obtain rfl := Option.some.inj known
        obtain ⟨sighting, member, found⟩ := List.mem_map.1 again
        exact absurd mine (met.past sighting member _ found).2
      · rw [Function.update_of_ne same] at known
        exact met.present observation known again
  · unfold AppState.insertObservation
    rw [if_neg there]
    exact met

/-! ### Reconciliations -/

inductive Reconciled (state : AppState) (accountId : String) (incidentActive : WebhookEventKind → Bool) :
    Option Sighting → Option PendingCreditObservation → List Notification → Prop
  | unseen {pending notifications} : pending = none ∨ pending = state.pendingCreditObservations accountId →
      Reconciled state accountId incidentActive none pending notifications
  | exhausted {notifications} : .resolveIncident .accountQuotaExhausted accountId ∉ notifications →
      Reconciled state accountId incidentActive
        (some ⟨.exhausted, (state.authoritativeUsage accountId).map (·.generation)⟩) none notifications
  | recovering {seen observation pending notifications} : seen ≠ .exhausted →
      state.authoritativeUsage accountId = some observation →
      (∀ kept, pending = some kept → kept.consecutive < recoveryConfirmations ∧
        kept = PendingCreditObservation.observe observation.generation seen
          (state.pendingCreditObservations accountId)) →
      (incidentActive .accountQuotaExhausted = true → notifications ≠ [] →
        recoveryConfirmations ≤ (PendingCreditObservation.observe observation.generation seen
          (state.pendingCreditObservations accountId)).consecutive) →
      Reconciled state accountId incidentActive (some ⟨seen, some observation.generation⟩) pending notifications

def withPending (state : AppState) (accountId : String) (pending : Option PendingCreditObservation) : AppState :=
  { state with pendingCreditObservations := Function.update state.pendingCreditObservations accountId pending }

theorem confirmThen_cases (state : AppState) (accountId : String) (generation : Nat) (observed : AccountCreditState)
    (mustConfirm : Bool) (notifications : List Notification) :
    ∃ pending, (state.confirmThen accountId (some generation) observed mustConfirm notifications).1 =
        state.withPending accountId pending ∧
      (∀ kept, pending = some kept → kept.consecutive < recoveryConfirmations ∧
        kept = PendingCreditObservation.observe generation observed (state.pendingCreditObservations accountId)) ∧
      (mustConfirm = true →
        (state.confirmThen accountId (some generation) observed mustConfirm notifications).2 ≠ [] →
        recoveryConfirmations ≤
          (PendingCreditObservation.observe generation observed (state.pendingCreditObservations accountId)).consecutive) := by
  cases mustConfirm with
  | false => exact ⟨none, rfl, nofun, nofun⟩
  | true =>
    unfold confirmThen transitionConfirmed observeCreditTransition
    simp only [if_true, decide_eq_true_eq]
    split
    · rename_i confirmed
      refine ⟨none, ?_, nofun, fun _ _ => confirmed⟩
      unfold clearCreditTransition withPending
      simp only [Function.update_idem]
    · rename_i waits
      refine ⟨_, rfl, ?_, fun _ some => absurd rfl some⟩
      rintro _ ⟨rfl⟩
      exact ⟨Nat.lt_of_not_le waits, rfl⟩

theorem observation_cases (state : AppState) (account : Pool.Account) (config : PoolConfig) (upstreamExhausted : Bool) :
    (∃ usage, state.authoritativeCreditObservation account config upstreamExhausted =
        .known .exhausted usage ((state.authoritativeUsage account.id).map (·.generation))) ∨
      state.authoritativeCreditObservation account config upstreamExhausted = .unknown ∨
      ∃ seen observation, state.authoritativeUsage account.id = some observation ∧
        state.authoritativeCreditObservation account config upstreamExhausted =
          .known seen (some observation.usage) (some observation.generation) := by
  unfold authoritativeCreditObservation
  dsimp only
  split
  · exact .inl ⟨_, rfl⟩
  · cases known : state.authoritativeUsage account.id with
    | none => exact .inr (.inl rfl)
    | some observation => exact .inr (.inr ⟨_, observation, rfl, rfl⟩)

theorem sync_cases (named : ∀ runtime, state.pool accountId = some runtime →
      runtime.account.id = accountId) (incidentActive : WebhookEventKind → Bool) :
    ∃ pending, (state.syncAccountQuota accountId incidentActive).1 = state.withPending accountId pending ∧
      Reconciled state accountId incidentActive (state.seen accountId) pending
        (state.syncAccountQuota accountId incidentActive).2 := by
  have same : state = state.withPending accountId (state.pendingCreditObservations accountId) := by
    unfold withPending
    rw [Function.update_eq_self]
  unfold syncAccountQuota seen
  cases found : state.pool accountId with
  | none => exact ⟨_, same, .unseen (.inr rfl)⟩
  | some runtime =>
    obtain rfl := named runtime found
    dsimp only
    unfold syncAccountCreditIncident
    cases enabled : runtime.account.enabled with
    | false => exact ⟨none, rfl, .unseen (.inl rfl)⟩
    | true =>
      rcases state.observation_cases runtime.account state.config runtime.upstreamExhausted with
        ⟨usage, observed⟩ | observed | ⟨seen, observation, known, observed⟩
      · rw [observed]
        exact ⟨none, rfl, .exhausted (by simp)⟩
      · rw [observed]
        exact ⟨_, same, .unseen (.inr rfl)⟩
      · rw [observed]
        cases seen with
        | available =>
          obtain ⟨pending, result, kept, confirmed⟩ := state.confirmThen_cases runtime.account.id observation.generation
            .available (incidentActive .accountQuotaExhausted || incidentActive .accountCreditProtected)
            (resolveAccountCreditIncidents runtime.account.id)
          exact ⟨pending, result, .recovering (by decide) known kept fun active =>
            confirmed (by rw [active]; rfl)⟩
        | guarded =>
          obtain ⟨pending, result, kept, confirmed⟩ := state.confirmThen_cases runtime.account.id observation.generation
            .guarded (incidentActive .accountQuotaExhausted)
            [.resolveIncident .accountQuotaExhausted runtime.account.id,
              .emit .accountCreditProtected runtime.account.id]
          exact ⟨pending, result, .recovering (by decide) known kept confirmed⟩
        | exhausted =>
          have generation : some observation.generation =
              (state.authoritativeUsage runtime.account.id).map (·.generation) := by rw [known]; rfl
          dsimp only
          rw [generation]
          exact ⟨none, rfl, .exhausted (by simp)⟩

theorem Counted.observe (counted : state.Counted accountId before) (met : state.Met accountId before)
    {observation : AuthoritativeUsageObservation} (known : state.authoritativeUsage accountId = some observation)
    (recovered : seen ≠ .exhausted) :
    Counts (before ++ [⟨seen, some observation.generation⟩])
      (PendingCreditObservation.observe observation.generation seen (state.pendingCreditObservations accountId)) := by
  cases found : state.pendingCreditObservations accountId with
  | none => exact .start recovered before _
  | some pending =>
    have counts := (counted pending found).2
    unfold PendingCreditObservation.observe
    dsimp only
    split
    · rename_i same
      rw [← same]
      exact counts.again recovered
    · rename_i other
      by_cases same : pending.state = seen
      · rw [if_pos same]
        subst same
        exact counts.next recovered (met.present observation known) other
      · rw [if_neg same]
        exact .start recovered before _

/-! ### Steps -/

theorem Reconciled.generation {incidentActive : WebhookEventKind → Bool} {pending : Option PendingCreditObservation}
    {notifications : List Notification}
    (reconciled : Reconciled state accountId incidentActive (some sighting) pending notifications) :
    sighting.generation = (state.authoritativeUsage accountId).map (·.generation) := by
  cases reconciled with
  | exhausted => rfl
  | recovering _ known =>
    rw [known]
    rfl

theorem Issued.withPending (issued : state.Issued) (accountId : String) (pending : Option PendingCreditObservation) :
    (state.withPending accountId pending).Issued :=
  ⟨issued.named, issued.distinct, issued.issued, issued.recorded⟩

theorem Met.snoc (issued : state.Issued) (met : state.Met accountId before)
    (generation : sighting.generation = (state.authoritativeUsage accountId).map (·.generation)) :
    state.Met accountId (before ++ [sighting]) where
  past other member found := by
    rcases List.mem_append.1 member with inside | here
    · exact met.past other inside found
    · obtain rfl := List.mem_singleton.1 here
      intro same
      rw [generation] at same
      obtain ⟨observation, known, rfl⟩ := Option.map_eq_some_iff.1 same
      exact issued.recorded accountId observation known
  present observation known _ := by
    rw [List.getLast?_concat, Option.map_some, generation, known]
    rfl

structure Tracked (state : AppState) (accountId : String) (before : List Sighting) : Prop where
  issued : state.Issued
  met : state.Met accountId before
  counted : state.Counted accountId before

theorem Tracked.sync (tracked : state.Tracked accountId before) (synced : String)
    (incidentActive : WebhookEventKind → Bool) :
    (state.syncAccountQuota synced incidentActive).1.Tracked accountId
      (before ++ sightings accountId state (.sync synced incidentActive)) := by
  obtain ⟨pending, result, reconciled⟩ := sync_cases (tracked.issued.named synced) incidentActive
  rw [result]
  have issued := tracked.issued.withPending synced pending
  by_cases mine : synced = accountId
  · subst mine
    show (state.withPending synced pending).Tracked synced (before ++ if synced = synced then _ else _)
    rw [if_pos rfl]
    cases saw : state.seen synced with
    | none =>
      rw [saw] at reconciled
      rw [Option.toList_none, List.append_nil]
      refine ⟨issued, ⟨tracked.met.past, tracked.met.present⟩, fun kept found => ?_⟩
      dsimp only [AppState.withPending] at found
      rw [Function.update_self] at found
      cases reconciled with
      | unseen same =>
        rcases same with rfl | rfl
        · cases found
        · exact tracked.counted kept found
    | some sighting =>
      rw [saw] at reconciled
      rw [Option.toList_some]
      have met := tracked.met.snoc tracked.issued reconciled.generation
      refine ⟨issued, ⟨met.past, met.present⟩, fun kept found => ?_⟩
      dsimp only [AppState.withPending] at found
      rw [Function.update_self] at found
      cases reconciled with
      | exhausted => cases found
      | recovering recovered known keeps _ =>
        obtain ⟨waits, rfl⟩ := keeps kept found
        exact ⟨waits, tracked.counted.observe tracked.met known recovered⟩
  · show (state.withPending synced pending).Tracked accountId (before ++ if synced = accountId then _ else _)
    rw [if_neg mine, List.append_nil]
    refine ⟨issued, ⟨tracked.met.past, tracked.met.present⟩, fun kept found => ?_⟩
    dsimp only [AppState.withPending] at found
    rw [Function.update_of_ne (Ne.symm mine)] at found
    exact tracked.counted kept found

theorem Tracked.step (tracked : state.Tracked accountId before) (action : Action) :
    (Alerts.step state action).Tracked accountId (before ++ sightings accountId state action) := by
  obtain ⟨issued, met, counted⟩ := tracked
  cases action with
  | takeGeneration other usage =>
    show (Alerts.step state _).Tracked accountId (before ++ [])
    rw [List.append_nil]
    refine ⟨issued.takeGeneration other usage, ⟨fun sighting member generation found => ?_, met.present⟩, counted⟩
    obtain ⟨old, absent⟩ := met.past sighting member generation found
    refine ⟨Nat.le_succ_of_le old, fun inside => ?_⟩
    rcases List.mem_cons.1 inside with new | inside
    · rw [new] at old
      exact absurd old (Nat.not_succ_le_self _)
    · exact absent inside
  | insertObservation recording =>
    show (Alerts.step state _).Tracked accountId (before ++ [])
    rw [List.append_nil]
    refine ⟨issued.insertObservation recording, met.insertObservation issued recording, fun pending found => ?_⟩
    obtain ⟨-, -, same⟩ := insert_other state recording
    dsimp only [Alerts.step] at found
    rw [same] at found
    exact counted pending found
  | changeConfig config =>
    show (Alerts.step state _).Tracked accountId (before ++ [])
    rw [List.append_nil]
    exact ⟨⟨issued.named, issued.distinct, issued.issued, issued.recorded⟩, ⟨met.past, met.present⟩, counted⟩
  | putAccount runtime =>
    show (Alerts.step state _).Tracked accountId (before ++ [])
    rw [List.append_nil]
    refine ⟨⟨fun other found known => ?_, issued.distinct, issued.issued, issued.recorded⟩,
      ⟨met.past, met.present⟩, counted⟩
    dsimp only [Alerts.step] at known
    by_cases same : other = runtime.account.id
    · rw [same, Function.update_self] at known
      rw [← Option.some.inj known, same]
    · rw [Function.update_of_ne same] at known
      exact issued.named other found known
  | removeAccount removed =>
    show (Alerts.step state _).Tracked accountId (before ++ [])
    rw [List.append_nil]
    refine ⟨⟨fun other found known => ?_, issued.distinct, issued.issued, issued.recorded⟩,
      ⟨met.past, met.present⟩, counted⟩
    dsimp only [Alerts.step] at known
    by_cases same : other = removed
    · rw [same, Function.update_self] at known
      cases known
    · rw [Function.update_of_ne same] at known
      exact issued.named other found known
  | sync synced incidentActive => exact Tracked.sync ⟨issued, met, counted⟩ synced incidentActive

theorem Tracked.run (tracked : state.Tracked accountId before) (actions : List Action) :
    (run Alerts.step state actions).Tracked accountId (before ++ history accountId state actions) := by
  induction actions generalizing state before with
  | nil =>
    rw [history, List.append_nil]
    exact tracked
  | cons action rest ih =>
    rw [history, ← List.append_assoc]
    exact ih (tracked.step action)

theorem tracked_initial (accountId : String) : ({} : AppState).Tracked accountId [] where
  issued :=
    { named := fun _ _ found => by cases found
      distinct := List.nodup_nil
      issued := fun _ member => by cases member
      recorded := fun _ _ known => by cases known }
  met :=
    { past := fun _ member => by cases member
      present := fun _ known => by cases known }
  counted := fun _ found => by cases found

end AppState

theorem observe_state {generation : Nat} {pending : Option PendingCreditObservation}
    (waits : ∀ kept, pending = some kept → kept.consecutive < recoveryConfirmations)
    (confirmed : recoveryConfirmations ≤ (PendingCreditObservation.observe generation seen pending).consecutive) :
    (PendingCreditObservation.observe generation seen pending).state = seen := by
  cases pending with
  | none => rfl
  | some pending =>
    unfold PendingCreditObservation.observe at confirmed ⊢
    dsimp only at confirmed ⊢
    split
    · rename_i same
      rw [if_pos same] at confirmed
      exact absurd confirmed (Nat.not_le_of_lt (waits pending rfl))
    · rfl

/-- Where an active quota incident is resolved because of what is seen, the last sightings are a streak of several
generations. -/
theorem recovery_debounced (actions : List Action) (accountId : String) (incidentActive : WebhookEventKind → Bool)
    (active : incidentActive .accountQuotaExhausted = true) (sighting : Sighting)
    (saw : (run step {} actions).seen accountId = some sighting)
    (resolved : .resolveIncident .accountQuotaExhausted accountId ∈
      ((run step {} actions).syncAccountQuota accountId incidentActive).2) :
    ∃ back, back <:+ history accountId {} (actions ++ [.sync accountId incidentActive]) ∧
      Streak sighting.state back ∧ recoveryConfirmations ≤ generations back := by
  have tracked := (AppState.tracked_initial accountId).run actions
  rw [List.nil_append] at tracked
  have whole : history accountId {} (actions ++ [.sync accountId incidentActive]) =
      history accountId {} actions ++ [sighting] := by
    rw [history_append]
    simp [history, sightings, saw]
  obtain ⟨pending, -, reconciled⟩ := AppState.sync_cases (tracked.issued.named accountId) incidentActive
  rw [saw] at reconciled
  cases reconciled with
  | exhausted stays => exact absurd resolved stays
  | recovering recovered known _ confirms =>
    have confirmed := confirms active (List.ne_nil_of_mem resolved)
    obtain ⟨back, suffix, streak, -, enough⟩ := tracked.counted.observe tracked.met known recovered
    have state := observe_state (fun kept found => (tracked.counted kept found).1) confirmed
    rw [state] at streak
    rw [whole]
    exact ⟨back, suffix, streak, Nat.le_trans confirmed enough⟩

def reported (current : Rat) (generation : Nat) : List Action :=
  let usage : Usage := ⟨current, 100, none, current, 0⟩
  [.takeGeneration "acc_1" usage, .insertObservation ⟨"acc_1", usage, generation⟩]

def enrolled : Action := .putAccount ⟨⟨"acc_1", true, .social, none, none, false⟩, false⟩

abbrev reconcile : Action := .sync "acc_1" fun _ => true

theorem recovery_debounced_twice :
    ∃ back, back <:+ history "acc_1" {} (enrolled :: reported 60 1 ++ [reconcile] ++ reported 10 2 ++ [reconcile]) ∧
      Streak .available back ∧ recoveryConfirmations ≤ generations back := by
  have saw : (run step {} (enrolled :: reported 60 1 ++ [reconcile] ++ reported 10 2)).seen "acc_1" =
      some ⟨.available, some 2⟩ := by decide +kernel
  have resolved : .resolveIncident .accountQuotaExhausted "acc_1" ∈
      ((run step {} (enrolled :: reported 60 1 ++ [reconcile] ++ reported 10 2)).syncAccountQuota "acc_1"
        fun _ => true).2 := by decide +kernel
  have streak := recovery_debounced (enrolled :: reported 60 1 ++ [reconcile] ++ reported 10 2) "acc_1" (fun _ => true) rfl
    ⟨.available, some 2⟩ saw resolved
  exact streak

/-- Between the two the limit for protection is raised to fifty credits, and the first report is seen again: the account
is protected then, and still the second report resolves the incident. -/
theorem recovery_across_reload :
    let actions := enrolled :: reported 60 1 ++ [reconcile, .changeConfig { lowCreditMinRemaining := 50 }, reconcile] ++
      reported 10 2
    (run step {} actions).seen "acc_1" = some ⟨.available, some 2⟩ ∧
      .resolveIncident .accountQuotaExhausted "acc_1" ∈ ((run step {} actions).syncAccountQuota "acc_1" fun _ => true).2 ∧
      ¬ ∃ back, back <:+ history "acc_1" {} (actions ++ [reconcile]) ∧
        (∀ sighting ∈ back, sighting.state = .available) ∧ recoveryConfirmations ≤ generations back := by
  intro actions
  refine ⟨by decide +kernel, by decide +kernel, ?_⟩
  rintro ⟨back, suffix, same, enough⟩
  have seen : history "acc_1" {} (actions ++ [reconcile]) =
      [⟨.available, some 1⟩, ⟨.guarded, some 1⟩, ⟨.available, some 2⟩] := by decide +kernel
  rw [seen] at suffix
  have none : ∀ back ∈ [⟨.available, some 1⟩, ⟨.guarded, some 1⟩, (⟨.available, some 2⟩ : Sighting)].tails,
      (∀ sighting ∈ back, sighting.state = .available) → ¬ recoveryConfirmations ≤ generations back := by decide
  exact none back ((List.mem_tails ..).2 suffix) same enough

end KiroProxy.Alerts

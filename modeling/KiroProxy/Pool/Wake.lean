import KiroProxy.Pool.Identity
import KiroProxy.Pool.Slots

/-! Whether a free slot reaches the calls that wait for one. A waiter looks for a slot first
and registers for notification afterwards; what is freed and notified in between stays free
while the waiter sleeps. -/
namespace KiroProxy.Pool

open Run Census

variable (catalog : Catalog)

/-- What `eligible` answers when nothing comes between its accesses. -/
def AccountState.eligible (config : PoolConfig) (now : Nat) (model : String) (state : AccountState) : Bool :=
  (state.health = .available ∨ state.health = .cooling ∧ state.coolingUntil.any (· ≤ now)) ∧
    (Check.account.step catalog config now model state).2 = .inr true

def PoolConfig.slots (config : PoolConfig) : Nat :=
  if config.maxConcurrentPerAccount = 0 then 2 ^ 64 - 1 else config.maxConcurrentPerAccount

/-- The free slots of a cell for a request: none where the account is not eligible for the
model, or out of the scope, or not in the pool any more. -/
def Shared.room (s : Shared) (request : Request) (c : Nat) : Nat :=
  match s.cells[c]? with
  | none => 0
  | some state =>
    if c ∈ s.accounts.map (·.2) ∧ (request.preferIds = [] ∨ state.account.id ∈ request.preferIds) ∧
        state.eligible catalog s.config s.clock request.model then s.config.slots - state.active
    else 0

/-- The next access of the call is a write of a lease drop, of `reset_health`, of
`replace_accounts` or of `update_config`. -/
def Call.frees : Call → Bool
  | .leased _ | .replacing _ | .updating _ => true
  | .reporting _ .resetHealth | .reporting _ .resetErrors | .reporting _ .resetCooling | .reporting _ .resetQuota
  | .reporting _ .resetCredit => true
  | _ => false

def Call.underway : Call → Bool
  | .notifying => true
  | .reporting _ .resetErrors | .reporting _ .resetCooling | .reporting _ .resetQuota | .reporting _ .resetCredit =>
    true
  | _ => false

def AccountPool.frees (pool : AccountPool) : Action → Bool
  | .advance i _ => pool.calls[i]?.any Call.frees
  | _ => false

/-- A pool together with the cells in which a slot has been freed, enabled or added for a
request by one of these operations, and some slot has been free ever since. -/
structure Tracked where
  pool : AccountPool
  opened : Request → Nat → Bool := fun _ _ => false

def track (t : Tracked) (action : Action) : Tracked where
  pool := step catalog t.pool action
  opened request c :=
    0 < (step catalog t.pool action).shared.room catalog request c &&
      (t.opened request c || t.pool.frees action &&
        t.pool.shared.room catalog request c < (step catalog t.pool action).shared.room catalog request c)

def tracked (accounts : List Account) (config : PoolConfig) (actions : List Action) : Tracked :=
  run (track catalog) { pool := .new accounts config } actions

/-- The call looks for a slot, or has looked for one, and is not registered yet. -/
def Call.unregistered : Call → Bool
  | .scanning stage _ _ _ | .checking stage _ _ _ _ _ => stage ≠ .probe
  | .limiting _ _ _ | .picking _ _ _ _ | .configuring _ | .entering _ _ | .admitted _ _ _ | .polling _ _ => true
  | _ => false

/-- The second look of a check at the health finds a cooldown that is over. -/
def Shared.stale (s : Shared) : Call → Bool
  | .checking stage _ cell .gate _ _ => stage ≠ .probe ∧
    s.cells[cell]?.any fun state => state.health = .cooling ∧ state.coolingUntil.any (· ≤ s.clock)
  | _ => false

/-- Nobody is notified while a call is on its way to its registration, no check meets a
cooldown that begins with a past end, and no operation is dropped before it has notified. -/
def AccountPool.timely (pool : AccountPool) : Action → Bool
  | .advance i _ => pool.calls[i]?.all fun call =>
      (call ≠ .notifying ∨ pool.calls.all fun other => !other.unregistered) ∧ pool.shared.stale call = false
  | .cancel i => pool.calls[i]?.all fun call => !call.underway
  | _ => true

/-- The open cells are those that the call will still come to; once it has come to all of them
there is none. -/
def Call.heeds (s : Shared) (opened : Request → Nat → Bool) : Call → Prop
  | .scanning stage request rest found =>
    stage ≠ .probe → ∀ c, opened request c = true → c ∈ rest ∨ c ∈ found
  | .checking stage request cell _ rest found =>
    stage ≠ .probe → ∀ c, opened request c = true → c = cell ∨ c ∈ rest ∨ c ∈ found
  | .limiting _ request found => ∀ c, opened request c = true → c ∈ found
  | .picking _ request maximum rest =>
    maximum = s.config.maxConcurrentPerAccount ∧ ∀ c, opened request c = true → c ∈ rest
  | .configuring request | .entering request _ | .admitted request _ _ | .polling request _ =>
    ∀ c, opened request c = false
  | .waiting request _ seen => seen = s.notified → ∀ c, opened request c = false
  | _ => True

/-- A report is on a cell that exists, and a registration is one with a past notification. -/
def Call.sound (s : Shared) : Call → Prop
  | .reporting cell _ => ∃ id, s.idOf cell = some id
  | .waiting _ _ seen => seen ≤ s.notified
  | _ => True

/-! ### Rooms -/

section Room

variable {catalog : Catalog} {order : List Nat} {s t : Shared} {call next : Call} {request : Request} {c : Nat}
  {opened : Request → Nat → Bool}

theorem room_pos (roomy : 0 < s.room catalog request c) :
    ∃ state, s.cells[c]? = some state ∧ c ∈ s.accounts.map (·.2) ∧
      (request.preferIds = [] ∨ state.account.id ∈ request.preferIds) ∧
      state.eligible catalog s.config s.clock request.model = true ∧ state.active < s.config.slots := by
  unfold Shared.room at roomy
  split at roomy
  · simp at roomy
  case h_2 state here =>
    split at roomy
    case isTrue fits => exact ⟨state, here, fits.1, fits.2.1, fits.2.2, by omega⟩
    · simp at roomy

theorem judged_eligible {config : PoolConfig} {now : Nat} {model : String} {check : Check} {state : AccountState}
    {answer : Bool} (eligible : state.eligible catalog config now model = true)
    (judged : (check.step catalog config now model state).2 = .inr answer)
    (fresh : check = .gate → ¬(state.health = .cooling ∧ state.coolingUntil.any (· ≤ now) = true)) : answer = true := by
  simp only [AccountState.eligible, decide_eq_true_eq] at eligible
  obtain ⟨health, account⟩ := eligible
  cases check with
  | gate =>
    have available : state.health = .available := health.resolve_right (fresh rfl)
    simp [Check.step, available] at judged
  | account =>
    rw [account, Sum.inr.injEq] at judged
    exact judged.symm
  | _ => simp [Check.step] at judged

theorem tryAcquireSlot_room {state : AccountState} {config : PoolConfig} (room : state.active < config.slots) :
    (state.tryAcquireSlot config.maxConcurrentPerAccount).isSome = true := by
  unfold PoolConfig.slots at room
  simp only [AccountState.tryAcquireSlot, if_pos room, Option.isSome_some]

theorem Call.heeds_mono {fewer : Request → Nat → Bool}
    (subset : ∀ request c, fewer request c = true → opened request c = true)
    (config : t.config = s.config) (notified : t.notified = s.notified) (heeds : call.heeds s opened) :
    call.heeds t fewer := by
  have none : ∀ request c, opened request c = false → fewer request c = false := by
    intro request c closed
    rw [← Bool.not_eq_true] at closed ⊢
    exact fun still => closed (subset request c still)
  cases call with
  | scanning stage request rest found => exact fun real c still => heeds real c (subset request c still)
  | checking stage request cell check rest found => exact fun real c still => heeds real c (subset request c still)
  | limiting stage request found => exact fun c still => heeds c (subset request c still)
  | picking stage request maximum rest =>
    exact ⟨config ▸ heeds.1, fun c still => heeds.2 c (subset request c still)⟩
  | configuring request => exact fun c => none request c (heeds c)
  | entering request read => exact fun c => none request c (heeds c)
  | admitted request read position => exact fun c => none request c (heeds c)
  | polling request ticket => exact fun c => none request c (heeds c)
  | waiting request ticket seen => exact fun same c => none request c (heeds (notified ▸ same) c)
  | _ => trivial

theorem Call.heeds_idle (registered : call.unregistered = false)
    (woken : ∀ request ticket seen, call = .waiting request ticket seen → seen ≠ s.notified) : call.heeds s opened := by
  cases call with
  | scanning stage request rest found => exact fun real => absurd registered (by simp [Call.unregistered, real])
  | checking stage request cell check rest found =>
    exact fun real => absurd registered (by simp [Call.unregistered, real])
  | limiting stage request found => cases registered
  | picking stage request maximum rest => cases registered
  | waiting request ticket seen => exact fun same => absurd same (woken request ticket seen rfl)
  | configuring request => cases registered
  | entering request read => cases registered
  | admitted request read position => cases registered
  | polling request ticket => cases registered
  | _ => trivial

theorem Access.heeds (access : Access catalog order s call t next) (silent : call ≠ .notifying)
    (bare : call.frees = false) (roomy : ∀ request c, opened request c = true → 0 < s.room catalog request c)
    (fresh : s.stale call = false) (heeds : call.heeds s opened) : next.heeds t opened := by
  cases access with
  | opened =>
    intro real c still
    obtain ⟨state, here, inside, -⟩ := room_pos (roomy _ c still)
    exact .inl inside
  | scanned =>
    refine scanned_elim trivial trivial fun real => ?_
    intro c still
    simpa using heeds real c still
  | @skipped stage request cell rest found apart =>
    intro real c still
    obtain ⟨state, here, -, scope, -⟩ := room_pos (roomy request c still)
    rcases heeds real c still with ahead | old
    · rcases List.mem_cons.mp ahead with rfl | later
      · obtain ⟨some, outside⟩ := apart state here
        exact absurd (scope.resolve_left some) outside
      · exact .inl later
    · exact .inr old
  | met =>
    intro real c still
    rcases heeds real c still with ahead | old
    · rcases List.mem_cons.mp ahead with same | later
      · exact .inl same
      · exact .inr (.inl later)
    · exact .inr (.inr old)
  | vanished gone =>
    intro real c still
    obtain ⟨state, here, -⟩ := room_pos (roomy _ c still)
    refine (heeds real c still).resolve_left ?_
    rintro rfl
    rw [gone] at here
    cases here
  | checked here answer => exact heeds
  | @judged stage request cell check eligible rest found state here answer =>
    intro real c still
    rcases heeds real c still with rfl | ahead | old
    · obtain ⟨own, there, -, -, fits, -⟩ := room_pos (roomy request c still)
      rw [here, Option.some.injEq] at there
      subst there
      have passes : eligible = true := by
        refine judged_eligible fits answer ?_
        rintro rfl late
        simp [Shared.stale, real, here, late] at fresh
      right
      simp [passes]
    · exact .inl ahead
    · right
      split
      · exact List.mem_append_left _ old
      · exact old
  | limited => exact ⟨rfl, fun c still => mem_ordered.mpr (heeds c still)⟩
  | @missed stage request maximum =>
    have none : ∀ c, opened request c = false := by
      intro c
      rw [← Bool.not_eq_true]
      exact fun still => by simpa using heeds.2 c still
    cases stage <;> exact none
  | @full stage request maximum cell rest busy =>
    refine ⟨heeds.1, ?_⟩
    intro c still
    obtain ⟨state, here, -, -, -, room⟩ := room_pos (roomy request c still)
    refine (List.mem_cons.mp (heeds.2 c still)).resolve_left ?_
    rintro rfl
    have free := tryAcquireSlot_room room
    rw [← heeds.1] at free
    simp [here] at busy
    simp [busy] at free
  | taken here got => exact finish_elim (fun _ => trivial) (fun _ _ => trivial) trivial
  | configured => exact heeds
  | entered => exact heeds
  | admitted => exact startWait_elim trivial fun _ _ => heeds
  | polled => exact poll_elim (fun _ => trivial) fun _ => heeds
  | woken => exact wake_elim trivial (fun _ => trivial) heeds
  | left => exact finish_elim (fun _ => trivial) (fun _ _ => trivial) trivial
  | reported here => exact afterReport_elim (fun _ _ => trivial) trivial trivial
  | notified => exact absurd rfl silent
  | _ => trivial

theorem cancel_heeds (heeds : call.heeds s opened) : call.cancel.heeds s opened := by
  cases call with
  | opening stage request => exact finish_elim (fun _ => trivial) (fun _ _ => trivial) trivial
  | scanning stage request rest found => exact finish_elim (fun _ => trivial) (fun _ _ => trivial) trivial
  | checking stage request cell check rest found => exact finish_elim (fun _ => trivial) (fun _ _ => trivial) trivial
  | waiting request ticket seen => trivial
  | _ => exact heeds

theorem operation_heeds (operation : Operation) : operation.call.heeds s opened := by
  cases operation with
  | acquireScopedExcluding model allowedIds excludedIds =>
    simp only [Operation.call]
    split <;> trivial
  | _ => trivial

theorem Access.underway (access : Access catalog order s call t next) (frees : call.frees = true)
    (live : ∀ cell report, call = .reporting cell report → s.cells[cell]? ≠ none) : next.underway = true := by
  cases access with
  | released | replaced | updated => rfl
  | @reported cell report state here => cases report <;> first | rfl | cases frees
  | unreported gone => exact absurd gone (live _ _ rfl)
  | _ => cases frees

theorem Access.still (access : Access catalog order s call t next) (silent : call ≠ .notifying)
    (bare : call.frees = false) : t.config = s.config ∧ t.notified = s.notified := by
  cases access with
  | replaced | updated => cases bare
  | notified => exact absurd rfl silent
  | _ => exact ⟨rfl, rfl⟩

theorem underway_cases (underway : call.underway = true) : call = .notifying ∨ call.frees = true := by
  cases call with
  | notifying => exact .inl rfl
  | reporting cell report => cases report <;> first | exact .inr rfl | cases underway
  | _ => cases underway

end Room

/-! ### Whole runs -/

/-- Unless an operation is yet to notify, every call comes to the open cells, or is woken. -/
structure Heeding (t : Tracked) : Prop where
  mapped : Mapped t.pool.shared
  sound : ∀ call ∈ t.pool.calls, call.sound t.pool.shared
  roomy : ∀ request c, t.opened request c = true → 0 < t.pool.shared.room catalog request c
  heeds : (∀ call ∈ t.pool.calls, call.underway = false) →
    ∀ call ∈ t.pool.calls, call.heeds t.pool.shared t.opened

section Steps

variable {catalog : Catalog} {order : List Nat} {s u : Shared} {call next : Call} {pool after : AccountPool}
  {action : Action}

theorem Call.sound_mono (ids : ∀ c id, s.idOf c = some id → u.idOf c = some id) (notified : s.notified ≤ u.notified)
    (sound : call.sound s) : call.sound u := by
  cases call with
  | reporting cell report =>
    obtain ⟨id, was⟩ := sound
    exact ⟨id, ids cell id was⟩
  | waiting request ticket seen => exact Nat.le_trans sound notified
  | _ => trivial

theorem Access.notified_le (access : Access catalog order s call u next) : s.notified ≤ u.notified := by
  cases access with
  | notified => exact Nat.le_succ _
  | replaced => exact Nat.le_of_eq (replaceAccounts_rest s _).2.2.symm
  | _ => exact Nat.le_refl _

theorem Access.sound (access : Access catalog order s call u next) (mapped : Mapped s) (sound : call.sound s) :
    next.sound u := by
  refine Call.sound_mono (fun c id was => access.idOf mapped was) access.notified_le ?_
  cases access with
  | @resolved id report cell found => exact ⟨id, mapped.ids id cell (mem_of_lookup found)⟩
  | reported here => exact afterReport_elim (fun _ _ => sound) trivial trivial
  | scanned => exact scanned_elim trivial trivial fun _ => trivial
  | @missed stage => cases stage <;> trivial
  | taken here got => exact finish_elim (fun _ => trivial) (fun _ _ => trivial) trivial
  | left => exact finish_elim (fun _ => trivial) (fun _ _ => trivial) trivial
  | admitted => exact startWait_elim trivial fun _ _ => trivial
  | polled => exact poll_elim (fun _ => trivial) (Nat.le_refl s.notified)
  | woken => exact wake_elim trivial (fun _ => trivial) sound
  | _ => trivial

theorem cancel_sound (sound : call.sound s) : call.cancel.sound s := by
  cases call with
  | opening stage request => exact finish_elim (fun _ => trivial) (fun _ _ => trivial) trivial
  | scanning stage request rest found => exact finish_elim (fun _ => trivial) (fun _ _ => trivial) trivial
  | checking stage request cell check rest found => exact finish_elim (fun _ => trivial) (fun _ _ => trivial) trivial
  | waiting request ticket seen => trivial
  | reporting cell report => trivial
  | _ => exact sound

theorem operation_sound (operation : Operation) : operation.call.sound s := by
  cases operation with
  | acquireScopedExcluding model allowedIds excludedIds =>
    simp only [Operation.call]
    split <;> trivial
  | _ => trivial

theorem Stepped.sound (stepped : Stepped catalog pool action after) (mapped : Mapped pool.shared)
    (sound : ∀ call ∈ pool.calls, call.sound pool.shared) : ∀ call ∈ after.calls, call.sound after.shared := by
  cases stepped with
  | skipped => exact sound
  | @started operation =>
    intro call member
    rcases List.mem_append.mp member with old | new
    · exact sound call old
    · rw [List.mem_singleton.mp new]
      exact operation_sound operation
  | @advanced i order call t next here access =>
    have moved := access.sound mapped (sound call (List.mem_of_getElem? here))
    refine all_set (fun other member => ?_) moved
    exact Call.sound_mono (fun c id was => access.idOf mapped was) access.notified_le (sound other member)
  | @cancelled i call here => exact all_set sound (cancel_sound (sound call (List.mem_of_getElem? here)))
  | @settled i actual cell here =>
    intro call member
    refine Call.sound_mono (s := pool.shared) ?_ (Nat.le_refl _) (sound call member)
    intro c id was
    rwa [pool.shared.idOf_modify cell c (fun state => settleCredits_id state actual _)]
  | ticked => exact fun call member => Call.sound_mono (fun _ _ was => was) (Nat.le_refl _) (sound call member)

theorem Access.heeding {i : Nat} {t : Tracked} {opened : Request → Nat → Bool}
    (access : Access catalog order t.pool.shared call u next) (here : t.pool.calls[i]? = some call)
    (before : Heeding catalog t) (timely : t.pool.timely (.advance i order) = true)
    (fewer : call.frees = false → ∀ request c, opened request c = true → t.opened request c = true)
    (done : ∀ other ∈ t.pool.calls.set i next, other.underway = false) :
    ∀ other ∈ t.pool.calls.set i next, other.heeds u opened := by
  simp only [AccountPool.timely, here, Option.all_some, decide_eq_true_eq] at timely
  obtain ⟨apart, fresh⟩ := timely
  have inside : next ∈ t.pool.calls.set i next :=
    List.mem_of_getElem? (List.getElem?_set_self (List.getElem?_eq_some_iff.mp here).1)
  by_cases silent : call = .notifying
  · -- whoever is registered has been notified
    subst silent
    have registered : ∀ other ∈ t.pool.calls, other.unregistered = false := by
      simpa using apart.resolve_left (by simp)
    cases access
    refine all_set ?_ trivial
    intro other member
    apply Call.heeds_idle (registered other member)
    rintro request ticket seen rfl
    have := before.sound _ member
    simp only [Call.sound, Shared.notifyWaiters] at this ⊢
    omega
  · cases bare : call.frees with
    | true =>
      have writes := access.underway bare ?_
      · rw [done next inside] at writes
        cases writes
      · rintro cell report rfl gone
        obtain ⟨id, named⟩ := before.sound _ (List.mem_of_getElem? here)
        simp [Shared.idOf, gone] at named
    | false =>
      have quiet : call.underway = false := by
        rw [← Bool.not_eq_true]
        intro still
        rcases underway_cases still with rfl | frees
        · exact silent rfl
        · rw [bare] at frees
          cases frees
      have heeds := before.heeds (all_of_set here quiet done)
      obtain ⟨config, notified⟩ := access.still silent bare
      have own := access.heeds silent bare before.roomy fresh (heeds call (List.mem_of_getElem? here))
      refine all_set (fun other member => ?_) (Call.heeds_mono (fewer bare) rfl rfl own)
      exact Call.heeds_mono (fewer bare) config notified (heeds other member)

theorem Stepped.heeds {t : Tracked} {opened : Request → Nat → Bool} (stepped : Stepped catalog t.pool action after)
    (before : Heeding catalog t) (timely : t.pool.timely action = true)
    (fewer : (t.pool.frees action = false ∨ after.shared = t.pool.shared) →
      ∀ request c, opened request c = true → t.opened request c = true)
    (done : ∀ call ∈ after.calls, call.underway = false) : ∀ call ∈ after.calls, call.heeds after.shared opened := by
  cases stepped with
  | skipped => exact fun call member => Call.heeds_mono (fewer (.inr rfl)) rfl rfl (before.heeds done call member)
  | @started operation =>
    have heeds := before.heeds fun call member => done call (List.mem_append_left _ member)
    intro call member
    rcases List.mem_append.mp member with old | new
    · exact Call.heeds_mono (fewer (.inr rfl)) rfl rfl (heeds call old)
    · rw [List.mem_singleton.mp new]
      exact operation_heeds operation
  | @advanced i order call u next here access =>
    refine access.heeding here before timely ?_ done
    exact fun bare => fewer (.inl (by simpa [AccountPool.frees, here] using bare))
  | @cancelled i call here =>
    have quiet : call.underway = false := by simpa [AccountPool.timely, here] using timely
    have heeds := before.heeds (all_of_set here quiet done)
    have own := cancel_heeds (heeds call (List.mem_of_getElem? here))
    refine all_set (fun other member => ?_) (Call.heeds_mono (fewer (.inr rfl)) rfl rfl own)
    exact Call.heeds_mono (fewer (.inr rfl)) rfl rfl (heeds other member)
  | settled here => exact fun call member => Call.heeds_mono (fewer (.inl rfl)) rfl rfl (before.heeds done call member)
  | ticked => exact fun call member => Call.heeds_mono (fewer (.inl rfl)) rfl rfl (before.heeds done call member)

end Steps

theorem track_heeding (t : Tracked) (action : Action) (before : Heeding catalog t)
    (timely : t.pool.timely action = true) : Heeding catalog (track catalog t action) := by
  have stepped := step_stepped catalog t.pool action
  refine ⟨stepped.mapped before.mapped, stepped.sound before.mapped before.sound, ?_, ?_⟩
  · intro request c still
    simp only [track, Bool.and_eq_true, decide_eq_true_eq] at still
    exact still.1
  · refine stepped.heeds before timely ?_
    intro bare request c still
    simp only [track, Bool.and_eq_true, Bool.or_eq_true, decide_eq_true_eq] at still
    rcases still.2 with old | ⟨frees, more⟩
    · exact old
    · rcases bare with bare | same
      · rw [bare] at frees
        cases frees
      · rw [same] at more
        exact absurd more (Nat.lt_irrefl _)

theorem tracked_pool (accounts : List Account) (config : PoolConfig) (actions : List Action) :
    (tracked catalog accounts config actions).pool = reached catalog accounts config actions :=
  run_proj (f := Tracked.pool) (fun _ _ => rfl) _ actions

theorem new_heeding (accounts : List Account) (config : PoolConfig) :
    Heeding catalog { pool := .new accounts config } := by
  refine ⟨reached_mapped catalog accounts config [], ?_, ?_, ?_⟩
  · simp [AccountPool.new]
  · simp
  · simp [AccountPool.new]

/-- A registered waiter without a wake-up, and without an operation that is yet to notify, is
not waiting for a slot that one of these operations has freed, enabled or added. -/
def NoLostWakeUp : Prop :=
  ∀ (accounts : List Account) (config : PoolConfig) (actions : List Action) (i : Nat) (request : Request)
    (ticket : Ticket) (seen : Nat),
    (reached catalog accounts config actions).calls[i]? = some (.waiting request ticket seen) →
    seen = (reached catalog accounts config actions).shared.notified →
    (∀ call ∈ (reached catalog accounts config actions).calls, call.underway = false) →
    ∀ c, (tracked catalog accounts config actions).opened request c = false

/-- The slot is given back while both other requests are registered; the first of them gets it,
the second one registers again. -/
def handedOn : List Action :=
  contended ++ [.advance 0 [], .advance 0 []] ++ List.replicate 10 (.advance 1 []) ++ List.replicate 11 (.advance 2 [])

def givenBackUnseen : List Action :=
  List.replicate 2 (.start (.acquire "" [])) ++ List.replicate 14 (.advance 0 []) ++
    List.replicate 18 (.advance 1 []) ++ [.advance 0 [], .advance 0 [], .advance 1 []]

end KiroProxy.Pool

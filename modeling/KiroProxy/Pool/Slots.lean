import KiroProxy.Lib.Census
import KiroProxy.Pool.Access

/-! Slots and queue positions: the counters of the pool agree with the calls that hold them. -/
namespace KiroProxy.Pool

open Run Census

def Call.holds (c : Nat) : Call → Bool
  | .leased cell | .leaving _ (.lease cell) => cell = c
  | _ => false

/-- The ticket of a call inside of the queue section: whether it was admitted in overflow. -/
def Stage.overflow : Stage → Option Bool
  | .retry ticket => some ticket.overflow
  | _ => none

def Call.admission : Call → Option Bool
  | .opening stage _ | .scanning stage _ _ _ | .checking stage _ _ _ _ _ | .limiting stage _ _
  | .picking stage _ _ _ => stage.overflow
  | .admitted _ config position => some (overflowing config position)
  | .polling _ ticket | .waiting _ ticket _ => some ticket.overflow
  | .leaving overflow _ => some overflow
  | _ => none

/-- Between the entry into the queue section and the drop of its guard. -/
def Call.inside (call : Call) : Bool := call.admission.isSome

def Call.seated (call : Call) : Bool := call.admission = some false

namespace Shared

def activeOf (s : Shared) (c : Nat) : Nat := (s.cells[c]?.map (·.active)).getD 0

theorem activeOf_modify (s : Shared) (cell c : Nat) (f : AccountState → AccountState) :
    (s.modify cell f).activeOf c =
      if cell = c then (s.cells[c]?.map fun state => (f state).active).getD 0 else s.activeOf c := by
  unfold activeOf modify
  rw [List.getElem?_modify]
  rcases eq_or_ne cell c with rfl | other
  · cases s.cells[cell]? <;> simp
  · simp [other]

theorem activeOf_modify_same (s : Shared) (cell c : Nat) {f : AccountState → AccountState}
    (same : ∀ state, (f state).active = state.active) : (s.modify cell f).activeOf c = s.activeOf c := by
  rw [activeOf_modify]
  simp [activeOf, same]

end Shared

theorem Check.step_active (catalog : Catalog) (config : PoolConfig) (now : Nat) (model : String) (check : Check)
    (state : AccountState) : (check.step catalog config now model state).1.active = state.active := by
  cases check <;> rfl

theorem Report.step_active (config : PoolConfig) (now : Nat) (report : Report) (state : AccountState) :
    (report.step config now state).1.active = state.active := by
  cases report <;> rfl

theorem settleCredits_active (state : AccountState) (actual : Rat) (now : Nat) :
    (state.settleCredits actual now).active = state.active := by
  unfold AccountState.settleCredits
  split
  · rfl
  · split <;> rfl

/-! ### Replacing accounts -/

theorem replaceOne_active (current : List (String × Nat)) (s : Shared × List (String × Nat)) (account : Account)
    (c : Nat) : (Shared.replaceOne current s account).1.activeOf c = s.1.activeOf c := by
  unfold Shared.replaceOne
  cases current.lookup account.id with
  | some cell => exact s.1.activeOf_modify_same cell c (fun _ => rfl)
  | none =>
    simp only [Shared.activeOf]
    rcases Nat.lt_trichotomy c s.1.cells.length with old | new | beyond
    · rw [List.getElem?_append_left old]
    · subst new
      simp [AccountState.new]
    · rw [List.getElem?_eq_none (by simp; omega), List.getElem?_eq_none (by omega)]

theorem replaceAccounts_active (s : Shared) (accounts : List Account) (c : Nat) :
    (s.replaceAccounts accounts).activeOf c = s.activeOf c := by
  apply replaceAccounts_elim (Q := fun t => t.activeOf c = s.activeOf c) rfl
  · intro made account same
    rw [replaceOne_active, same]
  · exact fun _ _ same => same

/-! ### Where a call goes -/

section Next

variable (stage : Stage) (request : Request) (c : Nat)

@[simp] theorem finish_holds (outcome : Outcome) :
    (stage.finish outcome).holds c = (Call.leaving false outcome).holds c := by
  cases stage <;> cases outcome <;> rfl

@[simp] theorem finish_admission (outcome : Outcome) : (stage.finish outcome).admission = stage.overflow := by
  cases stage <;> cases outcome <;> rfl

@[simp] theorem scanned_holds (found : List Nat) : (stage.scanned request found).holds c = false :=
  scanned_elim (Q := fun call => call.holds c = false) rfl rfl fun _ => rfl

@[simp] theorem scanned_admission (found : List Nat) : (stage.scanned request found).admission = stage.overflow := by
  cases stage <;> simp only [Stage.scanned]
  · split <;> rfl
  · rfl
  · rfl

@[simp] theorem missed_holds : (stage.missed request).holds c = false := by
  cases stage <;> rfl

@[simp] theorem missed_admission : (stage.missed request).admission = stage.overflow := by
  cases stage <;> rfl

@[simp] theorem startWait_holds (clock : Nat) (config : PoolConfig) (position : Nat) :
    (startWait clock request config position).holds c = false :=
  startWait_elim (Q := fun call => call.holds c = false) rfl fun _ _ => rfl

@[simp] theorem startWait_admission (clock : Nat) (config : PoolConfig) (position : Nat) :
    (startWait clock request config position).admission = some (overflowing config position) :=
  startWait_elim (Q := fun call => call.admission = some (overflowing config position)) rfl
    fun _ same => congrArg some same

@[simp] theorem poll_holds (s : Shared) (ticket : Ticket) : (poll s request ticket).holds c = false :=
  poll_elim (Q := fun call => call.holds c = false) (fun _ => rfl) rfl

@[simp] theorem poll_admission (s : Shared) (ticket : Ticket) :
    (poll s request ticket).admission = some ticket.overflow :=
  poll_elim (Q := fun call => call.admission = some ticket.overflow) (fun _ => rfl) rfl

@[simp] theorem wake_holds (s : Shared) (ticket : Ticket) (seen : Nat) :
    (wake s request ticket seen).holds c = false :=
  wake_elim (Q := fun call => call.holds c = false) rfl (fun _ => rfl) rfl

@[simp] theorem wake_admission (s : Shared) (ticket : Ticket) (seen : Nat) :
    (wake s request ticket seen).admission = some ticket.overflow :=
  wake_elim (Q := fun call => call.admission = some ticket.overflow) rfl (fun _ => rfl) rfl

@[simp] theorem afterReport_holds (cell : Nat) (report : Report) (next : Option Report) :
    (afterReport cell report next).holds c = false :=
  afterReport_elim (Q := fun call => call.holds c = false) (fun _ _ => rfl) rfl rfl

@[simp] theorem afterReport_admission (cell : Nat) (report : Report) (next : Option Report) :
    (afterReport cell report next).admission = none :=
  afterReport_elim (Q := fun call => call.admission = none) (fun _ _ => rfl) rfl rfl

end Next

/-! ### One access -/

variable {catalog : Catalog} {order : List Nat} {s t : Shared} {call next : Call} {pool after : AccountPool}
  {action : Action}

theorem tryAcquireSlot_some {state taken : AccountState} {maximum : Nat}
    (got : state.tryAcquireSlot maximum = some taken) :
    taken = { state with active := state.active + 1 } ∧ (maximum ≠ 0 → state.active < maximum) := by
  simp only [AccountState.tryAcquireSlot, Option.ite_none_right_eq_some, Option.some.injEq] at got
  obtain ⟨below, rfl⟩ := got
  refine ⟨rfl, ?_⟩
  intro positive
  rwa [if_neg positive] at below

theorem activeOf_taken {s : Shared} {cell maximum : Nat} {state taken : AccountState} (c : Nat)
    (here : s.cells[cell]? = some state) (got : state.tryAcquireSlot maximum = some taken) :
    (s.modify cell fun _ => taken).activeOf c = s.activeOf c + (decide (cell = c)).toNat ∧
      (maximum ≠ 0 → s.activeOf cell < maximum) := by
  obtain ⟨rfl, below⟩ := tryAcquireSlot_some got
  refine ⟨?_, by simpa [Shared.activeOf, here] using below⟩
  rw [Shared.activeOf_modify]
  rcases eq_or_ne cell c with rfl | other
  · simp [Shared.activeOf, here]
  · simp [other]

theorem activeOf_released (s : Shared) (cell c : Nat) (backed : 0 < s.activeOf cell) :
    (s.modify cell AccountState.releaseSlot).activeOf c + (decide (cell = c)).toNat = s.activeOf c := by
  rw [Shared.activeOf_modify]
  rcases eq_or_ne cell c with rfl | other
  · cases here : s.cells[cell]? with
    | none => simp [Shared.activeOf, here] at backed
    | some state =>
      have positive : 0 < state.active := by simpa [Shared.activeOf, here] using backed
      simp [Shared.activeOf, here, AccountState.releaseSlot, Nat.ne_of_gt positive]
      omega
  · simp [other]

theorem Access.slots (access : Access catalog order s call t next) (c : Nat)
    (backed : ∀ cell, call = .leased cell → 0 < s.activeOf cell) :
    t.activeOf c + (call.holds c).toNat = s.activeOf c + (next.holds c).toNat := by
  cases access with
  | taken here got =>
    rw [(activeOf_taken c here got).1, finish_holds]
    rfl
  | @released cell => exact activeOf_released s cell c (backed cell rfl)
  | checked here answer | judged here answer =>
    rw [s.activeOf_modify_same _ c (Check.step_active catalog _ _ _ _)]
    rfl
  | reported here =>
    rw [s.activeOf_modify_same _ c (Report.step_active _ _ _), afterReport_holds]
    rfl
  | unreported =>
    rw [s.activeOf_modify_same _ c (Report.step_active _ _ _)]
    rfl
  | replaced =>
    rw [replaceAccounts_active]
    rfl
  | @left overflow outcome => cases outcome <;> rfl
  | scanned | missed | admitted | polled | woken =>
    simp only [scanned_holds, missed_holds, startWait_holds, poll_holds, wake_holds]
    rfl
  | _ => rfl

theorem Access.queue (access : Access catalog order s call t next) :
    (next.admission = call.admission ∧ t.queued = s.queued) ∨
    (∃ request config, call = .entering request config ∧ next = .admitted request config s.queued ∧
      t.queued = s.queued + 1) ∨
    (call.inside = true ∧ next.admission = none ∧
      t.queued = if s.queued = 0 then 2 ^ 64 - 1 else s.queued - 1) := by
  cases access with
  | entered => exact .inr (.inl ⟨_, _, rfl, rfl, rfl⟩)
  | left => exact .inr (.inr ⟨rfl, finish_admission .probe _, rfl⟩)
  | scanned => exact .inl ⟨scanned_admission _ _ _, rfl⟩
  | missed => exact .inl ⟨missed_admission _ _, rfl⟩
  | taken here got => exact .inl ⟨finish_admission _ _, rfl⟩
  | admitted => exact .inl ⟨startWait_admission _ _ _ _, rfl⟩
  | polled => exact .inl ⟨poll_admission _ _ _, rfl⟩
  | woken => exact .inl ⟨wake_admission _ _ _ _, rfl⟩
  | reported here => exact .inl ⟨afterReport_admission _ _ _, rfl⟩
  | replaced => exact .inl ⟨rfl, (replaceAccounts_rest s _).1⟩
  | _ => exact .inl ⟨rfl, rfl⟩

theorem Access.takes (access : Access catalog order s call t next) {c : Nat} (now : next.holds c = true) :
    call.holds c = true ∨ ∃ stage request maximum rest, call = .picking stage request maximum (c :: rest) ∧
      (maximum ≠ 0 → s.activeOf c < maximum) := by
  cases access with
  | @taken stage request maximum cell rest state taken here got =>
    rw [finish_holds] at now
    obtain rfl : cell = c := by simpa [Call.holds] using now
    exact .inr ⟨stage, request, maximum, rest, rfl, (activeOf_taken cell here got).2⟩
  | @left overflow outcome =>
    rw [finish_holds] at now
    refine .inl ?_
    cases outcome <;> exact now
  | scanned | missed | admitted | polled | woken | reported here => simp at now
  | _ => simp [Call.holds] at now

theorem cancel_holds (call : Call) (c : Nat) : call.cancel.holds c = call.holds c := by
  cases call <;> simp [Call.cancel] <;> rfl

theorem cancel_admission (call : Call) : call.cancel.admission = call.admission := by
  cases call <;> simp [Call.cancel] <;> rfl

/-! ### Whole runs -/

/-- The counters are those of the calls: slots by their leases, positions by the calls inside. -/
structure Counted (pool : AccountPool) : Prop where
  slots : ∀ c, pool.shared.activeOf c = pool.calls.countP (·.holds c)
  queue : pool.shared.queued = pool.calls.countP Call.inside

theorem operation_outside (operation : Operation) :
    (∀ c, operation.call.holds c = false) ∧ operation.call.admission = none := by
  cases operation with
  | acquireScopedExcluding model allowedIds excludedIds =>
    simp only [Operation.call]
    split <;> exact ⟨fun _ => rfl, rfl⟩
  | _ => exact ⟨fun _ => rfl, rfl⟩

variable {i : Nat} {config : PoolConfig}

theorem Counted.backed {pool : AccountPool} (counted : Counted pool) {cell : Nat}
    (here : pool.calls[i]? = some (.leased cell)) : 0 < pool.shared.activeOf cell := by
  rw [counted.slots]
  exact counted_pos here (by simp [Call.holds])

theorem Access.counted (access : Access catalog order pool.shared call t next) (here : pool.calls[i]? = some call)
    (counted : Counted pool) :
    Counted { shared := t, calls := pool.calls.set i next } := by
  constructor
  · intro c
    refine counter_moves here (counted.slots c) (access.slots c ?_)
    rintro cell rfl
    exact counted.backed here
  · refine counter_moves here counted.queue ?_
    rcases access.queue with ⟨same, kept⟩ | ⟨request, config, rfl, rfl, more⟩ | ⟨was, left, less⟩
    · simp only [kept, Call.inside, same]
    · rw [more]
      rfl
    · have positive : 0 < pool.shared.queued := counted.queue ▸ counted_pos here was
      rw [less, if_neg (Nat.ne_of_gt positive), was]
      simp only [Call.inside, left, Option.isSome_none, Bool.toNat_true, Bool.toNat_false]
      omega

theorem Stepped.counted (stepped : Stepped catalog pool action after) (counted : Counted pool) : Counted after := by
  cases stepped with
  | skipped => exact counted
  | @started operation =>
    obtain ⟨free, outside⟩ := operation_outside operation
    constructor
    · intro c
      simp [counted.slots c, free c]
    · simp [counted.queue, Call.inside, outside]
  | advanced here access => exact access.counted here counted
  | cancelled here =>
    constructor
    · intro c
      exact counter_moves here (counted.slots c) (by rw [cancel_holds])
    · exact counter_moves here counted.queue (by simp only [Call.inside, cancel_admission])
  | @settled i actual cell here =>
    refine ⟨?_, counted.queue⟩
    intro c
    rw [pool.shared.activeOf_modify_same cell c (fun state => settleCredits_active state actual _)]
    exact counted.slots c
  | ticked => exact ⟨counted.slots, counted.queue⟩

theorem new_counted (accounts : List Account) (config : PoolConfig) : Counted (.new accounts config) := by
  constructor
  · intro c
    simp only [AccountPool.new, replaceAccounts_active]
    rfl
  · simp only [AccountPool.new, replaceAccounts_rest]
    rfl

/-! ### The bounds -/

def Call.configured (P : PoolConfig → Prop) : Call → Prop
  | .picking _ _ maximum _ => ∃ config, P config ∧ maximum = config.maxConcurrentPerAccount
  | .entering _ config | .admitted _ config _ | .updating config => P config
  | _ => True

structure Configured (P : PoolConfig → Prop) (pool : AccountPool) : Prop where
  shared : P pool.shared.config
  calls : ∀ call ∈ pool.calls, call.configured P

section Configuration

variable {P : PoolConfig → Prop}

theorem Access.configuration (access : Access catalog order s call t next) (shared : P s.config)
    (here : call.configured P) : P t.config ∧ next.configured P := by
  cases access with
  | limited => exact ⟨shared, s.config, shared, rfl⟩
  | full busy => exact ⟨shared, here⟩
  | configured => exact ⟨shared, shared⟩
  | entered => exact ⟨shared, here⟩
  | updated => exact ⟨here, trivial⟩
  | replaced =>
    refine ⟨?_, trivial⟩
    rw [(replaceAccounts_rest s _).2.1]
    exact shared
  | scanned => exact ⟨shared, scanned_elim trivial trivial fun _ => trivial⟩
  | @missed stage => cases stage <;> exact ⟨shared, trivial⟩
  | taken here got => exact ⟨shared, finish_elim (fun _ => trivial) (fun _ _ => trivial) trivial⟩
  | left => exact ⟨shared, finish_elim (fun _ => trivial) (fun _ _ => trivial) trivial⟩
  | admitted => exact ⟨shared, startWait_elim trivial fun _ _ => trivial⟩
  | polled => exact ⟨shared, poll_elim (fun _ => trivial) trivial⟩
  | woken => exact ⟨shared, wake_elim trivial (fun _ => trivial) trivial⟩
  | reported here => exact ⟨shared, afterReport_elim (fun _ _ => trivial) trivial trivial⟩
  | _ => exact ⟨shared, trivial⟩

theorem cancel_configured (call : Call) (here : call.configured P) : call.cancel.configured P := by
  cases call with
  | opening stage request => cases stage <;> trivial
  | scanning stage request rest found => cases stage <;> trivial
  | checking stage request cell check rest found => cases stage <;> trivial
  | _ => exact here

theorem operation_configured (operation : Operation) (new : ∀ config, operation = .updateConfig config → P config) :
    operation.call.configured P := by
  cases operation with
  | acquireScopedExcluding model allowedIds excludedIds =>
    simp only [Operation.call]
    split <;> trivial
  | updateConfig config => exact new config rfl
  | _ => trivial

theorem Stepped.configured (stepped : Stepped catalog pool action after) (before : Configured P pool)
    (new : ∀ config, action = .start (.updateConfig config) → P config) : Configured P after := by
  cases stepped with
  | skipped => exact before
  | @started operation =>
    refine ⟨before.shared, ?_⟩
    intro call member
    rcases List.mem_append.mp member with old | added
    · exact before.calls call old
    · rw [List.mem_singleton.mp added]
      exact operation_configured operation fun config same => new config (by rw [same])
  | @advanced i order call t next here access =>
    obtain ⟨shared, moved⟩ := access.configuration before.shared (before.calls call (List.mem_of_getElem? here))
    exact ⟨shared, all_set before.calls moved⟩
  | @cancelled i call here =>
    have moved := cancel_configured call (before.calls call (List.mem_of_getElem? here))
    exact ⟨before.shared, all_set before.calls moved⟩
  | settled here => exact ⟨before.shared, before.calls⟩
  | ticked => exact ⟨before.shared, before.calls⟩

theorem new_configured (accounts : List Account) (start : P config) :
    Configured P (.new accounts config) := by
  refine ⟨?_, by simp [AccountPool.new]⟩
  simp only [AccountPool.new, replaceAccounts_rest]
  exact start

end Configuration

theorem Access.active_le (access : Access catalog order s call t next) {c m : Nat}
    (backed : ∀ cell, call = .leased cell → 0 < s.activeOf cell) (positive : 0 < m)
    (limited : call.configured (·.maxConcurrentPerAccount = m)) (below : s.activeOf c ≤ m) : t.activeOf c ≤ m := by
  have paid := access.slots c backed
  cases now : next.holds c with
  | false =>
    rw [now, Bool.toNat_false] at paid
    omega
  | true =>
    rw [now, Bool.toNat_true] at paid
    rcases access.takes now with held | ⟨stage, request, maximum, rest, rfl, room⟩
    · rw [held, Bool.toNat_true] at paid
      omega
    · obtain ⟨config, same, rfl⟩ := limited
      have := room (by omega)
      simp only [Call.holds, Bool.toNat_false] at paid
      omega

/-- The concurrency limit is `m` throughout, and no account is above it. -/
structure Bounded (m : Nat) (pool : AccountPool) : Prop where
  counted : Counted pool
  configured : Configured (·.maxConcurrentPerAccount = m) pool
  active : ∀ c, pool.shared.activeOf c ≤ m

theorem Stepped.bounded {m : Nat} (positive : 0 < m) (stepped : Stepped catalog pool action after)
    (before : Bounded m pool)
    (new : ∀ config, action = .start (.updateConfig config) → config.maxConcurrentPerAccount = m) :
    Bounded m after := by
  refine ⟨stepped.counted before.counted, stepped.configured before.configured new, ?_⟩
  intro c
  cases stepped with
  | @advanced i order call t next here access =>
    refine access.active_le ?_ positive (before.configured.calls call (List.mem_of_getElem? here)) (before.active c)
    rintro cell rfl
    exact before.counted.backed here
  | @settled i actual cell here =>
    rw [pool.shared.activeOf_modify_same cell c (fun state => settleCredits_active state actual _)]
    exact before.active c
  | _ => exact before.active c

/-- With the configuration fixed, the calls that were admitted within the queue fit into it. -/
structure Seated (config : PoolConfig) (pool : AccountPool) : Prop where
  counted : Counted pool
  configured : Configured (· = config) pool
  fits : pool.calls.countP Call.seated ≤ config.maxQueueSize

theorem seated_inside (calls : List Call) : calls.countP Call.seated ≤ calls.countP Call.inside := by
  apply List.countP_mono_left
  intro call _ seated
  simp only [Call.seated, decide_eq_true_eq] at seated
  simp [Call.inside, seated]

theorem Access.seated (access : Access catalog order pool.shared call t next) (here : pool.calls[i]? = some call)
    (before : Seated config pool) :
    (pool.calls.set i next).countP Call.seated ≤ config.maxQueueSize := by
  rcases access.queue with ⟨same, -⟩ | ⟨request, read, rfl, rfl, -⟩ | ⟨-, left, -⟩
  · refine Nat.le_trans (countP_set_le here ?_) before.fits
    intro seated
    simpa [Call.seated, same] using seated
  · -- the position is the number of the calls inside, seated ones among them
    have position : pool.calls.countP Call.seated ≤ pool.shared.queued :=
      before.counted.queue ▸ seated_inside pool.calls
    obtain rfl : read = config := before.configured.calls _ (List.mem_of_getElem? here)
    have balance := countP_set_balance Call.seated (.admitted request read pool.shared.queued) here
    have outside : (Call.entering request read).seated = false := rfl
    rw [outside, Bool.toNat_false, Nat.add_zero] at balance
    rw [balance]
    cases seated : (Call.admitted request read pool.shared.queued).seated with
    | false =>
      rw [Bool.toNat_false, Nat.add_zero]
      exact before.fits
    | true =>
      simp only [Call.seated, Call.admission, overflowing, decide_eq_true_eq, Option.some.injEq, Bool.or_eq_false_iff,
        decide_eq_false_iff_not] at seated
      rw [Bool.toNat_true]
      omega
  · refine Nat.le_trans (countP_set_le here ?_) before.fits
    intro seated
    simp [Call.seated, left] at seated

theorem Stepped.seated (stepped : Stepped catalog pool action after) (before : Seated config pool)
    (new : ∀ next, action = .start (.updateConfig next) → next = config) :
    Seated config after := by
  refine ⟨stepped.counted before.counted, stepped.configured before.configured new, ?_⟩
  cases stepped with
  | @started operation =>
    obtain ⟨-, outside⟩ := operation_outside operation
    have unseated : operation.call.seated = false := by simp [Call.seated, outside]
    simpa [unseated] using before.fits
  | advanced here access => exact access.seated here before
  | cancelled here =>
    refine Nat.le_trans (countP_set_le here ?_) before.fits
    intro seated
    simpa [Call.seated, cancel_admission] using seated
  | _ => exact before.fits

/-- In every run: the counter of an account is the number of the live leases on it, so that no
release finds it at zero; it stays within a concurrency limit that is not changed; with the
configuration fixed, the waiters that were admitted without overflow fit into the queue; and
`queued` is the number of the calls inside of the queue section. -/
theorem slots_exact (catalog : Catalog) (accounts : List Account) (config : PoolConfig) (actions : List Action) :
    (∀ c, (reached catalog accounts config actions).shared.activeOf c =
      (reached catalog accounts config actions).calls.countP (·.holds c)) ∧
    (∀ (i cell : Nat), (reached catalog accounts config actions).calls[i]? = some (.leased cell) →
      0 < (reached catalog accounts config actions).shared.activeOf cell) ∧
    (0 < config.maxConcurrentPerAccount →
      (∀ next, .start (.updateConfig next) ∈ actions → next.maxConcurrentPerAccount = config.maxConcurrentPerAccount) →
      ∀ c, (reached catalog accounts config actions).shared.activeOf c ≤ config.maxConcurrentPerAccount) ∧
    ((∀ next, .start (.updateConfig next) ∈ actions → next = config) →
      (reached catalog accounts config actions).calls.countP Call.seated ≤ config.maxQueueSize) ∧
    (reached catalog accounts config actions).shared.queued =
      (reached catalog accounts config actions).calls.countP Call.inside := by
  have start := new_counted accounts config
  have counted : Counted (reached catalog accounts config actions) :=
    run_always (fun pool action => (step_stepped catalog pool action).counted) actions start
  refine ⟨counted.slots, fun i cell here => counted.backed here, ?_, ?_, counted.queue⟩
  · intro positive unchanged
    have opened : Bounded config.maxConcurrentPerAccount (.new accounts config) := by
      refine ⟨start, new_configured accounts rfl, ?_⟩
      intro c
      rw [start.slots]
      exact Nat.zero_le _
    have bounded : Bounded config.maxConcurrentPerAccount (reached catalog accounts config actions) :=
      run_keeps_mem (fun pool action => (step_stepped catalog pool action).bounded positive)
        (fun action member next same => unchanged next (same ▸ member)) opened
    exact bounded.active
  · intro unchanged
    have opened : Seated config (.new accounts config) :=
      ⟨start, new_configured accounts rfl, Nat.zero_le _⟩
    have seated : Seated config (reached catalog accounts config actions) :=
      run_keeps_mem (fun pool action => (step_stepped catalog pool action).seated)
        (fun action member next same => unchanged next (same ▸ member)) opened
    exact seated.fits

/-- Three requests for one account that serves one at a time, with one seat in the queue: one
has the lease, one waits in its seat, and one waits in overflow. -/
def contended : List Action :=
  (List.replicate 3 (.start (.acquire "" []))) ++ List.replicate 14 (.advance 0 []) ++
    List.replicate 19 (.advance 1 []) ++ List.replicate 19 (.advance 2 [])

def plainAccount (id : String) : Account :=
  { id := id, enabled := true, authMethod := .idc, usage := none, subscription := none, creditExhausted := false }

def anyModel : Catalog := { canResolveDynamicModel := fun _ _ => true, staticSubscriptionCanServe := fun _ _ => true }

def oneSeat : PoolConfig := { maxConcurrentPerAccount := 1, maxQueueSize := 1 }

theorem slots_exact_contended :
    (reached anyModel [plainAccount "a"] oneSeat contended).calls.map (fun call => (call.holds 0, call.admission)) =
      [(true, none), (false, some false), (false, some true)] ∧
    (reached anyModel [plainAccount "a"] oneSeat contended).shared.activeOf 0 ≤ 1 ∧
    (reached anyModel [plainAccount "a"] oneSeat contended).calls.countP Call.seated ≤ 1 := by
  have fixed : ∀ next, .start (.updateConfig next) ∉ contended := by simp [contended]
  obtain ⟨-, -, within, seats, -⟩ := slots_exact anyModel [plainAccount "a"] oneSeat contended
  refine ⟨by decide +kernel, ?_, ?_⟩
  · exact within (by decide) (fun next member => absurd member (fixed next)) 0
  · exact seats fun next member => absurd member (fixed next)

end KiroProxy.Pool

import KiroProxy.Pool.Identity
import KiroProxy.Pool.Slots

/-! Leases over reloads. A slot is counted by the cell of an account, the limit is about its
id; the two agree as long as no account is given a second cell while the first is in use. -/
namespace KiroProxy.Pool

open Run Census

def Call.leaseCell : Call → Option Nat
  | .leased cell | .leaving _ (.lease cell) => some cell
  | _ => none

def Call.cells : Call → List Nat
  | .scanning _ _ rest found => rest ++ found
  | .checking _ _ cell _ rest found => cell :: (rest ++ found)
  | .limiting _ _ found => found
  | .picking _ _ _ rest => rest
  | .leased cell | .leaving _ (.lease cell) => [cell]
  | _ => []

namespace AccountPool

/-- The live leases whose `account_id` is the id. -/
def liveLeases (pool : AccountPool) (id : String) : Nat :=
  pool.calls.countP fun call => call.leaseCell.any fun cell => pool.shared.idOf cell == some id

def orphaned (pool : AccountPool) (account : Account) : Bool :=
  (pool.shared.accounts.lookup account.id).isNone &&
    pool.calls.any fun call => call.cells.any fun cell => pool.shared.idOf cell == some account.id

def undisturbed (pool : AccountPool) : Action → Bool
  | .advance i _ =>
    match pool.calls[i]? with
    | some (.replacing accounts) => !accounts.any pool.orphaned
    | _ => true
  | _ => true

end AccountPool

/-! ### The cells of a call -/

variable {catalog : Catalog} {order : List Nat} {s t : Shared} {call next : Call} {pool after : AccountPool}
  {action : Action}

theorem finish_cells (stage : Stage) (outcome : Outcome) :
    (stage.finish outcome).cells = (Call.leaving false outcome).cells := by
  cases stage <;> cases outcome <;> rfl

theorem cancel_cells (call : Call) (c : Nat) (member : c ∈ call.cancel.cells) : c ∈ call.cells := by
  cases call with
  | opening stage request => rw [Call.cancel, finish_cells] at member; cases member
  | scanning stage request rest found => rw [Call.cancel, finish_cells] at member; cases member
  | checking stage request cell check rest found => rw [Call.cancel, finish_cells] at member; cases member
  | _ => exact member

theorem operation_cells (operation : Operation) : operation.call.cells = [] := by
  cases operation with
  | acquireScopedExcluding model allowedIds excludedIds =>
    simp only [Operation.call]
    split <;> rfl
  | _ => rfl

theorem Access.cells (access : Access catalog order s call t next) {c : Nat} (member : c ∈ next.cells) :
    c ∈ call.cells ∨ ∃ key, (key, c) ∈ s.accounts := by
  cases access with
  | opened =>
    rw [Call.cells, List.append_nil] at member
    obtain ⟨entry, known, rfl⟩ := List.mem_map.mp member
    exact .inr ⟨entry.1, known⟩
  | scanned =>
    refine .inl (scanned_elim (Q := fun call => c ∈ call.cells → c ∈ _) ?_ ?_ ?_ member)
    · exact fun none => absurd none List.not_mem_nil
    · exact fun none => absurd none List.not_mem_nil
    · exact fun _ inside => inside
  | skipped apart => exact .inl (by simp only [Call.cells, List.mem_append, List.mem_cons] at member ⊢; tauto)
  | met => exact .inl (by simp only [Call.cells, List.mem_append, List.mem_cons] at member ⊢; tauto)
  | vanished gone => exact .inl (by simp only [Call.cells, List.mem_append, List.mem_cons] at member ⊢; tauto)
  | checked here answer => exact .inl member
  | @judged stage request cell check eligible rest found state here answer =>
    refine .inl ?_
    simp only [Call.cells, List.mem_append, List.mem_cons] at member ⊢
    split at member
    · simp only [List.mem_append, List.mem_singleton] at member
      tauto
    · tauto
  | limited => exact .inl (mem_ordered.mp member)
  | @missed stage => cases stage <;> cases member
  | full busy => exact .inl (List.mem_cons_of_mem _ member)
  | taken here got =>
    rw [finish_cells] at member
    exact .inl (by simpa [Call.cells] using Or.inl (List.mem_singleton.mp member))
  | @left overflow outcome =>
    rw [finish_cells] at member
    cases outcome <;> exact .inl member
  | admitted => exact absurd member (startWait_elim (Q := fun call => c ∉ call.cells) (by simp [Call.cells])
      fun _ _ => by simp [Call.cells])
  | polled => exact absurd member (poll_elim (Q := fun call => c ∉ call.cells) (fun _ => by simp [Call.cells])
      (by simp [Call.cells]))
  | woken => exact absurd member (wake_elim (Q := fun call => c ∉ call.cells) (by simp [Call.cells])
      (fun _ => by simp [Call.cells]) (by simp [Call.cells]))
  | reported here => exact absurd member (afterReport_elim (Q := fun call => c ∉ call.cells)
      (fun _ _ => by simp [Call.cells]) (by simp [Call.cells]) (by simp [Call.cells]))
  | finished => exact .inl member
  | _ => cases member

/-! ### The map after a replacement -/

/-- An entry of the next map was in the map before, or is that of an account unknown before. -/
def Sourced (s : Shared) (accounts : List Account) (map : List (String × Nat)) : Prop :=
  ∀ key c, (key, c) ∈ map → s.accounts.lookup key = some c ∨
    s.accounts.lookup key = none ∧ ∃ account ∈ accounts, account.id = key

theorem replaceOne_sourced {accounts : List Account} {made : Shared × List (String × Nat)}
    (before : Sourced s accounts made.2) {account : Account} (listed : account ∈ accounts) :
    Sourced s accounts (Shared.replaceOne s.accounts made account).2 := by
  intro key c member
  unfold Shared.replaceOne at member
  cases known : s.accounts.lookup account.id with
  | some cell =>
    rw [known] at member
    obtain new | old := mem_insertIndex member
    · cases new
      exact .inl known
    · exact before key c old
  | none =>
    rw [known] at member
    obtain new | old := mem_insertIndex member
    · cases new
      exact .inr ⟨known, account, listed, rfl⟩
    · exact before key c old

theorem replaceAccounts_sourced (s : Shared) (accounts : List Account) :
    Sourced s accounts (s.replaceAccounts accounts).accounts := by
  have folded : ∀ todo : List Account, (∀ account ∈ todo, account ∈ accounts) → ∀ made : Shared × List (String × Nat),
      Sourced s accounts made.2 → Sourced s accounts (todo.foldl (Shared.replaceOne s.accounts) made).2 := by
    intro todo
    induction todo with
    | nil => exact fun _ made before => before
    | cons account rest ih =>
      intro listed made before
      apply ih
      · exact fun other member => listed other (List.mem_cons_of_mem account member)
      · exact replaceOne_sourced before (listed account List.mem_cons_self)
  exact folded accounts (fun _ member => member) (s, []) fun _ _ none => by cases none

/-! ### One cell for each id -/

def AccountPool.Uses (pool : AccountPool) (c : Nat) : Prop :=
  (∃ key, (key, c) ∈ pool.shared.accounts) ∨ ∃ call ∈ pool.calls, c ∈ call.cells

structure Sole (pool : AccountPool) : Prop where
  mapped : Mapped pool.shared
  named : ∀ c, pool.Uses c → ∃ id, pool.shared.idOf c = some id
  one : ∀ c d id, pool.Uses c → pool.Uses d → pool.shared.idOf c = some id → pool.shared.idOf d = some id → c = d

theorem Sole.of_fewer (sole : Sole pool) (mapped : Mapped after.shared)
    (ids : ∀ c id, pool.shared.idOf c = some id → after.shared.idOf c = some id)
    (fewer : ∀ c, after.Uses c → pool.Uses c) : Sole after := by
  have back : ∀ c id, after.Uses c → after.shared.idOf c = some id → pool.shared.idOf c = some id := by
    intro c id used now
    obtain ⟨old, was⟩ := sole.named c (fewer c used)
    rw [ids c old was] at now
    rw [was, now]
  constructor
  · exact mapped
  · intro c used
    obtain ⟨id, was⟩ := sole.named c (fewer c used)
    exact ⟨id, ids c id was⟩
  · intro c d id c_used d_used c_id d_id
    exact sole.one c d id (fewer c c_used) (fewer d d_used) (back c id c_used c_id) (back d id d_used d_id)

theorem uses_set {i : Nat} {c : Nat} (here : pool.calls[i]? = some call)
    (moved : c ∈ next.cells → c ∈ call.cells ∨ ∃ key, (key, c) ∈ pool.shared.accounts)
    (used : ∃ other ∈ pool.calls.set i next, c ∈ other.cells) : pool.Uses c := by
  obtain ⟨other, member, inside⟩ := used
  rcases List.mem_or_eq_of_mem_set member with old | rfl
  · exact .inr ⟨other, old, inside⟩
  · rcases moved inside with own | known
    · exact .inr ⟨call, List.mem_of_getElem? here, own⟩
    · exact .inl known

theorem replaced_sole {accounts : List Account} (sole : Sole pool) (i : Nat) (free : accounts.any pool.orphaned = false) :
    Sole { shared := pool.shared.replaceAccounts accounts, calls := pool.calls.set i .notifying } := by
  obtain ⟨mapped, ids, -, -⟩ := replaceAccounts_spec sole.mapped accounts
  have held : ∀ c, (∃ other ∈ pool.calls.set i Call.notifying, c ∈ other.cells) →
      ∃ other ∈ pool.calls, c ∈ other.cells := by
    rintro c ⟨other, member, inside⟩
    rcases List.mem_or_eq_of_mem_set member with old | rfl
    · exact ⟨other, old, inside⟩
    · cases inside
  have same : ∀ c id, (∃ other ∈ pool.calls, c ∈ other.cells) →
      (pool.shared.replaceAccounts accounts).idOf c = some id → pool.shared.idOf c = some id := by
    intro c id used now
    obtain ⟨old, was⟩ := sole.named c (.inr used)
    rw [ids c old was] at now
    rw [was, now]
  -- A cell of the next map against a cell of a call: the account is known, or it would be an orphan.
  have mixed : ∀ c d id key, (key, c) ∈ (pool.shared.replaceAccounts accounts).accounts →
      (∃ other ∈ pool.calls, d ∈ other.cells) → (pool.shared.replaceAccounts accounts).idOf c = some id →
      pool.shared.idOf d = some id → c = d := by
    intro c d id key member used c_id d_id
    have own := mapped.ids key c member
    rw [own, Option.some.injEq] at c_id
    subst c_id
    rcases replaceAccounts_sourced pool.shared accounts key c member with known | ⟨unknown, account, listed, rfl⟩
    · have entry := mem_of_lookup known
      exact sole.one c d key (.inl ⟨key, entry⟩) (.inr used) (sole.mapped.ids key c entry) d_id
    · obtain ⟨other, there, inside⟩ := used
      have orphan : pool.orphaned account = true := by
        simp only [AccountPool.orphaned, unknown, Option.isNone_none, Bool.true_and, List.any_eq_true, beq_iff_eq]
        exact ⟨other, there, d, inside, d_id⟩
      exact absurd (List.any_eq_true.mpr ⟨account, listed, orphan⟩) (by simp [free])
  constructor
  · exact mapped
  · rintro c (⟨key, member⟩ | used)
    · exact ⟨key, mapped.ids key c member⟩
    · obtain ⟨id, was⟩ := sole.named c (.inr (held c used))
      exact ⟨id, ids c id was⟩
  · rintro c d id (⟨key, c_member⟩ | c_used) (⟨other, d_member⟩ | d_used) c_id d_id
    · exact mapped.one_cell c_member d_member c_id d_id
    · exact mixed c d id key c_member (held d d_used) c_id (same d id (held d d_used) d_id)
    · exact (mixed d c id other d_member (held c c_used) d_id (same c id (held c c_used) c_id)).symm
    · exact sole.one c d id (.inr (held c c_used)) (.inr (held d d_used)) (same c id (held c c_used) c_id)
        (same d id (held d d_used) d_id)

theorem Stepped.sole (stepped : Stepped catalog pool action after) (sole : Sole pool)
    (free : pool.undisturbed action = true) : Sole after := by
  have mapped := stepped.mapped sole.mapped
  cases stepped with
  | skipped => exact sole
  | @started operation =>
    refine sole.of_fewer mapped (fun _ _ was => was) ?_
    rintro c (known | ⟨call, member, inside⟩)
    · exact .inl known
    · rcases List.mem_append.mp member with old | new
      · exact .inr ⟨call, old, inside⟩
      · rw [List.mem_singleton.mp new, operation_cells] at inside
        cases inside
  | @advanced i order call t next here access =>
    by_cases replacing : ∃ accounts, call = .replacing accounts
    · obtain ⟨accounts, rfl⟩ := replacing
      cases access with
      | replaced =>
        simp only [AccountPool.undisturbed, here, Bool.not_eq_true'] at free
        exact replaced_sole sole i free
    · have same : t.accounts = pool.shared.accounts := by
        cases access with
        | replaced => exact absurd ⟨_, rfl⟩ replacing
        | _ => rfl
      refine sole.of_fewer mapped (fun c id was => access.idOf sole.mapped was) ?_
      rintro c (known | used)
      · dsimp only at known
        rw [same] at known
        exact .inl known
      · exact uses_set here access.cells used
  | @cancelled i call here =>
    refine sole.of_fewer mapped (fun _ _ was => was) ?_
    rintro c (known | used)
    · exact .inl known
    · exact uses_set here (fun inside => .inl (cancel_cells call c inside)) used
  | @settled i actual cell here =>
    refine sole.of_fewer mapped (fun c id was => ?_) (fun c used => used)
    dsimp only
    rw [pool.shared.idOf_modify cell c (fun state => settleCredits_id state actual _)]
    exact was
  | ticked => exact sole.of_fewer mapped (fun _ _ was => was) fun c used => used

theorem new_sole (accounts : List Account) (config : PoolConfig) : Sole (.new accounts config) := by
  have mapped := new_mapped accounts config
  have listed : ∀ c, (AccountPool.new accounts config).Uses c → ∃ key, (key, c) ∈ (AccountPool.new accounts config).shared.accounts := by
    rintro c (known | ⟨call, none, -⟩)
    · exact known
    · cases none
  constructor
  · exact mapped
  · intro c used
    obtain ⟨key, member⟩ := listed c used
    exact ⟨key, mapped.ids key c member⟩
  · intro c d id c_used d_used c_id d_id
    obtain ⟨key, c_member⟩ := listed c c_used
    obtain ⟨other, d_member⟩ := listed d d_used
    exact mapped.one_cell c_member d_member c_id d_id

/-! ### Leases of an id -/

theorem leaseCell_cells {c : Nat} (leased : call.leaseCell = some c) : c ∈ call.cells ∧ call.holds c = true := by
  cases call with
  | leased cell =>
    cases leased
    exact ⟨List.mem_singleton_self c, by simp [Call.holds]⟩
  | leaving overflow outcome =>
    cases outcome with
    | lease cell =>
      cases leased
      exact ⟨List.mem_singleton_self c, by simp [Call.holds]⟩
    | _ => cases leased
  | _ => cases leased

theorem Sole.liveLeases_le (sole : Sole pool) (id : String) {m : Nat}
    (bounded : ∀ c, pool.calls.countP (·.holds c) ≤ m) : pool.liveLeases id ≤ m := by
  by_cases some_lease : ∃ call ∈ pool.calls, ∃ c, call.leaseCell = some c ∧ pool.shared.idOf c = some id
  · obtain ⟨call, member, c, leased, named⟩ := some_lease
    have used : pool.Uses c := .inr ⟨call, member, (leaseCell_cells leased).1⟩
    refine Nat.le_trans (List.countP_mono_left ?_) (bounded c)
    intro other there counted
    rw [Option.any_eq_true] at counted
    obtain ⟨d, other_leased, other_named⟩ := counted
    obtain ⟨inside, holds⟩ := leaseCell_cells other_leased
    obtain rfl := sole.one c d id used (.inr ⟨other, there, inside⟩) named (by simpa using other_named)
    exact holds
  · have none : pool.liveLeases id = 0 := by
      refine List.countP_eq_zero.mpr ?_
      intro call member counted
      rw [Option.any_eq_true] at counted
      obtain ⟨c, leased, named⟩ := counted
      exact some_lease ⟨call, member, c, leased, by simpa using named⟩
    omega

/-- In every run in which no account comes back while a call has its former cell, the live
leases of an id stay within a concurrency limit that is not changed. -/
theorem leases_within_limit (catalog : Catalog) (accounts : List Account) (config : PoolConfig) (actions : List Action)
    (positive : 0 < config.maxConcurrentPerAccount)
    (unchanged : ∀ next, .start (.updateConfig next) ∈ actions →
      next.maxConcurrentPerAccount = config.maxConcurrentPerAccount)
    (along : Along (step catalog) (fun pool action => pool.undisturbed action = true) (.new accounts config) actions)
    (id : String) :
    (reached catalog accounts config actions).liveLeases id ≤ config.maxConcurrentPerAccount := by
  have sole : Sole (reached catalog accounts config actions) :=
    run_keeps (fun pool action => (step_stepped catalog pool action).sole) along (new_sole accounts config)
  have start := new_counted accounts config
  have opened : Bounded config.maxConcurrentPerAccount (.new accounts config) := by
    refine ⟨start, new_configured accounts rfl, ?_⟩
    intro c
    rw [start.slots]
    exact Nat.zero_le _
  have bounded : Bounded config.maxConcurrentPerAccount (reached catalog accounts config actions) :=
    run_keeps_mem (fun pool action => (step_stepped catalog pool action).bounded positive)
      (fun action member next same => unchanged next (same ▸ member)) opened
  refine sole.liveLeases_le id ?_
  intro c
  rw [← bounded.counted.slots c]
  exact bounded.active c

/-- A lease on an account that stays over a reload, and a request that waits for it. -/
def reloaded : List Action :=
  [.start (.acquire "" []), .start (.replaceAccounts [plainAccount "a"]), .start (.acquire "" [])] ++
    List.replicate 14 (.advance 0 []) ++ [.advance 1 []] ++ List.replicate 14 (.advance 2 [])

theorem leases_within_limit_reloaded :
    (reached anyModel [plainAccount "a"] oneSeat reloaded).liveLeases "a" ≤ 1 :=
  leases_within_limit anyModel [plainAccount "a"] oneSeat reloaded (by decide) (by simp [reloaded])
    (by decide) "a"

def returned : List Action :=
  [.start (.acquire "" []), .start (.replaceAccounts []), .start (.replaceAccounts [plainAccount "a"]),
    .start (.acquire "" [])] ++
    List.replicate 14 (.advance 0 []) ++ [.advance 1 [], .advance 2 []] ++ List.replicate 14 (.advance 3 [])

theorem limit_exceeded_returned :
    (∀ next, .start (.updateConfig next) ∉ returned) ∧ oneSeat.maxConcurrentPerAccount = 1 ∧
      (reached anyModel [plainAccount "a"] oneSeat returned).liveLeases "a" = 2 := by
  refine ⟨by simp [returned], rfl, ?_⟩
  decide

end KiroProxy.Pool

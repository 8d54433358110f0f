import KiroProxy.Lib.Lookup
import KiroProxy.Pool.Access

/-! Which cell belongs to which account: a cell keeps its id for good, and the map leads from
an id to a cell of that id. -/
namespace KiroProxy.Pool

open Run

namespace Shared

def idOf (s : Shared) (c : Nat) : Option String := s.cells[c]?.map (·.account.id)

def healthOf (s : Shared) (c : Nat) : Option AccountHealth := s.cells[c]?.map (·.health)

theorem cells_modify (s : Shared) (cell c : Nat) (f : AccountState → AccountState) :
    (s.modify cell f).cells[c]? = if cell = c then s.cells[c]?.map f else s.cells[c]? := by
  unfold modify
  rw [List.getElem?_modify]
  rcases eq_or_ne cell c with rfl | other
  · simp
  · simp [other]

theorem idOf_modify (s : Shared) (cell c : Nat) {f : AccountState → AccountState}
    (same : ∀ state, (f state).account.id = state.account.id) : (s.modify cell f).idOf c = s.idOf c := by
  unfold idOf
  rw [cells_modify]
  split <;> simp [Function.comp_def, same]

theorem healthOf_modify (s : Shared) (cell c : Nat) {f : AccountState → AccountState}
    (same : ∀ state, (f state).health = state.health) : (s.modify cell f).healthOf c = s.healthOf c := by
  unfold healthOf
  rw [cells_modify]
  split <;> simp [Function.comp_def, same]

end Shared

theorem Check.step_id (catalog : Catalog) (config : PoolConfig) (now : Nat) (model : String) (check : Check)
    (state : AccountState) : (check.step catalog config now model state).1.account.id = state.account.id := by
  cases check <;> rfl

theorem Report.step_id (config : PoolConfig) (now : Nat) (report : Report) (state : AccountState) :
    (report.step config now state).1.account.id = state.account.id := by
  cases report <;> rfl

theorem settleCredits_id (state : AccountState) (actual : Rat) (now : Nat) :
    (state.settleCredits actual now).account.id = state.account.id := by
  unfold AccountState.settleCredits
  split
  · rfl
  · split <;> rfl

theorem settleCredits_health (state : AccountState) (actual : Rat) (now : Nat) :
    (state.settleCredits actual now).health = state.health := by
  unfold AccountState.settleCredits
  split
  · rfl
  · split <;> rfl

theorem tryAcquireSlot_account {state taken : AccountState} {maximum : Nat}
    (got : state.tryAcquireSlot maximum = some taken) :
    taken.account = state.account ∧ taken.health = state.health := by
  simp only [AccountState.tryAcquireSlot, Option.ite_none_right_eq_some, Option.some.injEq] at got
  obtain ⟨-, rfl⟩ := got
  exact ⟨rfl, rfl⟩

/-! ### The map -/

variable {map : List (String × Nat)} {id key : String} {c : Nat}

theorem mem_insertIndex {cell : Nat} (member : (key, c) ∈ insertIndex map id cell) :
    (key, c) = (id, cell) ∨ (key, c) ∈ map := by
  unfold insertIndex at member
  split at member
  · obtain ⟨entry, old, same⟩ := List.mem_map.mp member
    split at same
    · exact .inl same.symm
    · exact .inr (same ▸ old)
  · rcases List.mem_append.mp member with old | new
    · exact .inr old
    · exact .inl (List.mem_singleton.mp new)

theorem insertIndex_self (map : List (String × Nat)) (id : String) (cell : Nat) :
    (id, cell) ∈ insertIndex map id cell := by
  unfold insertIndex
  split
  case isTrue known =>
    obtain ⟨entry, member, same⟩ := List.any_eq_true.mp known
    exact List.mem_map.mpr ⟨entry, member, by simpa using fun other => absurd (by simpa using same) other⟩
  case isFalse => simp

theorem insertIndex_other {cell : Nat} (other : key ≠ id) (member : (key, c) ∈ map) :
    (key, c) ∈ insertIndex map id cell := by
  unfold insertIndex
  split
  · exact List.mem_map.mpr ⟨(key, c), member, by simp [other]⟩
  · exact List.mem_append.mpr (.inl member)

theorem insertIndex_keys (keys : (map.map Prod.fst).Nodup) (id : String) (cell : Nat) :
    ((insertIndex map id cell).map Prod.fst).Nodup := by
  unfold insertIndex
  split
  · have same : (map.map fun entry => if entry.1 = id then (id, cell) else entry).map Prod.fst = map.map Prod.fst := by
      rw [List.map_map]
      apply List.map_congr_left
      intro entry _
      simp only [Function.comp]
      split
      case isTrue known => exact known.symm
      case isFalse => rfl
    rw [same]
    exact keys
  case isFalse new =>
    rw [List.map_append]
    refine List.nodup_append.mpr ⟨keys, by simp, ?_⟩
    rintro key member other here rfl
    obtain ⟨entry, old, rfl⟩ := List.mem_map.mp member
    refine new (List.any_eq_true.mpr ⟨entry, old, ?_⟩)
    simpa using here

/-- The map of the accounts is a map, and it leads to cells of the right ids. -/
structure Mapped (s : Shared) : Prop where
  keys : (s.accounts.map Prod.fst).Nodup
  ids : ∀ key cell, (key, cell) ∈ s.accounts → s.idOf cell = some key

structure Replaced (s : Shared) (made : Shared × List (String × Nat)) : Prop where
  ids : ∀ c id, s.idOf c = some id → made.1.idOf c = some id
  health : ∀ c health, s.healthOf c = some health → made.1.healthOf c = some health
  keys : (made.2.map Prod.fst).Nodup
  mapped : ∀ key cell, (key, cell) ∈ made.2 → made.1.idOf cell = some key
  kept : ∀ key cell c, s.accounts.lookup key = some cell → (key, c) ∈ made.2 → c = cell

theorem cells_append_new {s : Shared} {account : Account} {state : AccountState} (here : s.cells[c]? = some state) :
    (s.cells ++ [AccountState.new account])[c]? = some state := by
  have inside : c < s.cells.length := (List.getElem?_eq_some_iff.mp here).1
  rw [List.getElem?_append_left inside, here]

theorem replaceOne_replaced {s : Shared} (mapped : Mapped s) {made : Shared × List (String × Nat)}
    (before : Replaced s made) (account : Account) :
    Replaced s (Shared.replaceOne s.accounts made account) ∧
      ∃ cell, (account.id, cell) ∈ (Shared.replaceOne s.accounts made account).2 := by
  unfold Shared.replaceOne
  cases known : s.accounts.lookup account.id with
  | some cell =>
    refine ⟨?_, cell, insertIndex_self _ _ _⟩
    have own : made.1.idOf cell = some account.id :=
      before.ids cell account.id (mapped.ids account.id cell (mem_of_lookup known))
    have ids : ∀ c, (made.1.modify cell fun state => { state with account := account }).idOf c = made.1.idOf c := by
      intro c
      unfold Shared.idOf at own ⊢
      rw [Shared.cells_modify]
      rcases eq_or_ne cell c with rfl | other
      · simp only [if_true, Option.map_map]
        cases here : made.1.cells[cell]? with
        | none => simp
        | some state => simpa [here] using own.symm
      · simp [other]
    have health := fun c => made.1.healthOf_modify cell c (f := fun state => { state with account := account })
      (fun _ => rfl)
    constructor
    · intro c id was
      rw [ids, before.ids c id was]
    · intro c state was
      rw [health, before.health c state was]
    · exact insertIndex_keys before.keys _ _
    · intro key c member
      rw [ids]
      rcases mem_insertIndex member with new | old
      · cases new
        exact own
      · exact before.mapped key c old
    · intro key found c same member
      rcases mem_insertIndex member with new | old
      · cases new
        rw [known, Option.some.injEq] at same
        exact same
      · exact before.kept key found c same old
  | none =>
    refine ⟨?_, made.1.cells.length, insertIndex_self _ _ _⟩
    have ids : ∀ c id, made.1.idOf c = some id →
        ({ made.1 with cells := made.1.cells ++ [.new account] } : Shared).idOf c = some id := by
      intro c id was
      obtain ⟨state, here, rfl⟩ := Option.map_eq_some_iff.mp was
      simp only [Shared.idOf, cells_append_new here, Option.map_some]
    constructor
    · intro c id was
      exact ids c id (before.ids c id was)
    · intro c health was
      obtain ⟨state, here, rfl⟩ := Option.map_eq_some_iff.mp (before.health c health was)
      simp only [Shared.healthOf, cells_append_new here, Option.map_some]
    · exact insertIndex_keys before.keys _ _
    · intro key c member
      rcases mem_insertIndex member with new | old
      · cases new
        simp [Shared.idOf, AccountState.new]
      · exact ids c key (before.mapped key c old)
    · intro key found c same member
      rcases mem_insertIndex member with new | old
      · cases new
        rw [known] at same
        cases same
      · exact before.kept key found c same old

theorem replaceOne_present {current : List (String × Nat)} {made : Shared × List (String × Nat)}
    (present : ∃ cell, (key, cell) ∈ made.2) (account : Account) :
    ∃ cell, (key, cell) ∈ (Shared.replaceOne current made account).2 := by
  obtain ⟨c, member⟩ := present
  unfold Shared.replaceOne
  rcases eq_or_ne key account.id with rfl | other
  · cases current.lookup account.id <;> exact ⟨_, insertIndex_self _ _ _⟩
  · cases current.lookup account.id <;> exact ⟨c, insertIndex_other other member⟩

theorem replaceFold {s : Shared} (mapped : Mapped s) (accounts : List Account) :
    ∀ made, Replaced s made → Replaced s (accounts.foldl (Shared.replaceOne s.accounts) made) ∧
      ∀ key, ((∃ cell, (key, cell) ∈ made.2) ∨ ∃ account ∈ accounts, account.id = key) →
        ∃ cell, (key, cell) ∈ (accounts.foldl (Shared.replaceOne s.accounts) made).2 := by
  induction accounts with
  | nil => exact fun made before => ⟨before, fun key present => by simpa using present⟩
  | cons account rest ih =>
    intro made before
    obtain ⟨one, added⟩ := replaceOne_replaced mapped before account
    obtain ⟨all, present⟩ := ih _ one
    refine ⟨all, ?_⟩
    rintro key (old | ⟨new, member, rfl⟩)
    · exact present key (.inl (replaceOne_present old account))
    · rcases List.mem_cons.mp member with rfl | later
      · exact present _ (.inl added)
      · exact present _ (.inr ⟨new, later, rfl⟩)

theorem replaced_start (s : Shared) : Replaced s (s, []) :=
  ⟨fun _ _ was => was, fun _ _ was => was, List.nodup_nil, fun _ _ member => by simp at member,
    fun _ _ _ _ member => by simp at member⟩

theorem replaceAccounts_spec {s : Shared} (mapped : Mapped s) (accounts : List Account) :
    Mapped (s.replaceAccounts accounts) ∧
    (∀ c id, s.idOf c = some id → (s.replaceAccounts accounts).idOf c = some id) ∧
    (∀ c health, s.healthOf c = some health → (s.replaceAccounts accounts).healthOf c = some health) ∧
    ∀ key cell, s.accounts.lookup key = some cell → (∃ account ∈ accounts, account.id = key) →
      (s.replaceAccounts accounts).accounts.lookup key = some cell := by
  obtain ⟨made, present⟩ := replaceFold mapped accounts (s, []) (replaced_start s)
  refine ⟨⟨made.keys, made.mapped⟩, made.ids, made.health, ?_⟩
  intro key cell known stays
  obtain ⟨c, member⟩ := present key (.inr stays)
  obtain rfl := made.kept key cell c known member
  exact lookup_of_mem made.keys member

/-! ### What an access does to the cells -/

variable {catalog : Catalog} {order : List Nat} {s t : Shared} {call next : Call}

theorem Access.idOf (access : Access catalog order s call t next) (mapped : Mapped s) (was : s.idOf c = some id) :
    t.idOf c = some id := by
  cases access with
  | checked here answer | judged here answer => rwa [s.idOf_modify _ c (Check.step_id catalog _ _ _ _)]
  | @taken stage request maximum cell rest state taken here got =>
    obtain ⟨account, -⟩ := tryAcquireSlot_account got
    unfold Shared.idOf at was ⊢
    rw [Shared.cells_modify]
    rcases eq_or_ne cell c with rfl | other
    · simpa [here, account] using was
    · simpa [other] using was
  | released => rwa [s.idOf_modify (f := AccountState.releaseSlot) _ c (fun _ => rfl)]
  | reported here => rwa [s.idOf_modify _ c (Report.step_id _ _ _)]
  | unreported => rwa [s.idOf_modify _ c (Report.step_id _ _ _)]
  | replaced => exact (replaceAccounts_spec mapped _).2.1 c id was
  | _ => exact was

theorem Access.mapped (access : Access catalog order s call t next) (mapped : Mapped s) : Mapped t := by
  have ids : ∀ key cell, (key, cell) ∈ s.accounts → t.idOf cell = some key :=
    fun key cell member => access.idOf mapped (mapped.ids key cell member)
  cases access with
  | replaced => exact (replaceAccounts_spec mapped _).1
  | _ => exact ⟨mapped.keys, ids⟩

theorem settle_mapped {s : Shared} (mapped : Mapped s) (cell : Nat) (actual : Rat) (now : Nat) :
    Mapped (s.modify cell (·.settleCredits actual now)) := by
  refine ⟨mapped.keys, ?_⟩
  intro key c member
  rw [s.idOf_modify cell c (fun state => settleCredits_id state actual now)]
  exact mapped.ids key c member

theorem Stepped.mapped {pool after : AccountPool} {action : Action} (stepped : Stepped catalog pool action after)
    (mapped : Mapped pool.shared) : Mapped after.shared := by
  cases stepped with
  | advanced here access => exact access.mapped mapped
  | settled here => exact settle_mapped mapped _ _ _
  | ticked => exact ⟨mapped.keys, mapped.ids⟩
  | _ => exact mapped

theorem new_mapped (accounts : List Account) (config : PoolConfig) : Mapped (AccountPool.new accounts config).shared := by
  have empty : Mapped { cells := [], accounts := [], config := config } :=
    ⟨List.nodup_nil, fun _ _ member => by simp at member⟩
  exact (replaceAccounts_spec empty accounts).1

theorem reached_mapped (catalog : Catalog) (accounts : List Account) (config : PoolConfig) (actions : List Action) :
    Mapped (reached catalog accounts config actions).shared :=
  run_always (P := fun pool : AccountPool => Mapped pool.shared)
    (fun pool action => (step_stepped catalog pool action).mapped) actions (new_mapped accounts config)

theorem Mapped.one_cell {s : Shared} (mapped : Mapped s) {other : String} {d : Nat} (c_member : (key, c) ∈ s.accounts)
    (d_member : (other, d) ∈ s.accounts) (c_id : s.idOf c = some id) (d_id : s.idOf d = some id) : c = d := by
  rw [mapped.ids key c c_member, Option.some.injEq] at c_id
  rw [mapped.ids other d d_member, Option.some.injEq] at d_id
  subst c_id
  subst d_id
  have found := lookup_of_mem mapped.keys c_member
  rw [lookup_of_mem mapped.keys d_member, Option.some.injEq] at found
  exact found.symm

end KiroProxy.Pool

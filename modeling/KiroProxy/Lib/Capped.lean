import KiroProxy.Lib.Table
import Mathlib.Algebra.BigOperators.Group.List.Basic

/-! Tables with a limited number of keys: what finds no room under its own key goes to one key that
stands for the rest. The weight of a table is a sum over its values. -/
namespace KiroProxy.Capped

variable {κ ν M : Type} [DecidableEq κ] {maximum : Nat} {rest key : κ} {fresh value : ν} {f : ν → ν}
  {table : Table κ ν}

def slot (maximum : Nat) (rest key : κ) (table : Table κ ν) : κ :=
  if (table.get? key).isSome ∨ (key ≠ rest ∧ table.size < max maximum 2 - 1) then key else rest

def alter (maximum : Nat) (rest : κ) (fresh : ν) (key : κ) (f : ν → ν) (table : Table κ ν) : Table κ ν :=
  let kept := slot maximum rest key table
  table.insert kept (f ((table.get? kept).getD fresh))

def mergeAll (maximum : Nat) (rest : κ) (fresh : ν) (merge : ν → ν → ν) (entries : List (κ × ν)) (table : Table κ ν) :
    Table κ ν :=
  entries.foldl (fun table entry => alter maximum rest fresh entry.1 (merge · entry.2) table) table

/-! ### The number of keys -/

theorem erase_absent (absent : table.get? key = none) : (table.erase key).entries = table.entries := by
  refine List.filter_eq_self.mpr fun entry member => decide_eq_true fun same => ?_
  have here : table.get? entry.1 = some entry.2 := Table.mem_entries.mp member
  rw [same, absent] at here
  cases here

theorem perm_erase (here : table.get? key = some value) :
    table.entries.Perm ((key, value) :: (table.erase key).entries) := by
  have member : (key, value) ∈ table.entries := Table.mem_entries.mpr here
  have distinct : table.entries.Nodup := table.distinct.of_map Prod.fst
  refine (List.perm_ext_iff_of_nodup distinct ?_).mpr fun entry => ?_
  · refine List.nodup_cons.mpr ⟨fun again => ?_, (table.erase key).distinct.of_map Prod.fst⟩
    have gone : (table.erase key).get? key = some value := Table.mem_entries.mp again
    simp at gone
  · rw [List.mem_cons]
    constructor
    · intro inside
      by_cases same : entry.1 = key
      · left
        have found : table.get? entry.1 = some entry.2 := Table.mem_entries.mp inside
        rw [same, here] at found
        exact Prod.ext same (Option.some.inj found).symm
      · exact .inr (List.mem_filter.mpr ⟨inside, decide_eq_true same⟩)
    · rintro (rfl | inside)
      · exact member
      · exact (List.mem_filter.mp inside).1

theorem size_insert : (table.insert key value).size =
    if (table.get? key).isSome then table.size else table.size + 1 := by
  show (table.erase key).size + 1 = _
  cases here : table.get? key with
  | none => exact congrArg (·.length + 1) (erase_absent here)
  | some old => exact (perm_erase here).length_eq.symm

structure Fits (maximum : Nat) (rest : κ) (table : Table κ ν) : Prop where
  size : table.size ≤ max maximum 2
  room : table.get? rest = none → table.size ≤ max maximum 2 - 1

theorem fits_empty : Fits maximum rest (∅ : Table κ ν) := ⟨Nat.zero_le _, fun _ => Nat.zero_le _⟩

theorem fits_alter (fits : Fits maximum rest table) : Fits maximum rest (alter maximum rest fresh key f table) := by
  have size := fits.size
  have room := fits.room
  unfold alter slot
  dsimp only
  split
  · rename_i place
    constructor
    · rw [size_insert]
      split
      · exact size
      · rename_i absent
        have small := (place.resolve_left absent).2
        omega
    · intro unrest
      rw [size_insert]
      rw [Table.get?_insert] at unrest
      split at unrest
      · cases unrest
      · split
        · exact room unrest
        · rename_i absent
          have small := (place.resolve_left absent).2
          omega
  · constructor
    · rw [size_insert]
      split
      · exact size
      · rename_i absent
        have small := room (Option.not_isSome_iff_eq_none.mp absent)
        omega
    · intro unrest
      rw [Table.get?_insert, if_pos rfl] at unrest
      cases unrest

theorem fits_mergeAll {merge : ν → ν → ν} (entries : List (κ × ν)) (fits : Fits maximum rest table) :
    Fits maximum rest (mergeAll maximum rest fresh merge entries table) := by
  induction entries generalizing table with
  | nil => exact fits
  | cons entry others ih => exact ih (fits_alter fits)

/-! ### The weight -/

section Weight

variable [AddCommMonoid M] {g : ν → M}

def weight (g : ν → M) (table : Table κ ν) : M := (table.entries.map fun entry => g entry.2).sum

omit [DecidableEq κ] in
@[simp] theorem weight_empty : weight g (∅ : Table κ ν) = 0 := rfl

theorem weight_insert : weight g (table.insert key value) = g value + weight g (table.erase key) := List.sum_cons

theorem weight_erase (none_weight : g fresh = 0) :
    g ((table.get? key).getD fresh) + weight g (table.erase key) = weight g table := by
  cases here : table.get? key with
  | none => rw [Option.getD_none, none_weight, zero_add, weight, weight, erase_absent here]
  | some old => exact (((perm_erase here).map fun entry => g entry.2).sum_eq.trans List.sum_cons).symm

theorem weight_alter {x : M} (none_weight : g fresh = 0) (grows : ∀ value, g (f value) = g value + x) :
    weight g (alter maximum rest fresh key f table) = weight g table + x := by
  unfold alter
  dsimp only
  rw [weight_insert, grows, add_right_comm, weight_erase none_weight]

theorem weight_mergeAll {merge : ν → ν → ν} (none_weight : g fresh = 0)
    (grows : ∀ value other, g (merge value other) = g value + g other) (entries : List (κ × ν)) :
    weight g (mergeAll maximum rest fresh merge entries table) =
      weight g table + (entries.map fun entry => g entry.2).sum := by
  induction entries generalizing table with
  | nil => exact (add_zero _).symm
  | cons entry others ih =>
    refine ih.trans ?_
    rw [weight_alter none_weight (fun value => grows value entry.2), List.map_cons, List.sum_cons, add_assoc]

end Weight

end KiroProxy.Capped

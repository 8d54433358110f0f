import Mathlib.Data.List.Find
import Mathlib.Data.List.Nodup
import Mathlib.Data.List.Count
import Mathlib.Logic.Function.Basic
import Mathlib.Algebra.BigOperators.Group.List.Basic

/-! Entries of a list under their positions: index queues, first matches, occurrence counts. -/
namespace KiroProxy.Indexed

def indicesOf {α : Type} (xs : List α) (p : α → Bool) : List Nat :=
  (xs.zipIdx.filter (fun x => p x.1)).map Prod.snd

variable {α β κ : Type}

theorem indicesOf_snoc (xs : List α) (x : α) (p : α → Bool) :
    indicesOf (xs ++ [x]) p = indicesOf xs p ++ if p x then [xs.length] else [] := by
  simp only [indicesOf, List.zipIdx_append, List.filter_append, List.map_append]
  by_cases hit : p x <;> simp [hit]

theorem find_indicesOf (xs : List α) (p r : α → Bool) (q : Nat → Bool) (agree : ∀ x ∈ xs.zipIdx, q x.2 = r x.1) :
    (indicesOf xs p).find? q = (xs.zipIdx.find? (fun x => p x.1 && r x.1)).map Prod.snd := by
  rw [indicesOf, List.find?_map, List.find?_filter]
  congr 1
  apply List.find?_congr
  intro x hx
  rw [Function.comp, agree x hx]
  cases p x.1 <;> cases r x.1 <;> rfl

theorem head_dropWhile (xs : List α) (p : α → Bool) :
    (xs.dropWhile (fun x => !p x)).head? = xs.find? p := by
  induction xs with
  | nil => rfl
  | cons x xs ih => cases hit : p x <;> simp [hit, ih]

theorem foldl_count [DecidableEq κ] (keys : List κ) (start : κ → Nat) (k : κ) :
    keys.foldl (fun counts key => Function.update counts key (counts key + 1)) start k =
      start k + keys.count k := by
  induction keys generalizing start with
  | nil => simp
  | cons key rest ih =>
    rw [List.foldl_cons, ih]
    by_cases same : key = k
    · subst same
      simp; omega
    · simp [Function.update_of_ne (Ne.symm same), List.count_cons_of_ne same]

theorem nodup_of_count [DecidableEq κ] (xs : List α) (key : α → κ) (p : α → Bool)
    (once : ∀ x ∈ xs, p x = true → (xs.map key).count (key x) ≤ 1) :
    ((xs.filter p).map key).Nodup := by
  rw [List.nodup_iff_count_le_one]
  intro k
  by_cases present : k ∈ (xs.filter p).map key
  · obtain ⟨x, hx, rfl⟩ := List.mem_map.mp present
    rw [List.mem_filter] at hx
    have sub : ((xs.filter p).map key).Sublist (xs.map key) := List.filter_sublist.map key
    exact (sub.count_le (key x)).trans (once x hx.1 hx.2)
  · simp [List.count_eq_zero_of_not_mem present]

theorem entry_of_key (xs : List α) (key : α → κ) (distinct : (xs.map key).Nodup) {x y : α × Nat} (hx : x ∈ xs.zipIdx)
    (hy : y ∈ xs.zipIdx) (same : key x.1 = key y.1) : x = y := by
  rw [List.mem_zipIdx_iff_getElem?] at hx hy
  have lx : (xs.map key)[x.2]? = some (key x.1) := by simp [hx]
  have ly : (xs.map key)[y.2]? = some (key x.1) := by simp [hy, same]
  have bound : x.2 < (xs.map key).length := by
    by_contra h
    rw [List.getElem?_eq_none (Nat.le_of_not_lt h)] at lx
    cases lx
  have place : x.2 = y.2 := (List.getElem?_inj bound distinct).mp (lx.trans ly.symm)
  rw [place, hy] at hx
  exact Prod.ext (Option.some.inj hx).symm place

theorem flatMap_mapIdx {γ : Type} (xs : List α) (f : Nat → α → β) (g : β → List γ) (h : α → List γ)
    (same : ∀ n x, g (f n x) = h x) :
    (xs.mapIdx f).flatMap g = xs.flatMap h := by
  induction xs generalizing f with
  | nil => rfl
  | cons x rest ih =>
    rw [List.mapIdx_cons, List.flatMap_cons, List.flatMap_cons, same, ih _ (fun n => same (n + 1))]

theorem sum_eraseIdx {M : Type} [AddCommMonoid M] (xs : List α) (f : α → M) {n : Nat} {x : α}
    (place : xs[n]? = some x) : ((xs.eraseIdx n).map f).sum + f x = (xs.map f).sum := by
  induction xs generalizing n with
  | nil => simp at place
  | cons first rest ih =>
    cases n with
    | zero =>
      have here : first = x := by simpa using place
      subst here
      rw [List.eraseIdx_cons_zero, List.map_cons, List.sum_cons, add_comm]
    | succ n =>
      have tail := ih (by simpa using place)
      rw [List.eraseIdx_cons_succ, List.map_cons, List.sum_cons, List.map_cons, List.sum_cons,
        add_assoc, tail]

theorem map_modify (xs : List α) (n : Nat) {f : α → α} {g : α → β} {h : β → β} (same : ∀ x, g (f x) = h (g x)) :
    (xs.modify n f).map g = (xs.map g).modify n h := by
  apply List.ext_getElem?
  intro m
  rw [List.getElem?_map, List.getElem?_modify, List.getElem?_modify, List.getElem?_map]
  cases xs[m]? with
  | none => rfl
  | some x =>
    by_cases here : n = m
    · simp [here, same]
    · simp [here]

theorem map_modify_same (xs : List α) (n : Nat) {f : α → α} {g : α → β} (same : ∀ x, g (f x) = g x) :
    (xs.modify n f).map g = xs.map g := by
  have kept : (xs.modify n f).map g = (xs.map g).modify n id := map_modify xs n same
  rw [kept, List.modify_id]

theorem sum_fibers {M : Type} [DecidableEq κ] [AddCommMonoid M] (xs : List α) (key : α → κ) (f : α → M)
    {keys : List κ} (distinct : keys.Nodup) :
    (keys.map fun k => ((xs.filter (key · = k)).map f).sum).sum = ((xs.filter (key · ∈ keys)).map f).sum := by
  induction keys with
  | nil => simp
  | cons k others ih =>
    obtain ⟨apart, distinct⟩ := List.nodup_cons.mp distinct
    rw [List.map_cons, List.sum_cons, ih distinct]
    clear ih
    simp only [List.mem_cons]
    induction xs with
    | nil => simp
    | cons x rest ih =>
      by_cases first : key x = k
      · simp only [List.filter_cons, first, true_or, decide_true, decide_false, if_true,
          Bool.false_eq_true, if_false, List.map_cons, List.sum_cons, apart, ← ih, add_assoc]
      · by_cases later : key x ∈ others
        · simp only [List.filter_cons, first, later, or_true, decide_true, decide_false, if_true,
            Bool.false_eq_true, if_false, List.map_cons, List.sum_cons, ← ih, add_left_comm]
        · simp only [List.filter_cons, first, later, or_false, decide_false, Bool.false_eq_true, if_false,
            ← ih]

end KiroProxy.Indexed

import Mathlib.Data.List.Infix

/-! Patterns in which one item, the star, stands for any stretch of items. -/
namespace KiroProxy.Glob

variable {α : Type} {star : α} {front back pattern value : List α}

/-- The value is the pattern with some stretch in the place of each star. -/
inductive Expands (star : α) : List α → List α → Prop
  | done : Expands star [] []
  | item {x : α} {pattern value : List α} (other : x ≠ star) (rest : Expands star pattern value) :
    Expands star (x :: pattern) (x :: value)
  | wild {pattern value : List α} (any : List α) (rest : Expands star pattern value) :
    Expands star (star :: pattern) (any ++ value)

theorem Expands.behind (plain : star ∉ front) (rest : Expands star pattern value) :
    Expands star (front ++ pattern) (front ++ value) := by
  induction front with
  | nil => exact rest
  | cons x front ih =>
    apply Expands.item
    · exact fun same => plain (same ▸ List.mem_cons_self)
    · exact ih fun member => plain (List.mem_cons_of_mem x member)

theorem expands_front (plain : star ∉ front) : Expands star (front ++ pattern) value ↔
    ∃ rest, value = front ++ rest ∧ Expands star pattern rest := by
  constructor
  · intro expands
    induction front generalizing value with
    | nil => exact ⟨value, rfl, expands⟩
    | cons x front ih =>
      cases expands with
      | item _ rest =>
        obtain ⟨tail, rfl, behind⟩ := ih (fun member => plain (List.mem_cons_of_mem x member)) rest
        exact ⟨tail, rfl, behind⟩
      | wild => exact absurd List.mem_cons_self plain
  · rintro ⟨rest, rfl, expands⟩
    exact expands.behind plain

theorem expands_star : Expands star (star :: pattern) value ↔
    ∃ any rest, value = any ++ rest ∧ Expands star pattern rest := by
  constructor
  · intro expands
    cases expands with
    | item other => exact absurd rfl other
    | wild any rest => exact ⟨any, _, rfl, rest⟩
  · rintro ⟨any, rest, rfl, behind⟩
    exact .wild any behind

theorem expands_plain (plain : star ∉ pattern) : Expands star pattern value ↔ value = pattern := by
  have split : Expands star (pattern ++ []) value ↔ ∃ rest, value = pattern ++ rest ∧ Expands star [] rest :=
    expands_front plain
  rw [List.append_nil] at split
  rw [split]
  constructor
  · rintro ⟨rest, rfl, ends⟩
    cases ends
    rw [List.append_nil]
  · rintro rfl
    exact ⟨[], (List.append_nil _).symm, .done⟩

theorem Expands.self (pattern : List α) : Expands star pattern pattern := by
  induction pattern with
  | nil => exact .done
  | cons x pattern ih =>
    by_cases wild : x = star
    · subst wild
      exact .wild [x] ih
    · exact .item wild ih

theorem expands_cut (plain : star ∉ front) : Expands star (front ++ star :: back) value ↔
    ∃ any rest, value = front ++ (any ++ rest) ∧ Expands star back rest := by
  rw [expands_front plain]
  constructor
  · rintro ⟨tail, rfl, behind⟩
    obtain ⟨any, rest, rfl, ends⟩ := expands_star.1 behind
    exact ⟨any, rest, rfl, ends⟩
  · rintro ⟨any, rest, rfl, ends⟩
    exact ⟨any ++ rest, rfl, .wild any ends⟩

theorem Expands.literals [DecidableEq α] (expands : Expands star pattern value) :
    pattern.countP (· ≠ star) ≤ value.countP (· ≠ star) := by
  induction expands with
  | done => exact Nat.le_refl _
  | item other rest ih =>
    rw [List.countP_cons, List.countP_cons]
    exact Nat.add_le_add_right ih _
  | wild any rest ih =>
    rw [List.countP_cons_of_neg (by simp), List.countP_append]
    exact Nat.le_trans ih (Nat.le_add_left _ _)

theorem not_expands_of_overlap (plain : star ∉ front) (starts : front <+: value) (ends : back <:+ value)
    (short : value.length < front.length + back.length) : ¬ Expands star (front ++ star :: back) value := by
  classical
  intro expands
  obtain ⟨any, rest, whole, behind⟩ := (expands_cut plain).1 expands
  obtain ⟨before, whole'⟩ := ends
  have length := congrArg List.length whole'
  rw [List.length_append] at length
  -- the back reaches into the front
  have reaches : before ++ back = front ++ (any ++ rest) := whole'.trans whole
  obtain ⟨shared, same⟩ : before <+: front := by
    apply List.prefix_of_prefix_length_le ⟨back, whole'⟩ starts
    omega
  subst same
  rw [List.append_assoc, List.append_cancel_left_eq] at reaches
  have filled : shared ≠ [] := by
    rintro rfl
    rw [List.append_nil] at short
    omega
  have counts := behind.literals
  rw [reaches, List.countP_append, List.countP_append] at counts
  have literal : shared.countP (· ≠ star) = shared.length := by
    rw [List.countP_eq_length]
    intro x member
    exact decide_eq_true fun same => plain (same ▸ List.mem_append_right _ member)
  have some := List.length_pos_iff.2 filled
  omega

theorem expands_of_ends (plain : star ∉ front) (starts : front <+: value) (ends : back <:+ value)
    (long : front.length + back.length ≤ value.length) : Expands star (front ++ star :: back) value := by
  obtain ⟨tail, rfl⟩ := starts
  rw [List.length_append] at long
  have behind : back <:+ tail := List.suffix_of_suffix_length_le ends (List.suffix_append front tail) (by omega)
  obtain ⟨any, rfl⟩ := behind
  exact (expands_cut plain).2 ⟨any, back, rfl, .self back⟩

end KiroProxy.Glob

import Mathlib.Data.List.Basic
import Mathlib.Data.List.Infix

/-! Search for a pattern while a text arrives item by item: how much of the pattern's beginning the text
ends with, and how that is found again after one more item. -/
namespace KiroProxy.Overlap

variable {α : Type} {pattern text : List α} {x : α} {n : Nat}

structure Longest (pattern text : List α) (n : Nat) : Prop where
  le : n ≤ pattern.length
  suffix : pattern.take n <:+ text
  greatest : ∀ k ≤ pattern.length, pattern.take k <:+ text → k ≤ n

theorem longest_nil : Longest pattern ([] : List α) 0 where
  le := Nat.zero_le _
  suffix := by simp
  greatest := by
    intro k inside ends
    have size := ends.length_le
    rw [List.length_take, List.length_nil] at size
    omega

theorem Longest.le_text (longest : Longest pattern text n) : n ≤ text.length := by
  have size := longest.suffix.length_le
  rw [List.length_take] at size
  have := longest.le
  omega

theorem Longest.full_iff (longest : Longest pattern text n) : n = pattern.length ↔ pattern <:+ text := by
  constructor
  · intro full
    have ends := longest.suffix
    rwa [full, List.take_length] at ends
  · intro ends
    apply Nat.le_antisymm longest.le
    apply longest.greatest _ (Nat.le_refl _)
    rwa [List.take_length]

theorem Longest.reach {more : List α} {m : Nat} (longest : Longest pattern text n) (inside : m ≤ pattern.length)
    (ends : pattern.take m <:+ text ++ more) : m ≤ n + more.length := by
  by_contra longer
  have split : pattern.take m = pattern.take (m - more.length) ++ (pattern.take m).drop (m - more.length) := by
    have shorter : (pattern.take m).take (m - more.length) = pattern.take (m - more.length) := by
      rw [List.take_take, Nat.min_eq_left (by omega)]
    rw [← shorter, List.take_append_drop]
  obtain ⟨front, same⟩ := ends
  rw [split, ← List.append_assoc] at same
  have fits := List.append_inj_left' same (by rw [List.length_drop, List.length_take]; omega)
  have := longest.greatest (m - more.length) (by omega) ⟨front, fits⟩
  omega

theorem take_succ_suffix {k : Nat} (inside : k < pattern.length) :
    pattern.take (k + 1) <:+ text ++ [x] ↔ pattern[k]? = some x ∧ pattern.take k <:+ text := by
  rw [List.take_add_one, List.getElem?_eq_getElem inside]
  constructor
  · rintro ⟨front, same⟩
    rw [Option.toList_some, ← List.append_assoc] at same
    obtain ⟨ends, last⟩ := List.append_inj' same rfl
    cases last
    exact ⟨rfl, front, ends⟩
  · rintro ⟨here, front, ends⟩
    cases here
    exact ⟨front, by rw [← ends, Option.toList_some, List.append_assoc]⟩

/-! ### One more item -/

/-- Where the search for the next overlap stands: this much fits, and nothing past it does. -/
structure Trying (pattern text : List α) (x : α) (n : Nat) : Prop where
  suffix : pattern.take n <:+ text
  greatest : ∀ k ≤ pattern.length, pattern.take k <:+ text ++ [x] → k ≤ n + 1

theorem Longest.trying (longest : Longest pattern text n) (x : α) : Trying pattern text x n where
  suffix := longest.suffix
  greatest := by
    intro k inside ends
    cases k with
    | zero => omega
    | succ k =>
      have shorter := ((take_succ_suffix (by omega)).1 ends).2
      have := longest.greatest k (by omega) shorter
      omega

theorem Trying.found (trying : Trying pattern text x n) (here : pattern[n]? = some x) :
    Longest pattern (text ++ [x]) (n + 1) := by
  have inside : n < pattern.length := by
    by_contra outside
    rw [List.getElem?_eq_none (Nat.le_of_not_lt outside)] at here
    cases here
  exact ⟨inside, (take_succ_suffix inside).2 ⟨here, trying.suffix⟩, trying.greatest⟩

theorem Trying.shorter (trying : Trying pattern text x n) (other : pattern[n]? ≠ some x) :
    ∀ k ≤ pattern.length, pattern.take k <:+ text ++ [x] → k ≤ n := by
  intro k inside ends
  have bound := trying.greatest k inside ends
  by_contra longer
  have same : k = n + 1 := by omega
  subst same
  exact other ((take_succ_suffix (by omega)).1 ends).1

theorem Trying.none (trying : Trying pattern text x 0) (other : pattern[0]? ≠ some x) :
    Longest pattern (text ++ [x]) 0 :=
  ⟨Nat.zero_le _, by simp, trying.shorter other⟩

theorem Trying.back {m : Nat} (trying : Trying pattern text x n) (inside : n ≤ pattern.length) (positive : 0 < n)
    (other : pattern[n]? ≠ some x) (border : Longest pattern (pattern.take n).tail m) : Trying pattern text x m where
  suffix := border.suffix.trans ((List.tail_suffix _).trans trying.suffix)
  greatest := by
    intro k long ends
    have bound := trying.shorter other k long ends
    cases k with
    | zero => omega
    | succ k =>
      have shorter := ((take_succ_suffix (by omega)).1 ends).2
      have nested : pattern.take k <:+ (pattern.take n).tail := by
        apply List.suffix_of_suffix_length_le shorter ((List.tail_suffix _).trans trying.suffix)
        rw [List.length_take, List.length_tail, List.length_take]
        omega
      have := border.greatest k (by omega) nested
      omega

theorem border_lt {m : Nat} (inside : n ≤ pattern.length) (positive : 0 < n)
    (border : Longest pattern (pattern.take n).tail m) : m < n := by
  have := border.le_text
  rw [List.length_tail, List.length_take] at this
  omega

theorem tail_take_succ {k : Nat} (positive : 0 < k) {y : α} (here : pattern[k]? = some y) :
    (pattern.take (k + 1)).tail = (pattern.take k).tail ++ [y] := by
  rw [List.take_add_one, here, Option.toList_some]
  cases pattern with
  | nil => cases here
  | cons first rest =>
    cases k with
    | zero => omega
    | succ k => rfl

theorem le_foldl_max (lengths : List Nat) (start : Nat) : start ≤ lengths.foldl max start ∧
    (∀ length_ ∈ lengths, length_ ≤ lengths.foldl max start) ∧
    (lengths.foldl max start = start ∨ lengths.foldl max start ∈ lengths) := by
  induction lengths generalizing start with
  | nil => exact ⟨Nat.le_refl _, List.forall_mem_nil _, .inl rfl⟩
  | cons length_ rest ih =>
    obtain ⟨above, each, which⟩ := ih (max start length_)
    rw [List.foldl_cons]
    refine ⟨by omega, ?_, ?_⟩
    · intro other member
      rcases List.mem_cons.1 member with rfl | later
      · omega
      · exact each other later
    · rcases which with start_max | member
      · rw [start_max]
        rcases Nat.le_total start length_ with small | large
        · exact .inr (by rw [Nat.max_eq_right small]; exact List.mem_cons_self)
        · exact .inl (Nat.max_eq_left large)
      · exact .inr (List.mem_cons_of_mem length_ member)

end KiroProxy.Overlap

import Mathlib.Data.List.Induction

/-! The words of a list: what stands between items that separate. -/
namespace KiroProxy.Words

variable {α : Type} {sep : α → Bool} {s : α} {front back xs word : List α}

def words (sep : α → Bool) (xs : List α) : List (List α) := (xs.splitOnP sep).filter (· ≠ [])

@[simp] theorem words_nil : words sep ([] : List α) = [] := by
  simp [words]

theorem words_append_cons (cuts : sep s = true) (front back : List α) :
    words sep (front ++ s :: back) = words sep front ++ words sep back := by
  rw [words, List.splitOnP_append_cons front back cuts, List.filter_append]
  rfl

theorem words_cons (cuts : sep s = true) (xs : List α) : words sep (s :: xs) = words sep xs := by
  have split := words_append_cons cuts [] xs
  rwa [words_nil, List.nil_append, List.nil_append] at split

theorem words_whole (uncut : ∀ x ∈ xs, sep x = false) (filled : xs ≠ []) : words sep xs = [xs] := by
  rw [words, List.splitOnP_eq_singleton uncut]
  simp [filled]

theorem words_leading (cut : ∀ x ∈ front, sep x = true) (xs : List α) : words sep (front ++ xs) = words sep xs := by
  induction front with
  | nil => rfl
  | cons x front ih =>
    rw [List.cons_append, words_cons (cut x List.mem_cons_self)]
    exact ih fun y member => cut y (List.mem_cons_of_mem x member)

theorem words_trailing (cut : ∀ x ∈ back, sep x = true) (xs : List α) : words sep (xs ++ back) = words sep xs := by
  cases back with
  | nil => rw [List.append_nil]
  | cons x back =>
    have rest := words_leading (fun y member => cut y (List.mem_cons_of_mem x member)) ([] : List α)
    rw [List.append_nil, words_nil] at rest
    rw [words_append_cons (cut x List.mem_cons_self), rest, List.append_nil]

theorem words_map {f : α → α} (same : ∀ x, sep (f x) = sep x) (fixed : ∀ x, sep x = false → f x = x) (xs : List α) :
    words sep (xs.map f) = words sep xs := by
  have pieces : (xs.map f).splitOnP sep = xs.splitOnP sep := by
    induction xs with
    | nil => rfl
    | cons x xs ih =>
      rw [List.map_cons, List.splitOnP_cons_eq_if_modifyHead, List.splitOnP_cons_eq_if_modifyHead, same, ih]
      cases cuts : sep x with
      | true => rfl
      | false => rw [fixed x cuts]
  rw [words, words, pieces]

theorem words_intercalate (cuts : sep s = true) (pieces : List (List α)) :
    words sep ([s].intercalate pieces) = pieces.flatMap (words sep) := by
  induction pieces with
  | nil => exact words_nil
  | cons piece rest ih =>
    cases rest with
    | nil => simp
    | cons next rest =>
      rw [List.intercalate_cons_cons, List.append_assoc, List.singleton_append, words_append_cons cuts, ih]
      rfl

theorem words_rejoined [DecidableEq α] (cuts : sep s = true) (xs : List α) :
    words sep ([s].intercalate ((xs.splitOn s).filter (· ≠ []))) = words sep xs := by
  have whole : words sep xs = (xs.splitOn s).flatMap (words sep) := by
    rw [← words_intercalate cuts, List.intercalate_splitOn]
  rw [words_intercalate cuts, whole]
  induction xs.splitOn s with
  | nil => rfl
  | cons piece rest ih =>
    by_cases empty : piece = []
    · subst empty
      rw [List.filter_cons_of_neg (by simp), List.flatMap_cons, words_nil, List.nil_append, ih]
    · rw [List.filter_cons_of_pos (by simpa using empty), List.flatMap_cons, List.flatMap_cons, ih]

theorem mem_intercalate {x : α} {pieces : List (List α)} (member : x ∈ [s].intercalate pieces) :
    x = s ∨ ∃ piece ∈ pieces, x ∈ piece := by
  induction pieces with
  | nil => exact absurd member List.not_mem_nil
  | cons piece rest ih =>
    cases rest with
    | nil => exact .inr ⟨piece, List.mem_cons_self, by simpa using member⟩
    | cons next rest =>
      rw [List.intercalate_cons_cons, List.append_assoc, List.singleton_append, List.mem_append, List.mem_cons] at member
      rcases member with here | mark | there
      · exact .inr ⟨piece, List.mem_cons_self, here⟩
      · exact .inl mark
      · exact (ih there).imp_right fun ⟨other, among, inside⟩ => ⟨other, List.mem_cons_of_mem piece among, inside⟩

theorem mem_intercalate_of_mem {x : α} {piece : List α} {pieces : List (List α)} (among : piece ∈ pieces)
    (inside : x ∈ piece) : x ∈ [s].intercalate pieces := by
  induction pieces with
  | nil => exact absurd among List.not_mem_nil
  | cons first rest ih =>
    cases rest with
    | nil =>
      rw [List.mem_singleton.1 among] at inside
      simpa using inside
    | cons next rest =>
      rw [List.intercalate_cons_cons, List.append_assoc, List.mem_append, List.singleton_append]
      rcases List.mem_cons.1 among with rfl | later
      · exact .inl inside
      · exact .inr (List.mem_cons_of_mem s (ih later))

theorem mem_rejoined [DecidableEq α] {x : α} (member : x ∈ [s].intercalate ((xs.splitOn s).filter (· ≠ []))) :
    x = s ∨ x ∈ xs := by
  refine (mem_intercalate member).imp_right fun ⟨piece, among, inside⟩ => ?_
  have whole := mem_intercalate_of_mem (s := s) (List.mem_filter.1 among).1 inside
  rwa [List.intercalate_splitOn] at whole

theorem last_word (sep : α → Bool) (xs : List α) : (∀ x ∈ xs, sep x = false) ∨
    ∃ front s back, xs = front ++ s :: back ∧ sep s = true ∧ ∀ x ∈ back, sep x = false := by
  induction xs using List.reverseRecOn with
  | nil => exact .inl fun _ member => absurd member List.not_mem_nil
  | append_singleton xs x ih =>
    cases cuts : sep x with
    | true => exact .inr ⟨xs, x, [], rfl, cuts, fun _ member => absurd member List.not_mem_nil⟩
    | false =>
      have more (ys : List α) (uncut : ∀ y ∈ ys, sep y = false) : ∀ y ∈ ys ++ [x], sep y = false := by
        intro y member
        rcases List.mem_append.1 member with there | here
        · exact uncut y there
        · rw [List.mem_singleton.1 here, cuts]
      rcases ih with uncut | ⟨front, s, back, rfl, mark, uncut⟩
      · exact .inl (more xs uncut)
      · exact .inr ⟨front, s, back ++ [x], by simp, mark, more back uncut⟩

theorem mem_words_concat {x : α} (member : word ∈ words sep (xs ++ [x])) (absent : x ∉ word) : word ∈ words sep xs := by
  cases cuts : sep x with
  | true =>
    rw [words_append_cons cuts, words_nil, List.append_nil] at member
    exact member
  | false =>
    have uncut (ys : List α) (free : ∀ y ∈ ys, sep y = false) : words sep (ys ++ [x]) = [ys ++ [x]] := by
      apply words_whole _ (by simp)
      intro y there
      rcases List.mem_append.1 there with there | here
      · exact free y there
      · rw [List.mem_singleton.1 here, cuts]
    rcases last_word sep xs with free | ⟨front, s, back, rfl, mark, free⟩
    · rw [uncut xs free, List.mem_singleton] at member
      exact absurd (member ▸ List.mem_append_right xs List.mem_cons_self) absent
    · rw [List.append_assoc, List.cons_append, words_append_cons mark, uncut back free, List.mem_append,
        List.mem_singleton] at member
      rw [words_append_cons mark, List.mem_append]
      rcases member with there | here
      · exact .inl there
      · exact absurd (here ▸ List.mem_append_right back List.mem_cons_self) absent

theorem mem_words_tail {mark : α → Bool} (tail : ∀ x ∈ back, sep x = true ∨ mark x = true)
    (plain : ∀ x ∈ word, mark x = false) (member : word ∈ words sep (xs ++ back)) : word ∈ words sep xs := by
  induction back generalizing xs with
  | nil => rwa [List.append_nil] at member
  | cons x back ih =>
    have later : ∀ y ∈ back, sep y = true ∨ mark y = true := fun y there => tail y (List.mem_cons_of_mem x there)
    rcases tail x List.mem_cons_self with cuts | marked
    · rw [words_append_cons cuts, List.mem_append] at member
      rcases member with before | behind
      · exact before
      · have nowhere : word ∈ words sep ([] : List α) := ih later behind
        rw [words_nil] at nowhere
        exact absurd nowhere List.not_mem_nil
    · rw [← List.singleton_append, ← List.append_assoc] at member
      apply mem_words_concat (ih later member)
      intro there
      rw [plain x there] at marked
      cases marked

end KiroProxy.Words

import Mathlib.Data.List.Lemmas

/-! Lists in which the newest elements of a kind are kept and the older ones of the kind are changed. The newest stand last:
a scan from the end counts down what is still to be kept. -/
namespace KiroProxy.Newest

variable {α σ : Type} (kind : α → Bool) (change : α → α) (note : α → σ → σ)

/-- The elements of the kind with at least `keep` newer ones of it. -/
def older (keep : Nat) : List α → List α
  | [] => []
  | x :: rest => if kind x ∧ keep ≤ rest.countP kind then x :: older keep rest else older keep rest

def changeOlder (keep : Nat) : List α → List α
  | [] => []
  | x :: rest => (if kind x ∧ keep ≤ rest.countP kind then change x else x) :: changeOlder keep rest

/-- The scan: an element of the kind is kept while the counter lasts, then changed and noted. -/
def scanStep (x : α) (state : Nat × σ) : (Nat × σ) × α :=
  if kind x then
    if 0 < state.1 then ((state.1 - 1, state.2), x) else ((state.1, note x state.2), change x)
  else (state, x)

variable {kind change note}

theorem scan_eq (keep : Nat) (log : σ) (xs : List α) : xs.mapAccumr (scanStep kind change note) (keep, log) =
    ((keep - xs.countP kind, (older kind keep xs).foldr note log), changeOlder kind change keep xs) := by
  induction xs with
  | nil => rfl
  | cons x rest ih =>
    simp only [List.mapAccumr, ih, scanStep, older, changeOlder]
    by_cases of_kind : kind x = true
    · rw [if_pos of_kind, List.countP_cons_of_pos of_kind]
      by_cases few : keep ≤ rest.countP kind
      · have spent : keep - rest.countP kind = 0 := Nat.sub_eq_zero_of_le few
        rw [spent, if_neg (Nat.lt_irrefl 0), if_pos ⟨of_kind, few⟩, if_pos ⟨of_kind, few⟩,
          Nat.sub_eq_zero_of_le (Nat.le_succ_of_le few)]
        rfl
      · have left : 0 < keep - rest.countP kind := Nat.sub_pos_of_lt (Nat.lt_of_not_le few)
        rw [if_pos left, if_neg fun both => few both.2, if_neg fun both => few both.2, Nat.sub_add_eq]
    · rw [if_neg of_kind, if_neg fun both => of_kind both.1, if_neg fun both => of_kind both.1,
        List.countP_cons_of_neg of_kind]

theorem older_append (keep : Nat) (front back : List α) : older kind keep (front ++ back) =
    older kind (keep - back.countP kind) front ++ older kind keep back := by
  induction front with
  | nil => rfl
  | cons x rest ih =>
    rw [List.cons_append, older, older, ih, List.countP_append]
    simp only [Nat.sub_le_iff_le_add]
    split
    · rfl
    · rfl

theorem changeOlder_append (keep : Nat) (front back : List α) : changeOlder kind change keep (front ++ back) =
    changeOlder kind change (keep - back.countP kind) front ++ changeOlder kind change keep back := by
  induction front with
  | nil => rfl
  | cons x rest ih =>
    rw [List.cons_append, changeOlder, changeOlder, ih, List.countP_append, List.cons_append]
    simp only [Nat.sub_le_iff_le_add]

theorem length_changeOlder (keep : Nat) (xs : List α) : (changeOlder kind change keep xs).length = xs.length := by
  induction xs with
  | nil => rfl
  | cons x rest ih => rw [changeOlder, List.length_cons, ih, List.length_cons]

variable (change) in
theorem changeOlder_few {keep : Nat} {xs : List α} (few : xs.countP kind ≤ keep) :
    older kind keep xs = [] ∧ changeOlder kind change keep xs = xs := by
  induction xs with
  | nil => exact ⟨rfl, rfl⟩
  | cons x rest ih =>
    have later : rest.countP kind ≤ keep := le_trans (List.Sublist.countP_le (List.sublist_cons_self x rest)) few
    have kept : ¬ (kind x = true ∧ keep ≤ rest.countP kind) := by
      rintro ⟨of_kind, many⟩
      rw [List.countP_cons_of_pos of_kind] at few
      omega
    rw [older, changeOlder, if_neg kept, if_neg kept, (ih later).1, (ih later).2]
    exact ⟨rfl, rfl⟩

theorem countP_changeOlder (ends : ∀ x, kind x = true → kind (change x) = false) (keep : Nat) (xs : List α) :
    (changeOlder kind change keep xs).countP kind = min keep (xs.countP kind) := by
  induction xs with
  | nil => simp [changeOlder]
  | cons x rest ih =>
    rw [changeOlder]
    by_cases of_kind : kind x = true
    · rw [List.countP_cons_of_pos of_kind]
      by_cases few : keep ≤ rest.countP kind
      · rw [if_pos ⟨of_kind, few⟩, List.countP_cons_of_neg (by rw [ends x of_kind]; decide), ih]
        omega
      · rw [if_neg fun both => few both.2, List.countP_cons_of_pos of_kind, ih]
        omega
    · rw [if_neg fun both => of_kind both.1, List.countP_cons_of_neg of_kind, List.countP_cons_of_neg of_kind, ih]

theorem older_sublist (keep : Nat) (xs : List α) : (older kind keep xs).Sublist xs := by
  induction xs with
  | nil => exact List.Sublist.slnil
  | cons x rest ih =>
    rw [older]
    split
    · exact ih.cons_cons x
    · exact ih.cons x

theorem kind_of_older {keep : Nat} {xs : List α} {x : α} (member : x ∈ older kind keep xs) : kind x = true := by
  induction xs with
  | nil => cases member
  | cons y rest ih =>
    rw [older] at member
    split at member
    case isTrue here =>
      rcases List.mem_cons.mp member with same | later
      · exact same ▸ here.1
      · exact ih later
    case isFalse => exact ih member

variable (kind change) in
theorem map_changeOlder {β : Type} {view : α → β} (same : ∀ x, kind x = true → view (change x) = view x) (keep : Nat)
    (xs : List α) : (changeOlder kind change keep xs).map view = xs.map view := by
  induction xs with
  | nil => rfl
  | cons x rest ih =>
    rw [changeOlder, List.map_cons, ih, List.map_cons]
    split
    case isTrue here => rw [same x here.1]
    case isFalse => rfl

end KiroProxy.Newest

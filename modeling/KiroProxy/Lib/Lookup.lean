import Mathlib.Data.List.Nodup

/-! Looking up keys in association lists. -/
namespace KiroProxy

variable {κ α : Type} [DecidableEq κ] {key : κ} {value : α} {entries : List (κ × α)}

theorem lookup_cons_if (key name : κ) (value : α) (rest : List (κ × α)) :
    ((name, value) :: rest).lookup key = if key = name then some value else rest.lookup key := by
  rw [List.lookup_cons]
  by_cases same : key = name
  · simp [same]
  · simp [beq_eq_false_iff_ne.2 same, same]

theorem mem_of_lookup (found : entries.lookup key = some value) : (key, value) ∈ entries := by
  obtain ⟨front, back, rfl, -⟩ := List.lookup_eq_some_iff.1 found
  simp

theorem lookup_of_mem (keys : (entries.map Prod.fst).Nodup) (member : (key, value) ∈ entries) :
    entries.lookup key = some value := by
  obtain ⟨front, back, rfl⟩ := List.append_of_mem member
  refine List.lookup_eq_some_iff.2 ⟨front, back, rfl, ?_⟩
  intro entry before
  simp only [List.map_append, List.map_cons, List.nodup_append, List.mem_map, List.mem_cons] at keys
  have apart := keys.2.2 entry.1 ⟨entry, before, rfl⟩ key (.inl rfl)
  simpa using Ne.symm apart

theorem lookup_filter (keep : κ → Bool) (key : κ) (entries : List (κ × α)) :
    (entries.filter (keep ·.1)).lookup key = if keep key then entries.lookup key else none := by
  induction entries with
  | nil => simp
  | cons entry rest ih =>
    obtain ⟨name, value⟩ := entry
    cases kept : keep name with
    | true =>
      rw [List.filter_cons_of_pos (by exact kept), lookup_cons_if, lookup_cons_if, ih]
      split
      case isTrue same => simp [same, kept]
      case isFalse => rfl
    | false =>
      rw [List.filter_cons_of_neg (by simp [kept]), ih, lookup_cons_if]
      by_cases same : key = name
      · simp [same, kept]
      · rw [if_neg same]

theorem lookup_modify {entries : List (κ × α)} {i : Nat} (found : entries.findIdx? (·.1 = key) = some i)
    (value : α) (other : κ) : (entries.modify i fun entry => (entry.1, value)).lookup other =
      if other = key then some value else entries.lookup other := by
  induction entries generalizing i with
  | nil => cases found
  | cons entry rest ih =>
    obtain ⟨name, old⟩ := entry
    rw [List.findIdx?_cons] at found
    split at found
    case isTrue here =>
      obtain rfl := Option.some.inj found
      have same : name = key := of_decide_eq_true here
      rw [List.modify_zero_cons, lookup_cons_if, lookup_cons_if, same]
      split
      · rfl
      · rfl
    case isFalse apart =>
      obtain ⟨j, later, rfl⟩ := Option.map_eq_some_iff.1 found
      have different : name ≠ key := fun same => apart (decide_eq_true same)
      rw [List.modify_succ_cons, lookup_cons_if, lookup_cons_if, ih later]
      by_cases first : other = name
      · rw [if_pos first, if_pos first, if_neg (by rw [first]; exact different)]
      · rw [if_neg first, if_neg first]

end KiroProxy

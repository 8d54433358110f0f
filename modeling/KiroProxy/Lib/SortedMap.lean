import Mathlib.Data.List.Sort
import Mathlib.Data.List.Lex

/-! Maps that are iterated in the order of their keys, as association lists sorted by key,
against the same entries in the order in which they came. -/
namespace KiroProxy.SortedMap

variable {α β γ : Type} [LinearOrder α]

/-- The entry of a key is made or changed in place: `entry(key)` with what is done to it. -/
def alter (key : α) (f : Option β → β) : List (α × β) → List (α × β)
  | [] => [(key, f none)]
  | (other, value) :: rest =>
    if key < other then (key, f none) :: (other, value) :: rest
    else if key = other then (other, f (some value)) :: rest
    else (other, value) :: alter key f rest

def place (key : α) (f : Option β → β) (entries : List (α × β)) : List (α × β) :=
  if key ∈ entries.map (·.1) then
    entries.map fun entry => if entry.1 = key then (entry.1, f (some entry.2)) else entry
  else entries ++ [(key, f none)]

def Sorted (entries : List (α × β)) : Prop := entries.Pairwise (·.1 < ·.1)

instance decidableSorted (entries : List (α × β)) : Decidable (Sorted entries) :=
  inferInstanceAs (Decidable (entries.Pairwise (·.1 < ·.1)))

variable {key : α} {f : Option β → β} {entries : List (α × β)}

theorem place_cons_other {entry : α × β} (different : entry.1 ≠ key) (f : Option β → β) (rest : List (α × β)) :
    place key f (entry :: rest) = entry :: place key f rest := by
  unfold place
  by_cases known : key ∈ rest.map (·.1)
  · simp [known, different]
  · simp [known, Ne.symm different]

theorem mem_place_keys {other : α} :
    other ∈ (place key f entries).map (·.1) ↔ other = key ∨ other ∈ entries.map (·.1) := by
  unfold place
  split
  case isTrue known =>
    have keys : (entries.map fun entry => if entry.1 = key then (entry.1, f (some entry.2)) else entry).map (·.1) =
        entries.map (·.1) := by
      rw [List.map_map]
      refine List.map_congr_left fun entry _ => ?_
      simp only [Function.comp_apply]
      split <;> rfl
    rw [keys]
    exact ⟨.inr, fun either => either.elim (fun same => same ▸ known) id⟩
  case isFalse => simp [or_comm]

theorem place_eq_map {g : β → β} {fresh : β} (through : ∀ o, f o = g (o.getD fresh)) (key : α)
    (entries : List (α × β)) :
    place key f entries = (if key ∈ entries.map (·.1) then entries else entries ++ [(key, fresh)]).map
      fun entry => if entry.1 = key then (entry.1, g entry.2) else entry := by
  unfold place
  split
  case isTrue => simp [through]
  case isFalse unknown =>
    have others : entries.map (fun entry => if entry.1 = key then (entry.1, g entry.2) else entry) = entries := by
      refine (List.map_congr_left fun entry member => ?_).trans (List.map_id entries)
      exact if_neg fun same => unknown (List.mem_map.2 ⟨entry, member, same⟩)
    simp [through, others]

theorem place_perm {first second : List (α × β)} (perm : first.Perm second) (key : α) (f : Option β → β) :
    (place key f first).Perm (place key f second) := by
  have keys : key ∈ first.map (·.1) ↔ key ∈ second.map (·.1) := (perm.map _).mem_iff
  unfold place
  by_cases known : key ∈ first.map (·.1)
  · rw [if_pos known, if_pos (keys.1 known)]
    exact perm.map _
  · rw [if_neg known, if_neg (fun there => known (keys.2 there))]
    exact perm.append_right _

theorem alter_perm_place (sorted : Sorted entries) (key : α) (f : Option β → β) :
    (alter key f entries).Perm (place key f entries) := by
  induction entries with
  | nil => simp [alter, place]
  | cons entry rest ih =>
    obtain ⟨least, sorted⟩ := List.pairwise_cons.1 sorted
    -- Behind the head, no key is equal to the head's or below it.
    have absent (below : key ≤ entry.1) : key ∉ rest.map (·.1) := by
      intro there
      obtain ⟨other, member, rfl⟩ := List.mem_map.1 there
      exact absurd (least other member) (not_lt.2 below)
    unfold alter
    split
    case isTrue below =>
      rw [place_cons_other below.ne']
      simp only [place, absent below.le, if_false]
      exact (List.perm_append_singleton (key, f none) (entry :: rest)).symm
    case isFalse =>
      split
      case isTrue same =>
        have kept : ∀ other ∈ rest, (if other.1 = key then (other.1, f (some other.2)) else other) = other := by
          intro other member
          exact if_neg fun equal => absent same.le (List.mem_map.2 ⟨other, member, equal⟩)
        have placed : place key f (entry :: rest) = (entry.1, f (some entry.2)) :: rest := by
          simp [place, ← same, List.map_congr_left kept]
        rw [placed]
      case isFalse different =>
        rw [place_cons_other (Ne.symm different)]
        exact (ih sorted).cons entry

theorem mem_alter {entry : α × β} (member : entry ∈ alter key f entries) :
    entry.1 = key ∨ ∃ earlier ∈ entries, earlier.1 = entry.1 := by
  induction entries with
  | nil =>
    rw [alter, List.mem_singleton] at member
    exact .inl (by rw [member])
  | cons head rest ih =>
    unfold alter at member
    split at member
    · rcases List.mem_cons.1 member with rfl | later
      · exact .inl rfl
      · exact .inr ⟨entry, later, rfl⟩
    · split at member
      · rcases List.mem_cons.1 member with rfl | later
        · exact .inr ⟨head, List.mem_cons_self, rfl⟩
        · exact .inr ⟨entry, List.mem_cons_of_mem head later, rfl⟩
      · rcases List.mem_cons.1 member with rfl | later
        · exact .inr ⟨head, List.mem_cons_self, rfl⟩
        · refine (ih later).imp_right ?_
          rintro ⟨earlier, there, same⟩
          exact ⟨earlier, List.mem_cons_of_mem head there, same⟩

theorem alter_sorted (sorted : Sorted entries) (key : α) (f : Option β → β) :
    Sorted (alter key f entries) := by
  induction entries with
  | nil => simp [alter, Sorted]
  | cons entry rest ih =>
    obtain ⟨least, sorted⟩ := List.pairwise_cons.1 sorted
    unfold alter
    split
    case isTrue below =>
      refine List.pairwise_cons.2 ⟨fun other member => ?_, List.pairwise_cons.2 ⟨least, sorted⟩⟩
      rcases List.mem_cons.1 member with rfl | later
      · exact below
      · exact below.trans (least other later)
    case isFalse notBelow =>
      split
      · exact List.pairwise_cons.2 ⟨least, sorted⟩
      case isFalse different =>
        have above : entry.1 < key := lt_of_le_of_ne (not_lt.1 notBelow) (Ne.symm different)
        refine List.pairwise_cons.2 ⟨fun other member => ?_, ih sorted⟩
        rcases mem_alter member with same | later
        · rw [same]
          exact above
        · obtain ⟨earlier, there, same⟩ := later
          rw [← same]
          exact least earlier there

theorem eq_of_perm {first second : List (α × β)} (perm : first.Perm second) (sorted : Sorted first)
    (also : Sorted second) : first = second :=
  perm.eq_of_pairwise (fun _ _ _ _ below above => absurd below (lt_asymm above)) sorted also

theorem map_place {g : β → γ} {f' : Option γ → γ} (through : ∀ o, g (f o) = f' (o.map g)) (key : α)
    (entries : List (α × β)) :
    (place key f entries).map (Prod.map id g) = place key f' (entries.map (Prod.map id g)) := by
  have keys : (entries.map (Prod.map id g)).map (·.1) = entries.map (·.1) := by simp [Function.comp_def]
  unfold place
  rw [keys]
  split
  · rw [List.map_map, List.map_map]
    refine List.map_congr_left fun entry _ => ?_
    by_cases same : entry.1 = key
    · simp [same, through, Prod.map]
    · simp [same, Prod.map]
  · simp [through, Prod.map]

theorem map_alter {g : β → γ} {f' : Option γ → γ} (through : ∀ o, g (f o) = f' (o.map g)) (key : α)
    (entries : List (α × β)) :
    (alter key f entries).map (Prod.map id g) = alter key f' (entries.map (Prod.map id g)) := by
  induction entries with
  | nil => simp [alter, through]
  | cons entry rest ih =>
    simp only [alter, List.map_cons, Prod.map]
    by_cases below : key < entry.1
    · simp [below, through, Prod.map]
    · by_cases same : key = entry.1
      · simp [same, through]
      · simp [below, same, ih, Prod.map]

end KiroProxy.SortedMap

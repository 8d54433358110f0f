import KiroProxy.Lib.Capped
import Mathlib.Data.List.MinMax

/-! Tables whose values lapse, with room for a number of keys: of too many, one that lapses first has to go. A key was
promised to last until some time; where the promise is not kept, a crowd of others was promised as much. -/
namespace KiroProxy.Lapsing

variable {κ ν : Type} [DecidableEq κ] {lapses : ν → Nat} {maximum now next : Nat} {promised grown : κ → Nat}
  {table : Table κ ν} {key : κ} {value : ν}

/-- The order in which a hash map is walked. -/
structure Walk (κ ν : Type) where
  order : List (κ × ν) → List (κ × ν)
  perm : ∀ entries, (order entries).Perm entries

def prune (lapses : ν → Nat) (now : Nat) (table : Table κ ν) : Table κ ν :=
  table.filter fun _ value => now < lapses value

def evict (walk : Walk κ ν) (lapses : ν → Nat) (maximum : Nat) (table : Table κ ν) : Table κ ν :=
  if maximum < table.size then
    match (walk.order table.entries).argmin (lapses ·.2) with
    | some first => table.erase first.1
    | none => table
  else table

def Crowded (maximum : Nat) (promised : κ → Nat) (key : κ) : Prop :=
  ∃ others : List κ, others.Nodup ∧ others.length = maximum ∧
    ∀ other ∈ others, other ≠ key ∧ promised key ≤ promised other

structure Keeps (lapses : ν → Nat) (maximum : Nat) (promised : κ → Nat) (now : Nat) (table : Table κ ν) : Prop where
  size : table.size ≤ maximum
  exact : ∀ key value, table.get? key = some value → lapses value = promised key
  missing : ∀ key, now < promised key → table.get? key = none → Crowded maximum promised key

omit [DecidableEq κ] in
theorem Crowded.mono (crowded : Crowded maximum promised key) (grows : ∀ other, promised other ≤ grown other)
    (same : grown key = promised key) : Crowded maximum grown key := by
  obtain ⟨others, once, full, last⟩ := crowded
  refine ⟨others, once, full, fun other member => ⟨(last other member).1, ?_⟩⟩
  rw [same]
  exact (last other member).2.trans (grows other)

theorem keeps_empty : Keeps lapses maximum (fun _ : κ => 0) now (∅ : Table κ ν) where
  size := Nat.zero_le _
  exact _ _ found := by cases found
  missing _ open_ := absurd open_ (Nat.not_lt_zero now)

theorem get?_prune : (prune lapses now table).get? key = (table.get? key).filter fun value => now < lapses value := by
  ext value
  rw [← Table.mem_entries, Option.filter_eq_some_iff, ← Table.mem_entries]
  exact List.mem_filter

theorem Keeps.later (keeps : Keeps lapses maximum promised now table) (since : now ≤ next) :
    Keeps lapses maximum promised next table :=
  ⟨keeps.size, keeps.exact, fun key open_ gone => keeps.missing key (by omega) gone⟩

theorem Keeps.prune (keeps : Keeps lapses maximum promised now table) :
    Keeps lapses maximum promised now (prune lapses now table) where
  size := (List.length_filter_le _ _).trans keeps.size
  exact key value found := by
    rw [get?_prune] at found
    exact keeps.exact key value (Option.filter_eq_some_iff.1 found).1
  missing key open_ gone := by
    rw [get?_prune, Option.filter_eq_none_iff] at gone
    refine keeps.missing key open_ (Option.eq_none_iff_forall_ne_some.2 fun value found => ?_)
    exact gone value found (decide_eq_true (keeps.exact key value found ▸ open_))

theorem first_lapses {walk : Walk κ ν} {first : κ × ν} (chosen : (walk.order table.entries).argmin (lapses ·.2) = some first) :
    table.get? first.1 = some first.2 ∧ ∀ key value, table.get? key = some value → lapses first.2 ≤ lapses value := by
  refine ⟨Table.mem_entries.1 ((walk.perm _).mem_iff.1 (List.argmin_mem chosen)), fun key value found => ?_⟩
  have member := (walk.perm _).mem_iff.2 (Table.mem_entries.2 found)
  exact List.le_of_mem_argmin (f := fun entry : κ × ν => lapses entry.2) member chosen

theorem get?_evict {walk : Walk κ ν} (found : (evict walk lapses maximum table).get? key = some value) :
    table.get? key = some value := by
  unfold evict at found
  split at found
  case isFalse => exact found
  case isTrue =>
    split at found
    case h_2 => exact found
    case h_1 =>
      rw [Table.get?_erase] at found
      split at found
      · cases found
      · exact found

theorem keeps_evict (walk : Walk κ ν) (size : table.size ≤ maximum + 1)
    (exact : ∀ key value, table.get? key = some value → lapses value = promised key)
    (missing : ∀ key, now < promised key → table.get? key = none → Crowded maximum promised key) :
    Keeps lapses maximum promised now (evict walk lapses maximum table) := by
  unfold evict
  split
  case isFalse room => exact ⟨Nat.not_lt.1 room, exact, missing⟩
  case isTrue full =>
    split
    case h_2 none_first =>
      have empty := (walk.perm table.entries).length_eq
      rw [List.argmin_eq_none.1 none_first] at empty
      exact absurd (empty ▸ full : maximum < ([] : List (κ × ν)).length) (Nat.not_lt_zero _)
    case h_1 first chosen =>
      obtain ⟨here, least⟩ := first_lapses chosen
      have length : (table.erase first.1).size = maximum := by
        have perm := (Capped.perm_erase here).length_eq
        rw [List.length_cons] at perm
        unfold Table.size at *
        omega
      refine ⟨length.le, fun key value found => ?_, fun key open_ gone => ?_⟩
      · rw [Table.get?_erase] at found
        split at found
        · cases found
        · exact exact key value found
      · rw [Table.get?_erase] at gone
        split at gone
        case isFalse => exact missing key open_ gone
        case isTrue same =>
          refine ⟨_, (table.erase first.1).distinct, by rw [List.length_map]; exact length, ?_⟩
          intro other member
          obtain ⟨entry, inside, rfl⟩ := List.mem_map.1 member
          have found : (table.erase first.1).get? entry.1 = some entry.2 := Table.mem_entries.1 inside
          rw [Table.get?_erase] at found
          split at found
          · cases found
          case isFalse apart =>
            refine ⟨same ▸ apart, ?_⟩
            rw [same, ← exact _ _ here, ← exact _ _ found]
            exact least _ _ found

theorem Keeps.put (keeps : Keeps lapses maximum promised now table) (walk : Walk κ ν) (value : ν)
    (grows : promised key ≤ lapses value) :
    Keeps lapses maximum (Function.update promised key (lapses value)) now
      (evict walk lapses maximum (table.insert key value)) := by
  apply keeps_evict walk
  · rw [Capped.size_insert]
    have size := keeps.size
    split <;> omega
  · intro other held found
    rw [Table.get?_insert] at found
    by_cases same : other = key
    · rw [if_pos same] at found
      cases found
      rw [same, Function.update_self]
    · rw [if_neg same] at found
      rw [Function.update_of_ne same]
      exact keeps.exact other held found
  · intro other open_ gone
    rw [Table.get?_insert] at gone
    by_cases same : other = key
    · rw [if_pos same] at gone
      cases gone
    · rw [if_neg same] at gone
      rw [Function.update_of_ne same] at open_
      refine (keeps.missing other open_ gone).mono (fun one => ?_) (Function.update_of_ne same _ _)
      by_cases here : one = key
      · rw [here, Function.update_self]
        exact grows
      · rw [Function.update_of_ne here]

end KiroProxy.Lapsing

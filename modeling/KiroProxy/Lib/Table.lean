import KiroProxy.Lib.Lookup

/-! Hash maps as lists of entries with distinct keys, newest entry first. -/
namespace KiroProxy

structure Table (κ ν : Type) where
  entries : List (κ × ν) := []
  distinct : (entries.map Prod.fst).Nodup := by simp
  deriving DecidableEq

namespace Table

variable {κ ν : Type}

instance : EmptyCollection (Table κ ν) := ⟨{}⟩

def size (table : Table κ ν) : Nat := table.entries.length

def retain (keep : κ → Bool) (table : Table κ ν) : Table κ ν where
  entries := table.entries.filter (keep ·.1)
  distinct := table.distinct.sublist (List.filter_sublist.map Prod.fst)

def mapValues {μ : Type} (f : ν → μ) (table : Table κ ν) : Table κ μ where
  entries := table.entries.map fun entry => (entry.1, f entry.2)
  distinct := by simpa [List.map_map, Function.comp_def] using table.distinct

def filter (keep : κ → ν → Bool) (table : Table κ ν) : Table κ ν where
  entries := table.entries.filter fun entry => keep entry.1 entry.2
  distinct := table.distinct.sublist (List.filter_sublist.map Prod.fst)

variable [DecidableEq κ]

def get? (table : Table κ ν) (key : κ) : Option ν := table.entries.lookup key

def erase (table : Table κ ν) (key : κ) : Table κ ν := table.retain (· ≠ key)

def insert (table : Table κ ν) (key : κ) (value : ν) : Table κ ν where
  entries := (key, value) :: (table.erase key).entries
  distinct := by
    refine List.nodup_cons.2 ⟨?_, (table.erase key).distinct⟩
    simp [erase, retain]

@[simp] theorem get?_empty (key : κ) : (∅ : Table κ ν).get? key = none := rfl

@[simp] theorem get?_retain (keep : κ → Bool) (table : Table κ ν) (key : κ) :
    (table.retain keep).get? key = if keep key then table.get? key else none :=
  lookup_filter keep key table.entries

@[simp] theorem get?_erase (table : Table κ ν) (key other : κ) :
    (table.erase key).get? other = if other = key then none else table.get? other := by
  rw [erase, get?_retain]
  by_cases same : other = key <;> simp [same]

@[simp] theorem get?_insert (table : Table κ ν) (key other : κ) (value : ν) :
    (table.insert key value).get? other = if other = key then some value else table.get? other := by
  show List.lookup other ((key, value) :: _) = _
  rw [lookup_cons_if]
  by_cases same : other = key
  · simp [same]
  · simp only [if_neg same]
    exact (get?_erase table key other).trans (if_neg same)

def extend (table other : Table κ ν) : Table κ ν :=
  other.entries.foldl (fun table entry => table.insert entry.1 entry.2) table

@[simp] theorem get?_mapValues {μ : Type} (f : ν → μ) (table : Table κ ν) (key : κ) :
    (table.mapValues f).get? key = (table.get? key).map f := by
  unfold get? mapValues
  dsimp only
  induction table.entries with
  | nil => rfl
  | cons entry rest ih =>
    rw [List.map_cons, lookup_cons_if, lookup_cons_if, ih]
    split
    · rfl
    · rfl

@[simp] theorem get?_extend (table other : Table κ ν) (key : κ) :
    (table.extend other).get? key = (other.get? key).or (table.get? key) := by
  have all : ∀ (entries : List (κ × ν)), (entries.map Prod.fst).Nodup → ∀ table : Table κ ν,
      (entries.foldl (fun table entry => table.insert entry.1 entry.2) table).get? key =
        (entries.lookup key).or (table.get? key) := by
    intro entries
    induction entries with
    | nil => exact fun _ _ => rfl
    | cons entry rest ih =>
      intro distinct table
      obtain ⟨apart, others⟩ := List.nodup_cons.mp distinct
      rw [List.foldl_cons, ih others, get?_insert, lookup_cons_if]
      by_cases same : key = entry.1
      · have absent : rest.lookup key = none := by
          cases found : rest.lookup key with
          | none => rfl
          | some value => exact absurd (List.mem_map_of_mem (mem_of_lookup found)) (same ▸ apart)
        rw [if_pos same, if_pos same, absent]
        rfl
      · rw [if_neg same, if_neg same]
  exact all other.entries other.distinct table

theorem get?_filter {keep : κ → ν → Bool} {table : Table κ ν} {key : κ} {value : ν}
    (found : (table.filter keep).get? key = some value) : keep key value = true ∧ table.get? key = some value := by
  obtain ⟨member, kept⟩ := List.mem_filter.1 (mem_of_lookup found)
  exact ⟨kept, lookup_of_mem table.distinct member⟩

theorem mem_entries {table : Table κ ν} {key : κ} {value : ν} :
    (key, value) ∈ table.entries ↔ table.get? key = some value :=
  ⟨lookup_of_mem table.distinct, mem_of_lookup⟩

end Table
end KiroProxy

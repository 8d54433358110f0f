import Mathlib.Data.Finmap
import Mathlib.Data.Finset.Max
import Mathlib.Data.Finset.Card
import Mathlib.Algebra.BigOperators.Group.Finset.Basic

/-! Finite maps as hash maps: their size, one entry changed in place, and the order in
which an iteration meets the entries, which is any order at all. -/
namespace KiroProxy.Maps

section Size

variable {κ ν : Type}

def size (m : Finmap (fun _ : κ => ν)) : Nat := m.keys.card

@[simp] theorem size_empty : size (∅ : Finmap (fun _ : κ => ν)) = 0 := rfl

variable [DecidableEq κ]

theorem keys_insert (m : Finmap (fun _ : κ => ν)) (k : κ) (v : ν) :
    (m.insert k v).keys = insert k m.keys := by
  ext key
  rw [Finmap.mem_keys, Finmap.mem_insert, Finset.mem_insert, Finmap.mem_keys]

theorem size_insert (m : Finmap (fun _ : κ => ν)) (k : κ) (v : ν) :
    size (m.insert k v) = if k ∈ m then size m else size m + 1 := by
  rw [size, keys_insert]
  by_cases member : k ∈ m
  · rw [if_pos member, Finset.insert_eq_of_mem (Finmap.mem_keys.mpr member), size]
  · rw [if_neg member, Finset.card_insert_of_notMem (fun h => member (Finmap.mem_keys.mp h)), size]

theorem size_erase (m : Finmap (fun _ : κ => ν)) (k : κ) (member : k ∈ m) :
    size (m.erase k) + 1 = size m := by
  rw [size, Finmap.keys_erase, Finset.card_erase_add_one (Finmap.mem_keys.mpr member), size]

/-- The entry under a key is replaced by its image; a missing one starts from the default. -/
def modify (m : Finmap (fun _ : κ => ν)) (empty : ν) (k : κ) (f : ν → ν) :
    Finmap (fun _ : κ => ν) :=
  m.insert k (f ((m.lookup k).getD empty))

/-- Every value replaced by its image; the order of the walk cannot matter. -/
def mapValues {μ : Type} (f : κ → ν → μ) (m : Finmap (fun _ : κ => ν)) : Finmap (fun _ : κ => μ) where
  entries := m.entries.map (fun e => ⟨e.1, f e.1 e.2⟩)
  nodupKeys := by
    have same : (m.entries.map (fun e => (⟨e.1, f e.1 e.2⟩ : Σ _ : κ, μ))).keys = m.entries.keys := by
      simp [Multiset.keys, Multiset.map_map]
    rw [← Multiset.nodup_keys, same]
    exact Multiset.nodup_keys.mpr m.nodupKeys

theorem lookup_mapValues {μ : Type} (f : κ → ν → μ) (m : Finmap (fun _ : κ => ν)) (k : κ) :
    (mapValues f m).lookup k = (m.lookup k).map (f k) := by
  cases found : m.lookup k with
  | some v =>
    rw [Option.map_some, Finmap.lookup_eq_some_iff]
    exact Multiset.mem_map.mpr ⟨⟨k, v⟩, Finmap.lookup_eq_some_iff.mp found, rfl⟩
  | none =>
    rw [Option.map_none, Finmap.lookup_eq_none]
    intro member
    obtain ⟨w, inside⟩ := Finmap.mem_iff.mp member
    obtain ⟨⟨key, value⟩, entry, same⟩ := Multiset.mem_map.mp (Finmap.lookup_eq_some_iff.mp inside)
    cases same
    rw [Finmap.lookup_eq_some_iff.mpr entry] at found
    cases found

theorem size_mapValues {μ : Type} (f : κ → ν → μ) (m : Finmap (fun _ : κ => ν)) :
    size (mapValues f m) = size m := by
  have keys : (mapValues f m).keys = m.keys := by
    ext k
    rw [Finmap.mem_keys, Finmap.mem_keys, ← Finmap.lookup_isSome, lookup_mapValues,
      Option.isSome_map, Finmap.lookup_isSome]
  rw [size, keys, size]

end Size

section Order

variable {κ ν : Type}

/-- An iteration order: every map is listed entry by entry, each once. -/
structure Traversal (κ ν : Type) [DecidableEq κ] where
  order : Finmap (fun _ : κ => ν) → List (κ × ν)
  distinct : ∀ m, ((order m).map Prod.fst).Nodup
  exact : ∀ m k v, (k, v) ∈ order m ↔ m.lookup k = some v

noncomputable def listed (m : Finmap (fun _ : κ => ν)) : List (κ × ν) :=
  m.entries.toList.map (fun e => (e.1, e.2))

theorem listed_distinct (m : Finmap (fun _ : κ => ν)) : ((listed m).map Prod.fst).Nodup := by
  have keys : ((m.entries.toList : Multiset (Σ _ : κ, ν))).keys.Nodup := by
    rw [Multiset.coe_toList]
    exact Multiset.nodup_keys.mpr m.nodupKeys
  rw [Multiset.coe_keys, Multiset.coe_nodup] at keys
  simpa [listed, List.keys, Function.comp_def] using keys

variable [DecidableEq κ]

theorem mem_listed (m : Finmap (fun _ : κ => ν)) (k : κ) (v : ν) :
    (k, v) ∈ listed m ↔ m.lookup k = some v := by
  rw [listed, List.mem_map, Finmap.lookup_eq_some_iff]
  constructor
  · rintro ⟨⟨key, value⟩, member, same⟩
    cases same
    exact Multiset.mem_toList.mp member
  · intro member
    exact ⟨⟨k, v⟩, Multiset.mem_toList.mpr member, rfl⟩

noncomputable instance : Inhabited (Traversal κ ν) := ⟨listed, listed_distinct, mem_listed⟩

noncomputable def Traversal.startingAt (first : κ) : Traversal κ ν where
  order m := (listed m).filter (fun e => decide (e.1 = first)) ++
    (listed m).filter (fun e => !decide (e.1 = first))
  distinct m := by
    have split := List.filter_append_perm (fun e : κ × ν => decide (e.1 = first)) (listed m)
    exact (split.map Prod.fst).nodup_iff.mpr (listed_distinct m)
  exact m k v := by
    have split := List.filter_append_perm (fun e : κ × ν => decide (e.1 = first)) (listed m)
    exact split.mem_iff.trans (mem_listed m k v)

theorem startingAt_head (first : κ) (m : Finmap (fun _ : κ => ν)) (member : first ∈ m) :
    ∃ v rest, (Traversal.startingAt first).order m = (first, v) :: rest := by
  obtain ⟨v, found⟩ := Finmap.mem_iff.mp member
  have inside : (first, v) ∈ (listed m).filter (fun e => decide (e.1 = first)) :=
    List.mem_filter.mpr ⟨(mem_listed m first v).mpr found, by simp⟩
  cases front : (listed m).filter (fun e => decide (e.1 = first)) with
  | nil => rw [front] at inside; cases inside
  | cons e rest =>
    obtain ⟨key, value⟩ := e
    have here : (key, value) ∈ (listed m).filter (fun e => decide (e.1 = first)) := by simp [front]
    have same : key = first := by simpa using (List.mem_filter.mp here).2
    subst same
    refine ⟨value, rest ++ (listed m).filter (fun e => !decide (e.1 = key)), ?_⟩
    simp only [Traversal.startingAt, front, List.cons_append]

end Order

section Ordered

variable {κ ν : Type} [LinearOrder κ]

def popFirst (m : Finmap (fun _ : κ => ν)) : Finmap (fun _ : κ => ν) :=
  match m.keys.min with
  | none => m
  | some k => m.erase k

theorem size_popFirst (m : Finmap (fun _ : κ => ν)) : size (popFirst m) = size m - 1 := by
  unfold popFirst
  split
  · rename_i empty
    have none : m.keys = ∅ := Finset.min_eq_top.mp empty
    simp [size, none]
  · rename_i k least
    have member : k ∈ m := Finmap.mem_keys.mp (Finset.mem_of_min least)
    have erased := size_erase m k member
    omega

/- Not unfolded by the elaborator: it would count the limit down one by one. -/
/-- Removes least entries until at most `limit` are left. -/
@[irreducible] def keepLast (limit : Nat) (m : Finmap (fun _ : κ => ν)) : Finmap (fun _ : κ => ν) :=
  popFirst^[size m - limit] m

theorem keepLast_of_le {limit : Nat} {m : Finmap (fun _ : κ => ν)} (small : size m ≤ limit) :
    keepLast limit m = m := by
  rw [keepLast, Nat.sub_eq_zero_of_le small]
  rfl

theorem size_iterate_popFirst (n : Nat) (m : Finmap (fun _ : κ => ν)) :
    size (popFirst^[n] m) = size m - n := by
  induction n generalizing m with
  | zero => rfl
  | succ n ih =>
    rw [Function.iterate_succ_apply, ih, size_popFirst]
    omega

theorem size_keepLast (limit : Nat) (m : Finmap (fun _ : κ => ν)) : size (keepLast limit m) ≤ limit := by
  rw [keepLast, size_iterate_popFirst]
  omega

end Ordered

section Total

variable {κ ν M : Type} [DecidableEq κ] [AddCommMonoid M]

def total (g : ν → M) (m : Finmap (fun _ : κ => ν)) : M := ∑ k ∈ m.keys, (m.lookup k).elim 0 g

@[simp] theorem total_empty (g : ν → M) : total g (∅ : Finmap (fun _ : κ => ν)) = 0 := rfl

theorem total_split (g : ν → M) (m : Finmap (fun _ : κ => ν)) (k : κ) :
    total g m = (m.lookup k).elim 0 g + ∑ other ∈ m.keys.erase k, (m.lookup other).elim 0 g := by
  by_cases member : k ∈ m.keys
  · exact (Finset.add_sum_erase m.keys _ member).symm
  · have absent : m.lookup k = none := Finmap.lookup_eq_none.mpr fun inside => member (Finmap.mem_keys.mpr inside)
    rw [absent, Option.elim_none, zero_add, Finset.erase_eq_of_notMem member, total]

theorem total_modify {g : ν → M} {empty : ν} (nothing : g empty = 0) {f : ν → ν} {x : M}
    (gains : ∀ v, g (f v) = g v + x) (m : Finmap (fun _ : κ => ν)) (k : κ) :
    total g (modify m empty k f) = total g m + x := by
  have changed : ((modify m empty k f).lookup k).elim 0 g = (m.lookup k).elim 0 g + x := by
    rw [modify, Finmap.lookup_insert, Option.elim_some, gains]
    cases m.lookup k with
    | none => rw [Option.getD_none, nothing, Option.elim_none]
    | some v => rfl
  have others : ∑ other ∈ (modify m empty k f).keys.erase k, ((modify m empty k f).lookup other).elim 0 g =
      ∑ other ∈ m.keys.erase k, (m.lookup other).elim 0 g := by
    have keys : (modify m empty k f).keys.erase k = m.keys.erase k := by
      rw [modify, keys_insert]
      ext other
      simp only [Finset.mem_erase, Finset.mem_insert]
      constructor
      · rintro ⟨apart, same | inside⟩
        · exact absurd same apart
        · exact ⟨apart, inside⟩
      · exact fun ⟨apart, inside⟩ => ⟨apart, .inr inside⟩
    rw [keys]
    refine Finset.sum_congr rfl fun other inside => ?_
    rw [modify, Finmap.lookup_insert_of_ne _ (Finset.ne_of_mem_erase inside)]
  rw [total_split g _ k, changed, others, add_right_comm, ← total_split]

end Total

end KiroProxy.Maps

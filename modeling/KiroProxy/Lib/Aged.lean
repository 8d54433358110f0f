import KiroProxy.Lib.Capped

/-! Tables whose keys wait in a queue of their own, the oldest in front: where a new key finds no room, the oldest one
has to go. -/
namespace KiroProxy.Aged

variable {κ ν : Type} [DecidableEq κ] {table : Table κ ν} {order : List κ} {key : κ} {value : ν} {maximum : Nat}

structure Listed (table : Table κ ν) (order : List κ) : Prop where
  once : order.Nodup
  same : ∀ key, key ∈ order ↔ (table.get? key).isSome

def evict (maximum : Nat) (table : Table κ ν) (order : List κ) : Table κ ν × List κ :=
  if table.size < maximum then (table, order)
  else match order with
  | [] => (table, [])
  | oldest :: rest => (table.erase oldest, rest)

/-! ### The number of keys -/

omit [DecidableEq κ] in
theorem size_retain (keep : κ → Bool) (table : Table κ ν) : (table.retain keep).size ≤ table.size :=
  List.length_filter_le _ _

theorem size_erase (table : Table κ ν) (key : κ) : (table.erase key).size ≤ table.size := size_retain _ table

theorem mem_keys : key ∈ table.entries.map Prod.fst ↔ (table.get? key).isSome := by
  rw [List.mem_map, Option.isSome_iff_exists]
  constructor
  · rintro ⟨⟨name, value⟩, inside, rfl⟩
    exact ⟨value, Table.mem_entries.1 inside⟩
  · rintro ⟨value, found⟩
    exact ⟨(key, value), Table.mem_entries.2 found, rfl⟩

theorem Listed.length_eq (listed : Listed table order) : order.length = table.size := by
  have perm : order.Perm (table.entries.map Prod.fst) := by
    refine (List.perm_ext_iff_of_nodup listed.once table.distinct).2 fun key => ?_
    rw [listed.same, mem_keys]
  rw [perm.length_eq, List.length_map, Table.size]

/-! ### What keeps the queue -/

theorem listed_empty : Listed (∅ : Table κ ν) [] := ⟨List.nodup_nil, by simp⟩

theorem Listed.retain (listed : Listed table order) (keep : κ → Bool) : Listed (table.retain keep) (order.filter keep) := by
  refine ⟨listed.once.filter keep, fun key => ?_⟩
  rw [List.mem_filter, listed.same, Table.get?_retain]
  cases keep key <;> simp

theorem Listed.erase (listed : Listed table order) (key : κ) :
    Listed (table.erase key) (order.filter fun other => other ≠ key) := listed.retain _

theorem Listed.insert (listed : Listed table order) (key : κ) (value : ν) :
    Listed (table.insert key value) ((order.filter fun other => other ≠ key) ++ [key]) := by
  constructor
  · refine List.nodup_append.2 ⟨listed.once.filter _, List.nodup_singleton key, ?_⟩
    intro other inside last member
    obtain rfl := List.mem_singleton.1 member
    exact of_decide_eq_true (List.mem_filter.1 inside).2
  · intro other
    rw [List.mem_append, List.mem_filter, listed.same, List.mem_singleton, Table.get?_insert]
    by_cases here : other = key <;> simp [here]

theorem Listed.update (listed : Listed table order) (here : (table.get? key).isSome) (value : ν) :
    Listed (table.insert key value) order := by
  refine ⟨listed.once, fun other => ?_⟩
  rw [listed.same, Table.get?_insert]
  by_cases same : other = key
  · simp [same, here]
  · rw [if_neg same]

theorem Listed.snoc (listed : Listed table order) (absent : table.get? key = none) (value : ν) :
    Listed (table.insert key value) (order ++ [key]) := by
  have apart : ∀ other ∈ order, other ≠ key := by
    rintro other inside rfl
    simpa [absent] using (listed.same other).1 inside
  have kept : order.filter (fun other => other ≠ key) = order :=
    List.filter_eq_self.2 fun other inside => decide_eq_true (apart other inside)
  have inserted := listed.insert key value
  rwa [kept] at inserted

theorem Listed.evict (listed : Listed table order) (maximum : Nat) :
    Listed (evict maximum table order).1 (evict maximum table order).2 := by
  unfold Aged.evict
  split
  · exact listed
  · cases order with
    | nil => exact listed
    | cons oldest rest =>
      have kept : (oldest :: rest).filter (fun other => other ≠ oldest) = rest := by
        rw [List.filter_cons_of_neg (by simp)]
        refine List.filter_eq_self.2 fun other inside => decide_eq_true ?_
        rintro rfl
        exact (List.nodup_cons.1 listed.once).1 inside
      have erased := listed.erase oldest
      rwa [kept] at erased

/-! ### Room for a new key -/

theorem evict_size (listed : Listed table order) (room : 0 < maximum) (size : table.size ≤ maximum) :
    (evict maximum table order).1.size < maximum := by
  have length := (listed.evict maximum).length_eq
  have before := listed.length_eq
  unfold evict at length ⊢
  split
  · assumption
  · rename_i full
    rw [if_neg full] at length
    cases order with
    | nil =>
      rw [List.length_nil] at before
      omega
    | cons oldest rest =>
      simp only [List.length_cons] at before length ⊢
      omega

theorem evict_absent (absent : table.get? key = none) : (evict maximum table order).1.get? key = none := by
  unfold evict
  split
  · exact absent
  · cases order with
    | nil => exact absent
    | cons oldest rest =>
      rw [Table.get?_erase, absent, ite_self]

theorem evict_kept (found : (evict maximum table order).1.get? key = some value) : table.get? key = some value := by
  unfold evict at found
  split at found
  · exact found
  · cases order with
    | nil => exact found
    | cons oldest rest =>
      rw [Table.get?_erase] at found
      split at found
      · cases found
      · exact found

theorem size_insert_le (size : table.size ≤ maximum) (room : table.get? key = none → table.size < maximum) :
    (table.insert key value).size ≤ maximum := by
  rw [Capped.size_insert]
  split
  · exact size
  · rename_i absent
    exact room (Option.not_isSome_iff_eq_none.mp absent)

end KiroProxy.Aged

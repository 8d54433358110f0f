import KiroProxy.Lib.Table

/-! Files that are replaced atomically: written under a temporary name and renamed. What a
process that is stopped leaves behind is what some prefix of its file operations leaves. -/
namespace KiroProxy.Files

/-- A torn file holds a proper prefix of a document, perhaps the empty one. -/
inductive Content (δ : Type) where
  | torn
  | whole (doc : δ)
  deriving DecidableEq

inductive FileOp (π δ : Type) where
  | create (path : π)
  | complete (path : π) (doc : δ)
  | rename (source target : π)
  | remove (path : π)
  deriving DecidableEq

abbrev FileSystem (π δ : Type) := Table π (Content δ)

variable {π δ : Type} [DecidableEq π]

def apply (fs : FileSystem π δ) : FileOp π δ → FileSystem π δ
  | .create path => fs.insert path .torn
  | .complete path doc => fs.insert path (.whole doc)
  | .rename source target =>
    match fs.get? source with
    | none => fs
    | some content => (fs.erase source).insert target content
  | .remove path => fs.erase path

def perform (fs : FileSystem π δ) (ops : List (FileOp π δ)) : FileSystem π δ := ops.foldl apply fs

@[simp] theorem perform_nil (fs : FileSystem π δ) : perform fs [] = fs := rfl

@[simp] theorem perform_cons (fs : FileSystem π δ) (op : FileOp π δ) (rest : List (FileOp π δ)) :
    perform fs (op :: rest) = perform (apply fs op) rest := rfl

theorem perform_append (fs : FileSystem π δ) (first second : List (FileOp π δ)) :
    perform fs (first ++ second) = perform (perform fs first) second := List.foldl_append

/-! ### Atomic writes -/

structure AtomicWrite (π δ : Type) where
  temporary : π
  target : π
  doc : δ

def AtomicWrite.ops (write : AtomicWrite π δ) : List (FileOp π δ) :=
  [.create write.temporary, .complete write.temporary write.doc, .rename write.temporary write.target]

variable {write : AtomicWrite π δ}

theorem get?_perform_write (fs : FileSystem π δ) (path : π) :
    (perform fs write.ops).get? path =
      if path = write.target then some (.whole write.doc)
      else if path = write.temporary then none else fs.get? path := by
  simp only [AtomicWrite.ops, perform_cons, perform_nil, apply, Table.get?_insert, if_pos]
  by_cases target : path = write.target
  · simp [target]
  · by_cases temporary : path = write.temporary <;> simp [target, temporary]

section Writes

variable {writes : List (AtomicWrite π δ)} {fs : FileSystem π δ} {path : π}

theorem get?_perform_other (other : ∀ write ∈ writes, path ≠ write.target ∧ path ≠ write.temporary) :
    (perform fs (writes.flatMap AtomicWrite.ops)).get? path = fs.get? path := by
  induction writes generalizing fs with
  | nil => rfl
  | cons write rest ih =>
    obtain ⟨target, temporary⟩ := other write List.mem_cons_self
    rw [List.flatMap_cons, perform_append, ih fun w member => other w (List.mem_cons_of_mem write member),
      get?_perform_write, if_neg target, if_neg temporary]

theorem get?_perform_cases {content : Content δ}
    (here : (perform fs (writes.flatMap AtomicWrite.ops)).get? path = some content) :
    (∃ write ∈ writes, path = write.target ∧ content = .whole write.doc) ∨ fs.get? path = some content := by
  induction writes generalizing fs with
  | nil => exact .inr here
  | cons write rest ih =>
    rw [List.flatMap_cons, perform_append] at here
    rcases ih here with ⟨w, member, facts⟩ | before
    · exact .inl ⟨w, List.mem_cons_of_mem write member, facts⟩
    · rw [get?_perform_write] at before
      split at before
      case isTrue target => exact .inl ⟨write, List.mem_cons_self, target, (Option.some.inj before).symm⟩
      case isFalse =>
        split at before
        · cases before
        · exact .inr before

theorem exists_perform {content : Content δ} (here : fs.get? path = some content)
    (apart : ∀ write ∈ writes, path ≠ write.temporary) :
    ∃ after, (perform fs (writes.flatMap AtomicWrite.ops)).get? path = some after := by
  induction writes generalizing fs content with
  | nil => exact ⟨content, here⟩
  | cons write rest ih =>
    rw [List.flatMap_cons, perform_append]
    have later : ∀ w ∈ rest, path ≠ w.temporary := fun w member => apart w (List.mem_cons_of_mem write member)
    by_cases target : path = write.target
    · have written : (perform fs write.ops).get? path = some (.whole write.doc) := by
        rw [get?_perform_write, if_pos target]
      exact ih written later
    · have kept : (perform fs write.ops).get? path = some content := by
        rw [get?_perform_write, if_neg target, if_neg (apart write List.mem_cons_self), here]
      exact ih kept later

theorem get?_perform_target (member : write ∈ writes) (once : (writes.map AtomicWrite.target).Nodup)
    (apart : ∀ w ∈ writes, write.target ≠ w.temporary) :
    (perform fs (writes.flatMap AtomicWrite.ops)).get? write.target = some (.whole write.doc) := by
  induction writes generalizing fs with
  | nil => cases member
  | cons first rest ih =>
    rw [List.map_cons, List.nodup_cons] at once
    rw [List.flatMap_cons, perform_append]
    have later : ∀ w ∈ rest, write.target ≠ w.temporary := fun w inside => apart w (List.mem_cons_of_mem first inside)
    rcases List.mem_cons.1 member with rfl | inside
    · rw [get?_perform_other, get?_perform_write, if_pos rfl]
      intro w inside
      refine ⟨?_, later w inside⟩
      intro same
      exact once.1 (same ▸ List.mem_map_of_mem inside)
    · exact ih inside once.2 later

omit [DecidableEq π] in
theorem take_writes (writes : List (AtomicWrite π δ)) (n : Nat) :
    (writes.flatMap AtomicWrite.ops).take n = (writes.take (n / 3)).flatMap AtomicWrite.ops ++
      (writes[n / 3]?.toList.flatMap AtomicWrite.ops).take (n % 3) := by
  induction writes generalizing n with
  | nil => simp
  | cons write rest ih =>
    by_cases early : n < 3
    · rw [Nat.div_eq_of_lt early, Nat.mod_eq_of_lt early, List.flatMap_cons, List.take_append_of_le_length]
      · simp
      · exact Nat.le_of_lt early
    · obtain ⟨m, rfl⟩ := Nat.exists_eq_add_of_le' (Nat.le_of_not_lt early)
      have third : (m + 3) / 3 = m / 3 + 1 := by omega
      have rem : (m + 3) % 3 = m % 3 := by omega
      have block : ∀ tail : List (FileOp π δ), (write.ops ++ tail).take (m + 3) = write.ops ++ tail.take m :=
        fun _ => rfl
      rw [third, rem, List.flatMap_cons, block, ih, List.take_succ_cons, List.flatMap_cons, List.append_assoc,
        List.getElem?_cons_succ]

end Writes

/-! ### Removals -/

def created (ops : List (FileOp π δ)) : List π :=
  ops.filterMap fun
    | .create path => some path
    | _ => none

theorem get?_perform_removes (fs : FileSystem π δ) (paths : List π) (path : π) :
    (perform fs (paths.map FileOp.remove)).get? path = if path ∈ paths then none else fs.get? path := by
  induction paths generalizing fs with
  | nil => simp
  | cons first rest ih =>
    rw [List.map_cons, perform_cons, ih]
    by_cases here : path = first <;> by_cases later : path ∈ rest <;> simp [apply, here, later]

/-! ### Clearing up after a write that has failed -/

section Cleanup

variable {writes : List (AtomicWrite π δ)} {fs : FileSystem π δ} {path : π} {n : Nat}

omit [DecidableEq π] in
theorem created_writes (writes : List (AtomicWrite π δ)) :
    created (writes.flatMap AtomicWrite.ops) = writes.map AtomicWrite.temporary := by
  induction writes with
  | nil => rfl
  | cons write rest ih =>
    rw [List.map_cons, ← ih]
    rfl

omit [DecidableEq π] in
theorem created_take {ops : List (FileOp π δ)} (member : path ∈ created (ops.take n)) : path ∈ created ops :=
  ((List.take_sublist n ops).filterMap _).subset member

theorem get?_perform_part (part : n < 3) (other : path ∉ created (write.ops.take n)) :
    (perform fs (write.ops.take n)).get? path = fs.get? path := by
  match n with
  | 0 => rfl
  | 1 | 2 =>
    have apart : path ≠ write.temporary := by simpa [created, AtomicWrite.ops] using other
    simp [AtomicWrite.ops, apply, apart]
  | n + 3 => omega

theorem get?_cleanup (fs : FileSystem π δ) (writes : List (AtomicWrite π δ)) (n : Nat) (path : π) :
    (perform fs ((writes.flatMap AtomicWrite.ops).take n ++
      (created ((writes.flatMap AtomicWrite.ops).take n)).map .remove)).get? path =
      if path ∈ created ((writes.flatMap AtomicWrite.ops).take n) then none
      else (perform fs ((writes.take (n / 3)).flatMap AtomicWrite.ops)).get? path := by
  rw [perform_append, get?_perform_removes]
  split
  · rfl
  · rename_i permanent
    rw [take_writes, created, List.filterMap_append, List.mem_append, not_or] at permanent
    rw [take_writes, perform_append]
    cases next : writes[n / 3]? with
    | none => simp
    | some write =>
      rw [next] at permanent
      simp only [Option.toList_some, List.flatMap_singleton] at permanent ⊢
      exact get?_perform_part (Nat.mod_lt n (by omega)) permanent.2

end Cleanup

end KiroProxy.Files

import KiroProxy.Store.Durable

/-! A crash in the middle of a save: a load of the files it leaves shows every account as
before the save or as after it, unless it has torn a delta's temporary file. -/
namespace KiroProxy.Store

open Files Run

/-- The files left are loaded, with every account in its old state or in its new one. -/
def Survives (file : String) (disk : Disk) (store : AccountStore) (left : Disk) : Prop :=
  ∃ before after, load file disk = .ok before ∧ load file left = .ok after ∧ ∀ id,
    byId after.accounts id = byId before.accounts id ∨ byId after.accounts id = byId store.accounts id

section Crash

variable {file : String} {disk left : Disk} {store : AccountStore} {base : List Account}
  {outside : AccountStore.Surroundings} {n : Nat}

theorem cut_base (saves : store.savesDeltas file outside disk = true) (n : Nat) :
    (perform disk ((store.saveOps file outside disk).take n)).get? (.beside file) = disk.get? (.beside file) := by
  rw [saveOps_deltas saves, take_deltaOps, perform_append]
  cases store.deltas[n / 3]? with
  | none => simpa using deltaOps_base disk (store.deltas.take (n / 3))
  | some delta =>
    rw [Option.toList_some, List.flatMap_singleton, get?_perform_part (Nat.mod_lt n (by omega)), deltaOps_base]
    intro member
    have temporary := created_take member
    simp [created, AtomicWrite.ops, AccountStore.deltaWrite] at temporary

theorem torn_fails (tears : store.tears file outside disk n = true) :
    ¬Survives file disk store (perform disk ((store.saveOps file outside disk).take n)) := by
  rintro ⟨before, after, -, loads, -⟩
  obtain ⟨name, torn⟩ := cut_torn n tears
  simp only [AccountStore.tears, Bool.and_eq_true] at tears
  have saves := tears.1.1
  have there : ((perform disk ((store.saveOps file outside disk).take n)).get? (.beside file)).isSome = true := by
    rw [cut_base saves]
    simp only [AccountStore.savesDeltas, Bool.and_eq_true] at saves
    obtain ⟨content, here, -⟩ := (Option.any_eq_true _ _).1 saves.1.1.2
    rw [here, Option.isSome_some]
  obtain ⟨message, fails⟩ := load_of_torn there torn
  rw [fails] at loads
  cases loads

theorem partly_survives (tidy : Tidy file disk base) (sound : Sound store) (partly : Partly file outside disk store left) :
    Survives file disk store left := by
  obtain ⟨old, loads_old, old_keyed, old_shown⟩ := tidy_load tidy
  obtain ⟨base', keyed, held⟩ := partly.held tidy sound
  obtain ⟨new, loads_new, loaded⟩ := load_of_readable keyed held (partly.readable tidy sound)
  refine ⟨{ accounts := old }, { accounts := new }, loads_old, loads_new, fun id => ?_⟩
  by_cases plain : plainId id = true
  · have shows := partly.shows tidy sound held loaded plain
    rw [← old_shown id plain] at shows
    exact shows
  · left
    rw [loaded.keyed.byId_none plain, old_keyed.byId_none plain]

theorem first_survives (missing : disk.get? (.beside file) = none) (bare : ∀ name, disk.get? (.delta name) = none)
    (sound : Sound store) (n : Nat) :
    Survives file disk store (perform disk ((store.saveOps file outside disk).take n)) := by
  have rewrites : store.savesDeltas file outside disk = false := by simp [AccountStore.savesDeltas, missing]
  have before : load file disk = .ok {} := by simp [load, missing]
  rcases rewrite_cut rewrites n with ⟨untouched, -⟩ | ⟨new, fewer⟩
  · refine ⟨{}, {}, before, ?_, fun _ => .inl rfl⟩
    simp [load, untouched, missing]
  · have gone : ∀ name, (perform disk ((store.saveOps file outside disk).take n)).get? (.delta name) = none := by
      intro name
      by_contra some_here
      obtain ⟨content, here⟩ := Option.ne_none_iff_exists'.1 some_here
      have there := fewer name content here
      rw [bare] at there
      cases there
    obtain ⟨tidy, shows⟩ := tidy_based sound new gone
    obtain ⟨accounts, loads, keyed, shown⟩ := tidy_load tidy
    refine ⟨{}, { accounts := accounts }, before, loads, fun id => ?_⟩
    by_cases plain : plainId id = true
    · exact .inr ((shown id plain).trans (shows id))
    · exact .inl (keyed.byId_none plain)

end Crash

/-- A crash after any file operation of a save is survived exactly if it does not fall into
the writing of a delta's temporary file. -/
theorem survives_iff (file : String) (actions : List Action) (fine : ∀ action ∈ actions, action.fine)
    (outside : AccountStore.Surroundings) (n : Nat) :
    let s := run (step file) {} actions
    Survives file s.disk s.store (perform s.disk ((s.store.saveOps file outside s.disk).take n)) ↔
      s.store.tears file outside s.disk n = false := by
  intro s
  have consistent : Consistent file false s := run_consistent rfl fine (.inr fun _ => rfl) (by simp)
  constructor
  · intro survives
    by_contra tears
    exact torn_fails (by simpa using tears) survives
  · intro whole
    rcases consistent.files with ⟨missing, bare⟩ | ⟨base, tidy, -⟩
    · exact first_survives missing (bare.resolve_left (by simp)) consistent.sound n
    · exact partly_survives tidy consistent.sound (cut_partly tidy n whole)

theorem survives_iff_sample : Survives "accounts.json" sampleState.disk sampleState.store
    (perform sampleState.disk
      ((sampleState.store.saveOps "accounts.json" sampleSurroundings sampleState.disk).take 2)) :=
  (survives_iff "accounts.json" sampleActions sampleActions_fine sampleSurroundings 2).2 (by decide)

/-- The crash comes right after the temporary file of the one delta has been created. -/
theorem crash_not_survived : ¬ ∀ (file : String) (actions : List Action), (∀ action ∈ actions, action.fine) →
    (∀ action ∈ actions, action.faultless = true) → ∀ outside n,
    let s := run (step file) {} actions
    Survives file s.disk s.store (perform s.disk ((s.store.saveOps file outside s.disk).take n)) := by
  intro survives
  have left := survives "accounts.json" sampleActions sampleActions_fine (by decide) sampleSurroundings 1
  exact torn_fails (by decide) left

end KiroProxy.Store

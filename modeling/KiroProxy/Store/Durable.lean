import KiroProxy.Lib.Run
import KiroProxy.Store.Saves

/-! A store whose save has succeeded is what a later load returns, whatever files the saves
before it have produced. -/
namespace KiroProxy.Store

open Files Run

/-! ### Mutations -/

section Mutations

variable {store : AccountStore} {accounts : List Account} {account : Account} {id : String}

structure Edits (store store' : AccountStore) : Prop where
  sound : Sound store'
  marked : ∀ id, store'.dirty.get? id = none → store.dirty.get? id = none ∧ byId store'.accounts id = byId store.accounts id

theorem Edits.refl (sound : Sound store) : Edits store store := ⟨sound, fun _ clean => ⟨clean, rfl⟩⟩

theorem edits_touch (sound : Sound store) (keyed : Keyed accounts) (plain : plainId id = true)
    (others : ∀ other, other ≠ id → byId accounts other = byId store.accounts other) :
    Edits store ({ store with accounts := accounts }.touch id (byId accounts id)) := by
  constructor
  · refine ⟨keyed, ?_⟩
    intro other pending here
    simp only [AccountStore.touch, Table.get?_insert] at here
    split at here
    case isTrue same =>
      subst same
      exact ⟨plain, (Option.some.inj here).symm⟩
    case isFalse different =>
      obtain ⟨fine, shown⟩ := sound.pending other pending here
      exact ⟨fine, shown.trans (others other different).symm⟩
  · intro other clean
    simp only [AccountStore.touch, Table.get?_insert] at clean
    split at clean
    · cases clean
    · rename_i different
      exact ⟨clean, others other different⟩

theorem insert_edits (sound : Sound store) (plain : plainId account.id = true) {store' : AccountStore}
    (accepted : store.insert account = .ok store') : Edits store store' := by
  unfold AccountStore.insert at accepted
  split at accepted
  · cases accepted
  case isFalse fresh =>
    split at accepted
    · cases accepted
    split at accepted
    · cases accepted
    cases accepted
    have absent : byId store.accounts account.id = none := by
      rw [byId, List.find?_eq_none]
      intro existing member same
      exact fresh (List.any_eq_true.2 ⟨existing, member, same⟩)
    have own : byId (store.accounts ++ [account]) account.id = some account := by
      rw [byId_append, absent]
      simp [byId]
    rw [← own]
    apply edits_touch sound _ plain
    · intro other different
      have skip : byId [account] other = none := by simp [byId, Ne.symm different]
      rw [byId_append, skip, Option.or_none]
    · constructor
      · rw [List.map_append, List.nodup_append]
        refine ⟨sound.keyed.distinct, by simp, ?_⟩
        intro existing inside new added same
        obtain ⟨stored, member, rfl⟩ := List.mem_map.1 inside
        obtain rfl : new = account.id := by simpa using added
        have found := byId_of_mem sound.keyed.distinct member
        rw [same, absent] at found
        cases found
      · intro existing member
        rcases List.mem_append.1 member with old | new
        · exact sound.keyed.plain existing old
        · rw [List.mem_singleton.1 new]
          exact plain

theorem find_split {hit : Account → Bool} (found : accounts.find? hit = some account) :
    ∃ front back, accounts = front ++ account :: back ∧ accounts.eraseP hit = front ++ back ∧
      ∀ change, AccountStore.updateFirst hit change accounts = front ++ change account :: back := by
  induction accounts with
  | nil => cases found
  | cons first rest ih =>
    cases hits : hit first with
    | true =>
      obtain rfl : first = account := by simpa [hits] using found
      exact ⟨[], rest, rfl, by simp [hits], fun change => by simp [AccountStore.updateFirst, hits]⟩
    | false =>
      obtain ⟨front, back, rfl, erased, updated⟩ := ih (by simpa [hits] using found)
      refine ⟨first :: front, back, rfl, ?_, ?_⟩
      · rw [List.eraseP_cons_of_neg (by simp [hits]), erased]
        rfl
      · intro change
        rw [AccountStore.updateFirst, hits, updated]
        rfl

theorem remove_edits (sound : Sound store) (idOrEmail : String) : Edits store (store.remove idOrEmail).1 := by
  unfold AccountStore.remove
  split
  · exact .refl sound
  case h_2 account found =>
    obtain ⟨front, back, whole, erased, -⟩ := find_split found
    have distinct := whole ▸ sound.keyed.distinct
    have gone : byId (front ++ back) account.id = none := by
      rw [List.map_append, List.map_cons, List.nodup_middle, List.nodup_cons, ← List.map_append] at distinct
      rw [byId, List.find?_eq_none]
      intro other member same
      exact distinct.1 (of_decide_eq_true same ▸ List.mem_map_of_mem member)
    show Edits store ({ store with accounts := store.accounts.eraseP _ }.touch account.id none)
    rw [erased, ← gone]
    apply edits_touch sound
    · constructor
      · exact distinct.sublist ((List.sublist_cons_self account back).append_left front |>.map _)
      · intro other member
        refine sound.keyed.plain other ?_
        rw [whole]
        exact ((List.sublist_cons_self account back).append_left front).subset member
    · exact sound.keyed.plain account (whole ▸ by simp)
    · intro other different
      rw [whole, byId_middle distinct, if_neg (Ne.symm different)]

theorem updateFirst_edits (sound : Sound store) {hit : Account → Bool} (found : store.accounts.find? hit = some account)
    {change : Account → Account} (keeps : (change account).id = account.id) :
    Edits store ({ store with accounts := AccountStore.updateFirst hit change store.accounts }.touch (change account).id
      (some (change account))) := by
  obtain ⟨front, back, whole, -, updated⟩ := find_split found
  have distinct := whole ▸ sound.keyed.distinct
  have ids : (front ++ change account :: back).map Account.id = (front ++ account :: back).map Account.id := by
    simp [keeps]
  have own : byId (front ++ change account :: back) (change account).id = some (change account) := by
    rw [byId_middle (by rw [ids]; exact distinct), if_pos rfl]
  rw [updated, ← own]
  have plain : plainId account.id = true := sound.keyed.plain account (whole ▸ by simp)
  apply edits_touch sound
  · constructor
    · rw [ids]
      exact distinct
    · intro other member
      rcases List.mem_append.1 member with before | after
      · exact sound.keyed.plain other (whole ▸ List.mem_append_left _ before)
      · rcases List.mem_cons.1 after with rfl | behind
        · rw [keeps]
          exact plain
        · exact sound.keyed.plain other (whole ▸ List.mem_append_right _ (List.mem_cons_of_mem _ behind))
  · rw [keeps]
    exact plain
  · intro other different
    rw [whole, byId_middle (by rw [ids]; exact distinct), byId_middle distinct, if_neg (Ne.symm different),
      if_neg (fun same => different (keeps.trans same).symm)]

end Mutations

/-! ### Runs -/

def Action.fine : Action → Prop
  | .insert account => plainId account.id = true
  | .update _ mutate => ∀ account, (mutate account).id = account.id
  | _ => True

def Action.faultless : Action → Bool
  | .save _ fault => fault.isNone
  | _ => true

def Action.saves : Action → Bool
  | .save _ _ => true
  | _ => false

def Agrees (disk : Disk) (base : List Account) (store : AccountStore) : Prop :=
  ∀ id, plainId id = true → store.dirty.get? id = none → view disk base id = byId store.accounts id

/-- Without a base the store is new, and leftover deltas are for a first save to clear. -/
structure Consistent (file : String) (calm : Bool) (s : State) : Prop where
  sound : Sound s.store
  files : s.disk.get? (.beside file) = none ∧ (calm = true ∨ ∀ name, s.disk.get? (.delta name) = none) ∨
    ∃ base, Tidy file s.disk base ∧ Agrees s.disk base s.store

section Steps

variable {file : String} {calm : Bool} {s : State} {disk : Disk} {base : List Account} {store : AccountStore}
  {outside : AccountStore.Surroundings}

theorem Consistent.edit {store' : AccountStore} (consistent : Consistent file calm s) (edits : Edits s.store store') :
    Consistent file calm { s with store := store' } := by
  refine ⟨edits.sound, consistent.files.imp_right ?_⟩
  rintro ⟨base, tidy, agrees⟩
  refine ⟨base, tidy, fun id plain clean => ?_⟩
  obtain ⟨before, same⟩ := edits.marked id clean
  rw [agrees id plain before, same]

theorem tidy_load (tidy : Tidy file disk base) : ∃ accounts, load file disk = .ok { accounts := accounts } ∧
    Keyed accounts ∧ ∀ id, plainId id = true → byId accounts id = view disk base id := by
  obtain ⟨accounts, loads, loaded⟩ := load_of_readable tidy.keyed tidy.held tidy.readable
  exact ⟨accounts, loads, loaded.keyed, fun id plain => tidy.shows loaded plain⟩

theorem sound_clean {accounts : List Account} (keyed : Keyed accounts) : Sound { accounts := accounts } :=
  ⟨keyed, fun id account here => by cases here⟩

theorem Consistent.reload (consistent : Consistent file calm s) : Consistent file calm (step file s .reload) := by
  rcases consistent.files with ⟨missing, leftover⟩ | ⟨base, tidy, agrees⟩
  · have loads : load file s.disk = .ok {} := by simp [load, missing]
    simp only [step, loads, Except.toOption, Option.getD_some]
    exact ⟨sound_clean ⟨List.nodup_nil, by simp⟩, .inl ⟨missing, leftover⟩⟩
  · obtain ⟨accounts, loads, keyed, shows⟩ := tidy_load tidy
    simp only [step, loads, Except.toOption, Option.getD_some]
    exact ⟨sound_clean keyed, .inr ⟨base, tidy, fun id plain _ => (shows id plain).symm⟩⟩

theorem tidy_based (sound : Sound store) (base : (disk.get? (.beside file)) =
    some (.whole (encodeAccounts store.accounts store.compressionThreshold))) (bare : ∀ name, disk.get? (.delta name) = none) :
    Tidy file disk store.accounts ∧ ∀ id, view disk store.accounts id = byId store.accounts id := by
  refine ⟨⟨sound.keyed, ?_, ?_⟩, fun id => view_of_base (bare _)⟩
  · rw [base, Option.bind_some, decode_encode]
  · intro name content here
    rw [bare] at here
    cases here

theorem saved_files (outside : AccountStore.Surroundings) (consistent : Consistent file calm ⟨disk, store⟩) :
    ∃ base, Tidy file (perform disk (store.saveOps file outside disk)) base ∧ ∀ id, plainId id = true →
      view (perform disk (store.saveOps file outside disk)) base id = byId store.accounts id := by
  have sound : Sound store := consistent.sound
  cases stale : store.upToDate file disk with
  | true =>
    simp only [AccountStore.saveOps, stale, if_pos, perform_nil]
    simp only [AccountStore.upToDate, Bool.and_eq_true, decide_eq_true_eq] at stale
    rcases consistent.files with ⟨missing, -⟩ | ⟨base, tidy, agrees⟩
    · obtain ⟨content, there⟩ := Option.isSome_iff_exists.1 stale.1.2
      cases missing.symm.trans there
    · refine ⟨base, tidy, fun id plain => agrees id plain ?_⟩
      have empty : store.dirty.entries = [] := List.length_eq_zero_iff.1 stale.2
      simp [Table.get?, empty]
  | false =>
    cases saves : store.savesDeltas file outside disk with
    | false =>
      obtain ⟨base, bare⟩ := rewrite_done stale saves
      obtain ⟨tidy, shows⟩ := tidy_based sound base bare
      exact ⟨store.accounts, tidy, fun id _ => shows id⟩
    | true =>
      rcases consistent.files with ⟨missing, -⟩ | ⟨base, tidy, agrees⟩
      · simp only [AccountStore.savesDeltas, Bool.and_eq_true] at saves
        obtain ⟨content, there, -⟩ := (Option.any_eq_true _ _).1 saves.1.1.2
        cases missing.symm.trans there
      · rw [saveOps_deltas saves]
        have partly : Partly file outside disk store (perform disk (deltaOps outside store.deltas)) :=
          deltaOps_partly tidy fun _ member => member
        have same : (perform disk (deltaOps outside store.deltas)).get? (.beside file) = disk.get? (.beside file) :=
          deltaOps_base disk store.deltas
        refine ⟨base, ⟨tidy.keyed, by rw [same, tidy.held], ?_⟩, ?_⟩
        · intro name content here
          rcases deltaOps_cases here with ⟨delta, member, named, whole⟩ | old
          · exact ⟨delta, whole, sound.fits member, named⟩
          · exact tidy.named name content old
        · intro id plain
          rw [deltas_done sound plain]
          cases pending : store.dirty.get? id with
          | some account => exact (sound.pending id account pending).2
          | none => exact agrees id plain pending

theorem failed_files (consistent : Consistent file calm ⟨disk, store⟩) (n : Nat) (fault : calm = false) :
    Consistent file calm ⟨(store.save file outside disk (some n)).1, store⟩ := by
  have sound : Sound store := consistent.sound
  refine ⟨sound, ?_⟩
  rcases consistent.files with ⟨missing, leftover⟩ | ⟨base, tidy, agrees⟩
  · have bare : ∀ name, disk.get? (.delta name) = none := leftover.resolve_left (by simp [fault])
    have saves : store.savesDeltas file outside disk = false := by
      have gone : disk.get? (.beside file) = none := missing
      simp [AccountStore.savesDeltas, gone]
    have base := failed_rewrite saves n
      (fun same => tempName_ne_self outside file (Path.beside.inj same).symm)
    have deltas : ∀ name, (store.save file outside disk (some n)).1.get? (.delta name) = _ :=
      fun name => failed_rewrite saves n fun same => by cases same
    rcases rewrite_cut saves n with ⟨untouched, same⟩ | ⟨new, fewer⟩
    · refine .inl ⟨by rw [base, untouched]; exact missing, .inr fun name => ?_⟩
      rw [deltas, same, bare]
    · have none_left : ∀ name, (store.save file outside disk (some n)).1.get? (.delta name) = none := by
        intro name
        rw [deltas]
        by_contra some_here
        obtain ⟨content, here⟩ := Option.ne_none_iff_exists'.1 some_here
        have before := fewer name content here
        rw [bare] at before
        cases before
      obtain ⟨tidy, shows⟩ := tidy_based sound (base.trans new) none_left
      exact .inr ⟨store.accounts, tidy, fun id _ _ => shows id⟩
  · have failed : Partly file outside disk store (store.save file outside disk (some n)).1 ∧ _ := failed_partly tidy n
    obtain ⟨partly, clean⟩ := failed
    obtain ⟨base', after⟩ := partly.tidy tidy sound fun delta _ => clean _
    refine .inr ⟨base', after, fun id plain pending => ?_⟩
    obtain ⟨accounts, -, loaded⟩ := load_of_readable after.keyed after.held after.readable
    have old := agrees id plain pending
    rw [← after.shows loaded plain]
    rcases partly.shows tidy sound after.held loaded plain with before | now
    · rw [before, old]
    · exact now

theorem save_consistent (consistent : Consistent file calm ⟨disk, store⟩) (fault : Option Nat)
    (quiet : calm = true → fault.isNone = true) :
    Consistent file calm ⟨(store.save file outside disk fault).1, (store.save file outside disk fault).2.1⟩ := by
  cases fault with
  | none =>
    obtain ⟨base, tidy, shows⟩ := saved_files outside consistent
    refine ⟨⟨consistent.sound.keyed, fun id account here => by cases here⟩, .inr ⟨base, tidy, ?_⟩⟩
    exact fun id plain _ => shows id plain
  | some n =>
    have fault : calm = false := by
      cases calm with
      | false => rfl
      | true => cases quiet rfl
    have same : (store.save file outside disk (some n)).2.1 = store := by
      unfold AccountStore.save
      dsimp only
      split <;> rfl
    rw [same]
    exact failed_files consistent n fault

theorem step_consistent (action : Action) (consistent : Consistent file calm s)
    (allowed : action.fine ∧ (calm = true → action.faultless = true)) : Consistent file calm (step file s action) := by
  have sound := consistent.sound
  cases action with
  | insert account =>
    apply consistent.edit
    cases accepted : s.store.insert account with
    | error message => exact .refl sound
    | ok store' => exact insert_edits sound allowed.1 accepted
  | remove idOrEmail => exact consistent.edit (remove_edits sound idOrEmail)
  | update idOrEmail mutate =>
    apply consistent.edit
    unfold AccountStore.update
    split
    · exact .refl sound
    case h_2 account found => exact updateFirst_edits sound found (allowed.1 account)
  | replaceIfChanged account =>
    apply consistent.edit
    unfold AccountStore.replaceIfChanged
    split
    · exact .refl sound
    case h_2 stored found =>
      split
      · exact .refl sound
      · have same : stored.id = account.id := by simpa using List.find?_some found
        exact updateFirst_edits sound found same.symm
  | setCompressionThreshold threshold => exact consistent.edit ⟨⟨sound.keyed, sound.pending⟩, fun _ clean => ⟨clean, rfl⟩⟩
  | setIncrementalWrite enabled => exact consistent.edit ⟨⟨sound.keyed, sound.pending⟩, fun _ clean => ⟨clean, rfl⟩⟩
  | save outside fault => exact save_consistent consistent fault allowed.2
  | reload => exact consistent.reload

theorem save_of_ok {fault : Option Nat} (ok : (store.save file outside disk fault).2.2 = true) :
    (store.save file outside disk fault).1 = perform disk (store.saveOps file outside disk) := by
  cases fault with
  | none => rfl
  | some n =>
    unfold AccountStore.save at ok ⊢
    dsimp only at ok ⊢
    split
    · rename_i idle
      rw [idle, perform_nil]
    · rename_i busy
      rw [if_neg busy] at ok
      cases ok

theorem step_disk {action : Action} (unsaved : action.saves = false) : (step file s action).disk = s.disk := by
  cases action with
  | save outside fault => cases unsaved
  | _ => rfl

theorem run_consistent {actions : List Action} (missing : disk.get? (.beside file) = none)
    (fine : ∀ action ∈ actions, action.fine) (leftover : calm = true ∨ ∀ name, disk.get? (.delta name) = none)
    (quiet : calm = true → ∀ action ∈ actions, action.faultless = true) :
    Consistent file calm (run (step file) ⟨disk, {}⟩ actions) := by
  refine run_keeps_mem (fun s action consistent allowed => step_consistent action consistent allowed)
    (fun action member => ⟨fine action member, fun calm => quiet calm action member⟩) ?_
  exact ⟨sound_clean ⟨List.nodup_nil, by simp⟩, .inl ⟨missing, leftover⟩⟩

end Steps

/-- Whatever a save that returned without an error held, the next load returns. -/
theorem saved_is_loaded (file : String) (disk : Disk) (missing : disk.get? (.beside file) = none) (actions : List Action)
    (fine : ∀ action ∈ actions, action.fine) (outside : AccountStore.Surroundings) (fault : Option Nat)
    (leftover : (∀ name, disk.get? (.delta name) = none) ∨
      (∀ action ∈ actions, action.faultless = true) ∧ fault.isNone = true)
    (saved : ((run (step file) ⟨disk, {}⟩ actions).save file outside fault).2 = true)
    (later : List Action) (unsaved : ∀ action ∈ later, action.saves = false) :
    ∃ loaded, load file (run (step file) ((run (step file) ⟨disk, {}⟩ actions).save file outside fault).1 later).disk =
        .ok loaded ∧
      loaded.accounts.Perm (run (step file) ⟨disk, {}⟩ actions).store.accounts := by
  generalize reached : run (step file) ⟨disk, {}⟩ actions = s at saved ⊢
  have consistent : ∃ calm, Consistent file calm s := by
    rw [← reached]
    rcases leftover with bare | calm
    · exact ⟨false, run_consistent missing fine (.inr bare) (by simp)⟩
    · exact ⟨true, run_consistent missing fine (.inl rfl) fun _ => calm.1⟩
  obtain ⟨calm, consistent⟩ := consistent
  have disk_kept : (run (step file) (s.save file outside fault).1 later).disk =
      perform s.disk (s.store.saveOps file outside s.disk) := by
    have kept : (run (step file) (s.save file outside fault).1 later).disk = (s.save file outside fault).1.disk := by
      apply run_keeps_mem (P := fun t : State => t.disk = (s.save file outside fault).1.disk) ?_ unsaved rfl
      exact fun t action same quiet => (step_disk quiet).trans same
    exact kept.trans (save_of_ok saved)
  obtain ⟨base, tidy, shows⟩ := saved_files outside consistent
  obtain ⟨accounts, loads, keyed, shown⟩ := tidy_load tidy
  refine ⟨{ accounts := accounts }, by rw [disk_kept, loads], ?_⟩
  apply perm_of_byId keyed.distinct consistent.sound.keyed.distinct
  intro id
  by_cases plain : plainId id = true
  · rw [shown id plain, shows id plain]
  · rw [keyed.byId_none plain, consistent.sound.keyed.byId_none plain]

def sampleAccount (id email : String) : Account where
  id := id
  email := email
  machineId := "0"
  credentials := { accessToken := "token", region := "us-east-1", expiresAt := 0, authMethod := .idc }
  createdAt := 0

def sampleSurroundings : AccountStore.Surroundings where
  unique _ := "41.6d0c"
  listing := id
  exact _ := .refl _
  mentions _ := false

def sampleActions : List Action :=
  [.insert (sampleAccount "acc_1" "a@example.com"), .insert (sampleAccount "acc_2" "b@example.com"),
    .insert (sampleAccount "acc_3" "c@example.com"), .setCompressionThreshold 2, .save sampleSurroundings none,
    .update "b@example.com" fun account => { account with label := some "changed" }]

def sampleState : State := run (step "accounts.json") {} sampleActions

theorem sampleActions_fine : ∀ action ∈ sampleActions, action.fine := by
  simp only [sampleActions, List.forall_mem_cons, Action.fine]
  refine ⟨by decide, by decide, by decide, ?_⟩
  simp

theorem saved_is_loaded_delta :
    ((sampleState.save "accounts.json" sampleSurroundings none).1.disk.get? (.delta "acc_2.json")).isSome = true ∧
      ∃ loaded, load "accounts.json" (sampleState.save "accounts.json" sampleSurroundings none).1.disk = .ok loaded ∧
        loaded.accounts.Perm sampleState.store.accounts :=
  ⟨by decide, saved_is_loaded "accounts.json" ∅ rfl sampleActions sampleActions_fine sampleSurroundings none
    (.inl fun _ => rfl) rfl [] (by simp)⟩

end KiroProxy.Store

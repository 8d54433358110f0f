import KiroProxy.Lib.Bytes
import KiroProxy.Store.Accounts

/-! What a load makes of the files: the base, overlaid with the deltas found beside it. -/
namespace KiroProxy.Store

open Files

def byId (accounts : List Account) (id : String) : Option Account := accounts.find? (·.id = id)

def plainId (id : String) : Bool := id.toList.all fun c => c.isAlphanum ∨ c = '-' ∨ c = '_'

structure Keyed (accounts : List Account) : Prop where
  distinct : (accounts.map Account.id).Nodup
  plain : ∀ account ∈ accounts, plainId account.id = true

def AccountDelta.fits (delta : AccountDelta) : Prop :=
  plainId delta.id = true ∧ ∀ account, delta.account = some account → account.id = delta.id

/-! ### Lookups by id -/

section ById

variable {accounts front back : List Account} {account : Account} {id : String}

theorem byId_mem (found : byId accounts id = some account) : account ∈ accounts ∧ account.id = id :=
  ⟨List.mem_of_find?_eq_some found, by simpa using List.find?_some found⟩

theorem byId_of_mem (distinct : (accounts.map Account.id).Nodup) (member : account ∈ accounts) :
    byId accounts account.id = some account := by
  induction accounts with
  | nil => cases member
  | cons first rest ih =>
    rw [List.map_cons, List.nodup_cons] at distinct
    rcases List.mem_cons.1 member with rfl | later
    · simp [byId]
    · have other : first.id ≠ account.id := fun same => distinct.1 (same ▸ List.mem_map_of_mem later)
      have skip : byId (first :: rest) account.id = byId rest account.id := by simp [byId, other]
      rw [skip, ih distinct.2 later]

theorem byId_append (front back : List Account) (id : String) :
    byId (front ++ back) id = (byId front id).or (byId back id) := List.find?_append

theorem byId_toList (account : Option Account) (id : String) :
    byId account.toList id = account.filter (·.id = id) := by
  cases account with
  | none => rfl
  | some account => by_cases same : account.id = id <;> simp [byId, Option.filter, same]

theorem byId_filter_ne (accounts : List Account) (other id : String) :
    byId (accounts.filter fun account => account.id ≠ other) id = if id = other then none else byId accounts id := by
  rw [byId, List.find?_filter]
  split
  case isTrue same =>
    subst same
    rw [List.find?_eq_none]
    simp
  case isFalse different =>
    refine congrArg (fun hit => accounts.find? hit) ?_
    funext account
    by_cases same : account.id = id
    · simp [same, different]
    · simp [same]

theorem byId_middle (distinct : ((front ++ account :: back).map Account.id).Nodup) (id : String) :
    byId (front ++ account :: back) id = if account.id = id then some account else byId (front ++ back) id := by
  split
  case isTrue same =>
    rw [← same]
    exact byId_of_mem distinct (by simp)
  case isFalse other => simp [byId, other]

theorem perm_of_byId {second : List Account} (first_distinct : (accounts.map Account.id).Nodup)
    (second_distinct : (second.map Account.id).Nodup) (same : ∀ id, byId accounts id = byId second id) :
    accounts.Perm second := by
  rw [List.perm_ext_iff_of_nodup first_distinct.of_map second_distinct.of_map]
  intro account
  constructor
  · intro member
    have found := byId_of_mem first_distinct member
    exact (byId_mem (same _ ▸ found)).1
  · intro member
    have found := byId_of_mem second_distinct member
    exact (byId_mem (same account.id ▸ found)).1

end ById

/-! ### Deltas -/

section Deltas

variable {accounts : List Account} {deltas : List AccountDelta} {delta : AccountDelta} {id : String}

theorem byId_applyDelta (fits : delta.fits) (accounts : List Account) (id : String) :
    byId (applyDelta accounts delta) id = if id = delta.id then delta.account else byId accounts id := by
  rw [applyDelta, byId_append, byId_filter_ne, byId_toList]
  cases shown : delta.account with
  | none => by_cases same : id = delta.id <;> simp [same]
  | some account =>
    have own := fits.2 account shown
    by_cases same : id = delta.id
    · simp [Option.filter, same, own]
    · simp [Option.filter, same, own, Ne.symm same]

theorem keyed_applyDelta (fits : delta.fits) (keyed : Keyed accounts) : Keyed (applyDelta accounts delta) := by
  constructor
  · rw [applyDelta, List.map_append, List.nodup_append]
    refine ⟨keyed.distinct.sublist (List.filter_sublist.map _), ?_, ?_⟩
    · cases delta.account <;> simp
    · intro id kept id' added
      obtain ⟨account, inside, rfl⟩ := List.mem_map.1 kept
      obtain ⟨new, shown, rfl⟩ := List.mem_map.1 added
      have own := fits.2 new (by simpa using shown)
      have other := (List.mem_filter.1 inside).2
      rw [own]
      simpa using other
  · intro account member
    rcases List.mem_append.1 member with kept | added
    · exact keyed.plain account (List.mem_of_mem_filter kept)
    · rw [fits.2 account (by simpa using added)]
      exact fits.1

theorem foldl_applyDelta (fits : ∀ delta ∈ deltas, delta.fits) (keyed : Keyed accounts) :
    Keyed (deltas.foldl applyDelta accounts) ∧ ∀ id,
      (∃ delta ∈ deltas, delta.id = id ∧ byId (deltas.foldl applyDelta accounts) id = delta.account) ∨
        (∀ delta ∈ deltas, delta.id ≠ id) ∧ byId (deltas.foldl applyDelta accounts) id = byId accounts id := by
  induction deltas generalizing accounts with
  | nil => exact ⟨keyed, fun id => .inr ⟨by simp, rfl⟩⟩
  | cons first rest ih =>
    have first_fits := fits first List.mem_cons_self
    obtain ⟨after, overlay⟩ := ih (fun delta member => fits delta (List.mem_cons_of_mem first member))
      (keyed_applyDelta first_fits keyed)
    refine ⟨after, fun id => ?_⟩
    rw [List.foldl_cons]
    rcases overlay id with ⟨delta, member, named, shown⟩ | ⟨others, shown⟩
    · exact .inl ⟨delta, List.mem_cons_of_mem first member, named, shown⟩
    · rw [shown, byId_applyDelta first_fits]
      by_cases same : id = first.id
      · exact .inl ⟨first, List.mem_cons_self, same.symm, by rw [if_pos same]⟩
      · refine .inr ⟨?_, by rw [if_neg same]⟩
        intro delta member
        rcases List.mem_cons.1 member with rfl | later
        · exact Ne.symm same
        · exact others delta later

end Deltas

/-! ### Loading -/

section Loading

variable {file : String} {disk : Disk} {base : List Account}

theorem mem_deltaNames {name : String} : name ∈ deltaNames disk ↔ ∃ content, disk.get? (.delta name) = some content := by
  rw [deltaNames, List.mem_filterMap]
  constructor
  · rintro ⟨⟨path, content⟩, member, named⟩
    cases path with
    | beside other => cases named
    | delta other =>
      cases named
      exact ⟨content, Table.mem_entries.1 member⟩
  · rintro ⟨content, here⟩
    exact ⟨(.delta name, content), Table.mem_entries.2 here, rfl⟩

def Readable (disk : Disk) : Prop :=
  ∀ name content, disk.get? (.delta name) = some content →
    ∃ delta, content = .whole (.delta delta) ∧ delta.fits

theorem readDelta_ok {name : String} {delta : AccountDelta} :
    readDelta disk name = .ok delta ↔ disk.get? (.delta name) = some (.whole (.delta delta)) := by
  unfold readDelta
  cases here : disk.get? (.delta name) with
  | none => simp
  | some content =>
    cases content with
    | torn => simp [decodeDelta]
    | whole doc => cases doc <;> simp [decodeDelta]

/-- What the loaded accounts show of an id: the base, or some delta for it. -/
structure Loaded (disk : Disk) (base accounts : List Account) : Prop where
  keyed : Keyed accounts
  shown : ∀ id,
    (∃ name delta, disk.get? (.delta name) = some (.whole (.delta delta)) ∧ delta.id = id ∧
      byId accounts id = delta.account) ∨
    (∀ name delta, disk.get? (.delta name) = some (.whole (.delta delta)) → delta.id ≠ id) ∧
      byId accounts id = byId base id

theorem load_of_readable (keyed : Keyed base) (here : (disk.get? (.beside file)).bind decodeAccounts = some base)
    (readable : Readable disk) : ∃ accounts, load file disk = .ok { accounts := accounts } ∧ Loaded disk base accounts := by
  obtain ⟨content, at_base, decoded⟩ := Option.bind_eq_some_iff.1 here
  let names := (deltaNames disk).insertionSort (· ≤ ·)
  have member : ∀ name, name ∈ names ↔ ∃ content, disk.get? (.delta name) = some content := by
    intro name
    rw [List.mem_insertionSort]
    exact mem_deltaNames
  have each : ∀ name ∈ names, ∃ delta, readDelta disk name = .ok delta := by
    intro name inside
    obtain ⟨content, found⟩ := (member name).1 inside
    obtain ⟨delta, rfl, -⟩ := readable name content found
    exact ⟨delta, readDelta_ok.2 found⟩
  obtain ⟨deltas, read⟩ := Bytes.mapM_of_each each
  obtain ⟨shows, stems⟩ := Bytes.mem_of_mapM read
  have fits : ∀ delta ∈ deltas, delta.fits := by
    intro delta inside
    obtain ⟨name, -, named⟩ := stems delta inside
    obtain ⟨same, content, fits⟩ := readable name _ (readDelta_ok.1 named)
    cases content
    exact fits
  obtain ⟨after, overlay⟩ := foldl_applyDelta fits keyed
  refine ⟨deltas.foldl applyDelta base, ?_, after, ?_⟩
  · have applied : applyDeltas disk base = .ok (deltas.foldl applyDelta base) := Bytes.bind_ok.2 ⟨deltas, read, rfl⟩
    simp only [load, at_base, decoded, applied]
    rfl
  · intro id
    rcases overlay id with ⟨delta, inside, named, shown⟩ | ⟨others, shown⟩
    · obtain ⟨name, -, same⟩ := stems delta inside
      exact .inl ⟨name, delta, readDelta_ok.1 same, named, shown⟩
    · refine .inr ⟨?_, shown⟩
      intro name delta found
      obtain ⟨other, inside, same⟩ := shows name ((member name).2 ⟨_, found⟩)
      obtain rfl := Except.ok.inj (same.symm.trans (readDelta_ok.2 found))
      exact others other inside

theorem load_of_torn {name : String} (here : (disk.get? (.beside file)).isSome = true)
    (torn : disk.get? (.delta name) = some .torn) : ∃ message, load file disk = .error message := by
  obtain ⟨content, at_base⟩ := Option.isSome_iff_exists.1 here
  unfold load
  simp only [at_base]
  cases decodeAccounts content with
  | none => exact ⟨_, rfl⟩
  | some base =>
    cases applied : applyDeltas disk base with
    | error message => exact ⟨message, by simp [applied, bind, Except.bind]⟩
    | ok accounts =>
      obtain ⟨deltas, read, -⟩ := Bytes.bind_ok.1 applied
      have listed : name ∈ (deltaNames disk).insertionSort (· ≤ ·) := by
        rw [List.mem_insertionSort]
        exact mem_deltaNames.2 ⟨_, torn⟩
      obtain ⟨delta, -, found⟩ := (Bytes.mem_of_mapM read).1 name listed
      rw [readDelta_ok.1 found] at torn
      cases torn

end Loading

end KiroProxy.Store

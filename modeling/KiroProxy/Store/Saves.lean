import KiroProxy.Store.Load

/-! The files of a store in order, and what a save changes about them, as far as it comes. -/
namespace KiroProxy.Store

open Files

/-! ### Names -/

theorem deltaFileName_plain {id : String} (plain : plainId id = true) : deltaFileName id = id ++ ".json" := by
  have same : id.toList.map (fun c => if c.isAlphanum ∨ c = '-' ∨ c = '_' then c else '_') = id.toList := by
    conv_rhs => rw [← List.map_id id.toList]
    refine List.map_congr_left fun c inside => ?_
    have fine := List.all_eq_true.1 plain c inside
    rw [if_pos (by simpa using fine), id_eq]
  rw [deltaFileName, same, String.ofList_toList]

theorem deltaFileName_inj {id other : String} (plain : plainId id = true) (other_plain : plainId other = true)
    (same : deltaFileName id = deltaFileName other) : id = other := by
  rw [deltaFileName_plain plain, deltaFileName_plain other_plain] at same
  have chars := congrArg String.toList same
  rw [String.toList_append, String.toList_append] at chars
  exact String.toList_inj.1 (List.append_cancel_right chars)

theorem tempName_ne (outside : AccountStore.Surroundings) (name id : String) :
    AccountStore.tempName outside name ≠ deltaFileName id := by
  intro same
  have ends := congrArg (fun text : String => text.toList.reverse.head?) same
  simp [AccountStore.tempName, deltaFileName, String.toList_append] at ends

theorem tempName_ne_self (outside : AccountStore.Surroundings) (file : String) :
    AccountStore.tempName outside file ≠ file := by
  intro same
  have lengths := congrArg (fun text : String => text.toList.length) same
  simp [AccountStore.tempName, String.toList_append] at lengths
  omega

/-! ### Files in order -/

/-- The base is there, and every delta file is named after the id it is for. -/
structure Tidy (file : String) (disk : Disk) (base : List Account) : Prop where
  keyed : Keyed base
  held : (disk.get? (.beside file)).bind decodeAccounts = some base
  named : ∀ name content, disk.get? (.delta name) = some content →
    ∃ delta, content = .whole (.delta delta) ∧ delta.fits ∧ name = deltaFileName delta.id

def view (disk : Disk) (base : List Account) (id : String) : Option Account :=
  match (disk.get? (.delta (deltaFileName id))).bind decodeDelta with
  | some delta => delta.account
  | none => byId base id

section View

variable {file : String} {disk : Disk} {base accounts : List Account} {id : String}

theorem Tidy.readable (tidy : Tidy file disk base) : Readable disk := by
  intro name content here
  obtain ⟨delta, whole, fits, -⟩ := tidy.named name content here
  exact ⟨delta, whole, fits⟩

theorem Tidy.delta_of_name (tidy : Tidy file disk base) (plain : plainId id = true) {content : Content Document}
    (here : disk.get? (.delta (deltaFileName id)) = some content) :
    ∃ delta, content = .whole (.delta delta) ∧ delta.id = id := by
  obtain ⟨delta, whole, fits, named⟩ := tidy.named _ content here
  exact ⟨delta, whole, (deltaFileName_inj plain fits.1 named).symm⟩

theorem view_of_delta {delta : AccountDelta}
    (here : disk.get? (.delta (deltaFileName id)) = some (.whole (.delta delta))) : view disk base id = delta.account := by
  simp [view, here, decodeDelta]

theorem view_of_base (none_here : disk.get? (.delta (deltaFileName id)) = none) : view disk base id = byId base id := by
  simp [view, none_here]

theorem Keyed.byId_none (keyed : Keyed accounts) (odd : ¬plainId id = true) : byId accounts id = none := by
  rw [byId, List.find?_eq_none]
  intro account member same
  have own : account.id = id := by simpa using same
  exact odd (own ▸ keyed.plain account member)

theorem Tidy.shows (tidy : Tidy file disk base) (loaded : Loaded disk base accounts) (plain : plainId id = true) :
    byId accounts id = view disk base id := by
  rcases loaded.shown id with ⟨name, delta, here, own, shown⟩ | ⟨others, shown⟩
  · obtain ⟨same, whole, -, named⟩ := tidy.named name _ here
    cases whole
    rw [named, own] at here
    rw [shown, view_of_delta here]
  · cases here : disk.get? (.delta (deltaFileName id)) with
    | none => rw [shown, view_of_base here]
    | some content =>
      obtain ⟨delta, rfl, own⟩ := tidy.delta_of_name plain here
      exact absurd own (others _ delta here)

end View

/-! ### Stores in order -/

structure Sound (store : AccountStore) : Prop where
  keyed : Keyed store.accounts
  pending : ∀ id account, store.dirty.get? id = some account → plainId id = true ∧ account = byId store.accounts id

section Pending

variable {store : AccountStore} {outside : AccountStore.Surroundings} {delta : AccountDelta} {id : String}

theorem mem_deltas : delta ∈ store.deltas ↔ store.dirty.get? delta.id = some delta.account := by
  rw [AccountStore.deltas, List.mem_insertionSort, List.mem_map, ← Table.mem_entries]
  constructor
  · rintro ⟨⟨id, account⟩, member, rfl⟩
    exact member
  · intro member
    exact ⟨(delta.id, delta.account), member, rfl⟩

theorem length_deltas (store : AccountStore) : store.deltas.length = store.dirty.size := by
  simp [AccountStore.deltas, Table.size]

theorem Sound.fits (sound : Sound store) (member : delta ∈ store.deltas) : delta.fits := by
  obtain ⟨plain, shown⟩ := sound.pending delta.id delta.account (mem_deltas.1 member)
  refine ⟨plain, fun account has => ?_⟩
  rw [has] at shown
  exact (byId_mem shown.symm).2

theorem deltas_distinct (store : AccountStore) : (store.deltas.map AccountDelta.id).Nodup := by
  have sorted := List.perm_insertionSort (fun first second : AccountDelta => first.id ≤ second.id)
    (store.dirty.entries.map fun entry => (⟨entry.1, entry.2⟩ : AccountDelta))
  have ids := (sorted.map AccountDelta.id).nodup_iff.2 (by simpa [Function.comp_def] using store.dirty.distinct)
  exact ids

theorem Sound.targets (sound : Sound store) :
    ((store.deltas.map (AccountStore.deltaWrite outside)).map AtomicWrite.target).Nodup := by
  rw [List.map_map, List.Nodup, List.pairwise_map]
  have ids := List.pairwise_map.1 (deltas_distinct store)
  refine ids.imp_of_mem fun first second apart same => apart ?_
  exact deltaFileName_inj (sound.fits first).1 (sound.fits second).1 (Path.delta.inj same)

end Pending

/-! ### Saves that have come some way -/

/-- Each delta file left is an old one or a pending one, perhaps under its temporary name; and
either the base is untouched and no old delta gone, or the base is the new one. -/
structure Partly (file : String) (outside : AccountStore.Surroundings) (disk : Disk) (store : AccountStore)
    (left : Disk) : Prop where
  deltas : ∀ name content, left.get? (.delta name) = some content → disk.get? (.delta name) = some content ∨
    ∃ delta ∈ store.deltas, content = .whole (.delta delta) ∧
      (name = deltaFileName delta.id ∨ name = AccountStore.tempName outside (deltaFileName delta.id))
  base : (left.get? (.beside file) = disk.get? (.beside file) ∧ ∀ name content, disk.get? (.delta name) = some content →
      ∃ after, left.get? (.delta name) = some after) ∨
    left.get? (.beside file) = some (.whole (encodeAccounts store.accounts store.compressionThreshold))

theorem decode_encode (accounts : List Account) (threshold : Nat) :
    decodeAccounts (.whole (encodeAccounts accounts threshold)) = some accounts := by
  unfold encodeAccounts
  split <;> rfl

section Partly

variable {file : String} {outside : AccountStore.Surroundings} {disk left : Disk} {store : AccountStore}
  {base accounts : List Account} {id : String}

theorem Partly.refl : Partly file outside disk store disk where
  deltas _ _ here := .inl here
  base := .inl ⟨rfl, fun _ content here => ⟨content, here⟩⟩

theorem Partly.readable (partly : Partly file outside disk store left) (tidy : Tidy file disk base) (sound : Sound store) :
    Readable left := by
  intro name content here
  rcases partly.deltas name content here with old | ⟨delta, member, whole, -⟩
  · exact tidy.readable name content old
  · exact ⟨delta, whole, sound.fits member⟩

theorem Partly.held (partly : Partly file outside disk store left) (tidy : Tidy file disk base) (sound : Sound store) :
    ∃ base', Keyed base' ∧ (left.get? (.beside file)).bind decodeAccounts = some base' := by
  rcases partly.base with ⟨same, -⟩ | new
  · exact ⟨base, tidy.keyed, by rw [same, tidy.held]⟩
  · exact ⟨store.accounts, sound.keyed, by rw [new, Option.bind_some, decode_encode]⟩

theorem Partly.shows {base' : List Account} (partly : Partly file outside disk store left) (tidy : Tidy file disk base)
    (sound : Sound store) (held : (left.get? (.beside file)).bind decodeAccounts = some base')
    (loaded : Loaded left base' accounts) (plain : plainId id = true) :
    byId accounts id = view disk base id ∨ byId accounts id = byId store.accounts id := by
  rcases loaded.shown id with ⟨name, delta, here, own, shown⟩ | ⟨others, shown⟩
  · rcases partly.deltas name _ here with old | ⟨new, member, whole, -⟩
    · obtain ⟨same, whole, -, named⟩ := tidy.named name _ old
      cases whole
      rw [named, own] at old
      exact .inl (shown.trans (view_of_delta old).symm)
    · cases whole
      obtain ⟨-, pending⟩ := sound.pending _ _ (mem_deltas.1 member)
      exact .inr (by rw [shown, pending, own])
  · rcases partly.base with ⟨same, kept⟩ | new
    · -- Without a delta for it now, the id had none before.
      have none_before : disk.get? (.delta (deltaFileName id)) = none := by
        by_contra some_before
        obtain ⟨content, before⟩ := Option.ne_none_iff_exists'.1 some_before
        obtain ⟨after, here⟩ := kept _ content before
        rcases partly.deltas _ after here with old | ⟨delta, member, whole, named | named⟩
        · obtain ⟨delta, rfl, own⟩ := tidy.delta_of_name plain old
          exact others _ delta here own
        · have own := deltaFileName_inj plain (sound.fits member).1 named
          exact others _ delta (whole ▸ here) own.symm
        · exact tempName_ne outside _ _ named.symm
      have old : base' = base := by
        rw [same, tidy.held] at held
        exact (Option.some.inj held).symm
      exact .inl (by rw [shown, old, view_of_base none_before])
    · have now : base' = store.accounts := by
        rw [new, Option.bind_some, decode_encode] at held
        exact (Option.some.inj held).symm
      exact .inr (by rw [shown, now])

theorem Partly.tidy (partly : Partly file outside disk store left) (tidy : Tidy file disk base) (sound : Sound store)
    (clean : ∀ delta ∈ store.deltas, left.get? (.delta (AccountStore.tempName outside (deltaFileName delta.id))) = none) :
    ∃ base', Tidy file left base' := by
  obtain ⟨base', keyed, held⟩ := partly.held tidy sound
  refine ⟨base', keyed, held, ?_⟩
  intro name content here
  rcases partly.deltas name content here with old | ⟨delta, member, whole, named | named⟩
  · exact tidy.named name content old
  · exact ⟨delta, whole, sound.fits member, named⟩
  · rw [named, clean delta member] at here
    cases here

end Partly

/-! ### Prefixes of a save -/

def AccountStore.tears (file : String) (outside : AccountStore.Surroundings) (disk : Disk) (store : AccountStore)
    (n : Nat) : Bool :=
  store.savesDeltas file outside disk && n % 3 = 1 && n < 3 * store.dirty.size

section Prefix

variable {file : String} {outside : AccountStore.Surroundings} {disk left : Disk} {store : AccountStore}
  {base : List Account} {front : List AccountDelta} {delta : AccountDelta} {n : Nat}

def deltaOps (outside : AccountStore.Surroundings) (deltas : List AccountDelta) : List (FileOp Path Document) :=
  (deltas.map (AccountStore.deltaWrite outside)).flatMap AtomicWrite.ops

theorem Tidy.no_temp (tidy : Tidy file disk base) (outside : AccountStore.Surroundings) (name : String) :
    disk.get? (.delta (AccountStore.tempName outside name)) = none := by
  by_contra some_here
  obtain ⟨content, here⟩ := Option.ne_none_iff_exists'.1 some_here
  obtain ⟨delta, -, -, named⟩ := tidy.named _ content here
  exact tempName_ne outside name delta.id named

theorem deltaOps_base (disk : Disk) (front : List AccountDelta) :
    (perform disk (deltaOps outside front)).get? (.beside file) = disk.get? (.beside file) := by
  refine get?_perform_other fun write member => ?_
  obtain ⟨delta, -, rfl⟩ := List.mem_map.1 member
  constructor <;> exact fun same => by cases same

theorem deltaOps_cases {name : String} {content : Content Document}
    (here : (perform disk (deltaOps outside front)).get? (.delta name) = some content) :
    (∃ delta ∈ front, name = deltaFileName delta.id ∧ content = .whole (.delta delta)) ∨
      disk.get? (.delta name) = some content := by
  rcases get?_perform_cases here with ⟨write, member, target, whole⟩ | old
  · obtain ⟨delta, inside, rfl⟩ := List.mem_map.1 member
    exact .inl ⟨delta, inside, Path.delta.inj target, whole⟩
  · exact .inr old

theorem deltaOps_partly (tidy : Tidy file disk base) (sub : ∀ delta ∈ front, delta ∈ store.deltas) :
    Partly file outside disk store (perform disk (deltaOps outside front)) := by
  constructor
  · intro name content here
    rcases deltaOps_cases here with ⟨delta, member, named, whole⟩ | old
    · exact .inr ⟨delta, sub delta member, whole, .inl named⟩
    · exact .inl old
  · refine .inl ⟨deltaOps_base disk front, ?_⟩
    intro name content before
    apply exists_perform before
    intro write member same
    obtain ⟨delta, -, rfl⟩ := List.mem_map.1 member
    obtain rfl := Path.delta.inj same
    rw [tidy.no_temp outside] at before
    cases before

theorem deltaOps_clean (tidy : Tidy file disk base) (front : List AccountDelta) (name : String) :
    (perform disk (deltaOps outside front)).get? (.delta (AccountStore.tempName outside name)) = none := by
  by_contra some_here
  obtain ⟨content, here⟩ := Option.ne_none_iff_exists'.1 some_here
  rcases deltaOps_cases here with ⟨delta, -, named, -⟩ | old
  · exact tempName_ne outside _ _ named
  · rw [tidy.no_temp outside] at old
    cases old

theorem Partly.complete (partly : Partly file outside disk store left) (member : delta ∈ store.deltas) :
    Partly file outside disk store (perform left
      ((AccountStore.deltaWrite outside delta).ops.take 2)) := by
  let temp := AccountStore.tempName outside (deltaFileName delta.id)
  have there : ∀ path, (perform left ((AccountStore.deltaWrite outside delta).ops.take 2)).get? path =
      if path = .delta temp then some (.whole (.delta delta)) else left.get? path := by
    intro path
    by_cases same : path = .delta temp <;> simp [AtomicWrite.ops, AccountStore.deltaWrite, apply, temp, same]
  constructor
  · intro name content here
    rw [there] at here
    split at here
    case isTrue same => exact .inr ⟨delta, member, (Option.some.inj here).symm, .inr (Path.delta.inj same)⟩
    case isFalse => exact partly.deltas name content here
  · rcases partly.base with ⟨same, kept⟩ | new
    · refine .inl ⟨by rw [there, if_neg (fun same => by cases same), same], ?_⟩
      intro name content before
      rw [there]
      split
      · exact ⟨_, rfl⟩
      · exact kept name content before
    · exact .inr (by rw [there, if_neg (fun same => by cases same), new])

theorem Partly.congr {other : Disk} (partly : Partly file outside disk store left)
    (base : other.get? (.beside file) = left.get? (.beside file))
    (deltas : ∀ name, other.get? (.delta name) = left.get? (.delta name)) : Partly file outside disk store other where
  deltas name content here := partly.deltas name content (deltas name ▸ here)
  base := by
    simp only [base, deltas]
    exact partly.base

theorem take_deltaOps (deltas : List AccountDelta) (n : Nat) :
    (deltaOps outside deltas).take n = deltaOps outside (deltas.take (n / 3)) ++
      (deltas[n / 3]?.toList.flatMap fun delta => (AccountStore.deltaWrite outside delta).ops).take (n % 3) := by
  rw [deltaOps, take_writes, ← List.map_take, List.getElem?_map]
  cases deltas[n / 3]? <;> rfl

theorem saveOps_deltas (saves : store.savesDeltas file outside disk = true) :
    store.saveOps file outside disk = deltaOps outside store.deltas := by
  have stale : ¬store.upToDate file disk = true := by
    intro fresh
    simp only [AccountStore.savesDeltas, AccountStore.upToDate, Bool.and_eq_true, decide_eq_true_eq] at saves fresh
    exact saves.1.2 fresh.2
  rw [AccountStore.saveOps, if_neg stale, if_pos saves, deltaOps, List.flatMap_map]

theorem rewrite_cut (rewrites : store.savesDeltas file outside disk = false) (n : Nat) :
    let left := perform disk ((store.saveOps file outside disk).take n)
    left.get? (.beside file) = disk.get? (.beside file) ∧ (∀ name, left.get? (.delta name) = disk.get? (.delta name)) ∨
      left.get? (.beside file) = some (.whole (encodeAccounts store.accounts store.compressionThreshold)) ∧
        ∀ name content, left.get? (.delta name) = some content → disk.get? (.delta name) = some content := by
  unfold AccountStore.saveOps
  split
  · exact .inl ⟨by simp, by simp⟩
  · rw [rewrites, if_neg Bool.false_ne_true]
    have apart : file ≠ AccountStore.tempName outside file := (tempName_ne_self outside file).symm
    rcases n with _ | _ | _ | n
    · exact .inl ⟨rfl, fun _ => rfl⟩
    · exact .inl ⟨by simp [AtomicWrite.ops, AccountStore.baseWrite, apply, apart],
        fun name => by simp [AtomicWrite.ops, AccountStore.baseWrite, apply]⟩
    · exact .inl ⟨by simp [AtomicWrite.ops, AccountStore.baseWrite, apply, apart],
        fun name => by simp [AtomicWrite.ops, AccountStore.baseWrite, apply]⟩
    · have removals : ((outside.listing (deltaNames disk)).map fun name => FileOp.remove (δ := Document)
          (.delta name)).take n = (((outside.listing (deltaNames disk)).take n).map Path.delta).map .remove := by
        rw [List.map_map, List.map_take]
        rfl
      have block : ∀ rest : List (FileOp Path Document), ((store.baseWrite file outside).ops ++ rest).take (n + 3) =
          (store.baseWrite file outside).ops ++ rest.take n := fun _ => rfl
      rw [block, removals, perform_append]
      refine .inr ⟨?_, ?_⟩
      · have none_removed : ∀ names : List String, Path.beside file ∉ names.map Path.delta := by simp
        rw [get?_perform_removes, if_neg (none_removed _), get?_perform_write, AccountStore.baseWrite, if_pos rfl]
      · intro name content here
        rw [get?_perform_removes] at here
        split at here
        · cases here
        · rw [get?_perform_write, if_neg (fun same => by cases same), if_neg (fun same => by cases same)] at here
          exact here

theorem rewrite_partly (rewrites : store.savesDeltas file outside disk = false) (n : Nat) :
    Partly file outside disk store (perform disk ((store.saveOps file outside disk).take n)) := by
  rcases rewrite_cut rewrites n with ⟨base, deltas⟩ | ⟨base, deltas⟩
  · exact Partly.refl.congr base deltas
  · exact ⟨fun name content here => .inl (deltas name content here), .inr base⟩

theorem cut_partly (tidy : Tidy file disk base) (n : Nat) (whole : store.tears file outside disk n = false) :
    Partly file outside disk store (perform disk ((store.saveOps file outside disk).take n)) := by
  by_cases saves : store.savesDeltas file outside disk = true
  · rw [saveOps_deltas saves, take_deltaOps, perform_append]
    have done : Partly file outside disk store (perform disk (deltaOps outside (store.deltas.take (n / 3)))) :=
      deltaOps_partly tidy fun delta member => List.mem_of_mem_take member
    cases next : store.deltas[n / 3]? with
    | none => simpa using done
    | some delta =>
      have member := List.mem_of_getElem? next
      obtain ⟨early, -⟩ := List.getElem?_eq_some_iff.1 next
      rw [length_deltas] at early
      have third : n % 3 = 0 ∨ n % 3 = 2 := by
        simp only [AccountStore.tears, saves, Bool.true_and, Bool.and_eq_false_iff, decide_eq_false_iff_not] at whole
        omega
      rw [Option.toList_some, List.flatMap_singleton]
      rcases third with none | two
      · rw [none]
        exact done
      · rw [two]
        exact done.complete member
  · exact rewrite_partly (Bool.eq_false_iff.2 saves) n

theorem cut_torn (n : Nat) (tears : store.tears file outside disk n = true) :
    ∃ name, (perform disk ((store.saveOps file outside disk).take n)).get? (.delta name) = some .torn := by
  simp only [AccountStore.tears, Bool.and_eq_true, decide_eq_true_eq] at tears
  obtain ⟨⟨saves, one⟩, early⟩ := tears
  have inside : n / 3 < store.deltas.length := by
    rw [length_deltas]
    omega
  rw [saveOps_deltas saves, take_deltaOps, perform_append, List.getElem?_eq_getElem inside, one, Option.toList_some,
    List.flatMap_singleton]
  exact ⟨AccountStore.tempName outside (deltaFileName store.deltas[n / 3].id), by
    simp [AtomicWrite.ops, AccountStore.deltaWrite, apply]⟩

/-! ### Saves that fail, and saves that succeed -/

theorem created_base (n : Nat) {path : Path} (rewrites : store.savesDeltas file outside disk = false)
    (member : path ∈ created ((store.saveOps file outside disk).take n)) :
    path = .beside (AccountStore.tempName outside file) := by
  have all := created_take member
  unfold AccountStore.saveOps at all
  split at all
  · cases all
  · rw [rewrites, if_neg Bool.false_ne_true] at all
    simpa [created, AtomicWrite.ops, AccountStore.baseWrite, List.filterMap_map, Function.comp_def] using all

theorem failed_rewrite (rewrites : store.savesDeltas file outside disk = false) (n : Nat) {path : Path}
    (permanent : path ≠ .beside (AccountStore.tempName outside file)) :
    (store.save file outside disk (some n)).1.get? path =
      (perform disk ((store.saveOps file outside disk).take n)).get? path := by
  unfold AccountStore.save
  dsimp only
  split
  · rename_i idle
    rw [idle, List.take_nil, perform_nil]
  · rw [perform_append, get?_perform_removes, if_neg]
    exact fun member => permanent (created_base n rewrites member)

theorem failed_deltas (tidy : Tidy file disk base) (saves : store.savesDeltas file outside disk = true) (n : Nat)
    {path : Path} (permanent : path = .beside file ∨ ∃ name, path = .delta name) :
    (store.save file outside disk (some n)).1.get? path =
      (perform disk (deltaOps outside (store.deltas.take (n / 3)))).get? path := by
  have left := get?_cleanup disk (store.deltas.map (AccountStore.deltaWrite outside)) n path
  rw [← List.map_take] at left
  have busy : store.saveOps file outside disk ≠ [] := by
    rw [saveOps_deltas saves]
    intro idle
    have none : store.deltas = [] := by
      cases listed : store.deltas with
      | nil => rfl
      | cons delta rest =>
        rw [listed] at idle
        cases idle
    simp only [AccountStore.savesDeltas, Bool.and_eq_true, decide_eq_true_eq] at saves
    exact saves.1.2 (by rw [← length_deltas, none, List.length_nil])
  unfold AccountStore.save
  dsimp only
  rw [if_neg busy, saveOps_deltas saves]
  refine left.trans ?_
  split
  case isFalse => rfl
  case isTrue temporary =>
    have member := created_take temporary
    rw [created_writes, List.map_map] at member
    obtain ⟨delta, -, rfl⟩ := List.mem_map.1 member
    exact (deltaOps_clean tidy _ _).symm

theorem failed_partly (tidy : Tidy file disk base) (n : Nat) :
    Partly file outside disk store (store.save file outside disk (some n)).1 ∧
      ∀ name, (store.save file outside disk (some n)).1.get? (.delta (AccountStore.tempName outside name)) = none := by
  cases saves : store.savesDeltas file outside disk with
  | true =>
    have done : Partly file outside disk store (perform disk (deltaOps outside (store.deltas.take (n / 3)))) :=
      deltaOps_partly tidy fun delta member => List.mem_of_mem_take member
    constructor
    · apply done.congr
      · exact failed_deltas tidy saves n (.inl rfl)
      · exact fun name => failed_deltas tidy saves n (.inr ⟨name, rfl⟩)
    · intro name
      rw [failed_deltas tidy saves n (.inr ⟨_, rfl⟩), deltaOps_clean tidy]
  | false =>
    constructor
    · apply (rewrite_partly saves n).congr
      · exact failed_rewrite saves n fun same => tempName_ne_self outside file (Path.beside.inj same).symm
      · exact fun name => failed_rewrite saves n fun same => by cases same
    · intro name
      rw [failed_rewrite saves n fun same => by cases same]
      by_contra some_here
      obtain ⟨content, here⟩ := Option.ne_none_iff_exists'.1 some_here
      have before : disk.get? (.delta (AccountStore.tempName outside name)) = some content := by
        rcases rewrite_cut saves n with ⟨-, deltas⟩ | ⟨-, deltas⟩
        · rw [← deltas]
          exact here
        · exact deltas _ content here
      rw [tidy.no_temp outside] at before
      cases before

theorem rewrite_done (stale : store.upToDate file disk = false) (rewrites : store.savesDeltas file outside disk = false) :
    let left := perform disk (store.saveOps file outside disk)
    left.get? (.beside file) = some (.whole (encodeAccounts store.accounts store.compressionThreshold)) ∧
      ∀ name, left.get? (.delta name) = none := by
  have removals : ((outside.listing (deltaNames disk)).map fun name => FileOp.remove (δ := Document) (.delta name)) =
      ((outside.listing (deltaNames disk)).map Path.delta).map .remove := by
    rw [List.map_map]
    rfl
  simp only [AccountStore.saveOps, stale, rewrites, Bool.false_eq_true, if_false, removals, perform_append,
    get?_perform_removes]
  constructor
  · rw [if_neg (by simp), get?_perform_write, AccountStore.baseWrite, if_pos rfl]
  · intro name
    split
    · rfl
    · rename_i unlisted
      rw [get?_perform_write, if_neg (fun same => by cases same), if_neg (fun same => by cases same)]
      by_contra some_here
      obtain ⟨content, here⟩ := Option.ne_none_iff_exists'.1 some_here
      have listed := (outside.exact _).mem_iff.2 (mem_deltaNames.2 ⟨content, here⟩)
      exact unlisted (List.mem_map_of_mem listed)

theorem deltas_done (sound : Sound store) {id : String} (plain : plainId id = true) :
    view (perform disk (deltaOps outside store.deltas)) base id =
      match store.dirty.get? id with
      | some account => account
      | none => view disk base id := by
  cases pending : store.dirty.get? id with
  | some account =>
    have member : (⟨id, account⟩ : AccountDelta) ∈ store.deltas := mem_deltas.2 pending
    have written : (perform disk (deltaOps outside store.deltas)).get? (.delta (deltaFileName id)) =
        some (.whole (.delta ⟨id, account⟩)) := by
      apply get?_perform_target (List.mem_map_of_mem (f := AccountStore.deltaWrite outside) member) sound.targets
      intro write other same
      obtain ⟨delta, -, rfl⟩ := List.mem_map.1 other
      exact tempName_ne outside _ _ (Path.delta.inj same).symm
    exact view_of_delta written
  | none =>
    have other : (perform disk (deltaOps outside store.deltas)).get? (.delta (deltaFileName id)) =
        disk.get? (.delta (deltaFileName id)) := by
      refine get?_perform_other fun write member => ?_
      obtain ⟨delta, inside, rfl⟩ := List.mem_map.1 member
      constructor
      · intro same
        have own := deltaFileName_inj plain (sound.fits inside).1 (Path.delta.inj same)
        rw [own, mem_deltas.1 inside] at pending
        cases pending
      · exact fun same => tempName_ne outside _ _ (Path.delta.inj same).symm
    rw [view, other, view]

end Prefix

end KiroProxy.Store

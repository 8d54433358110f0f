import KiroProxy.Store.Durable

/-! What every account in the account file satisfies, from one save to the next: a save that
succeeds or fails leaves each account as it was or as the store has it. -/
namespace KiroProxy.Store

open Files

variable {file : String} {disk : Disk} {store : AccountStore} {outside : AccountStore.Surroundings}
  {base accounts : List Account} {account : Account} {P Q : Account → Prop}

/-- The files are in order, and show only accounts that satisfy `P`. -/
def Holds (file : String) (disk : Disk) (P : Account → Prop) : Prop :=
  ∃ base, Tidy file disk base ∧ ∀ id, plainId id = true → ∀ account, view disk base id = some account → P account

def Shows (file : String) (disk : Disk) (accounts : List Account) : Prop :=
  ∃ base, Tidy file disk base ∧ ∀ id, plainId id = true → view disk base id = byId accounts id

theorem Holds.imp (holds : Holds file disk P) (weaker : ∀ account, P account → Q account) : Holds file disk Q := by
  obtain ⟨base, tidy, shown⟩ := holds
  exact ⟨base, tidy, fun id plain account here => weaker account (shown id plain account here)⟩

theorem Shows.holds (shows : Shows file disk accounts) (all : ∀ account ∈ accounts, P account) : Holds file disk P := by
  obtain ⟨base, tidy, shown⟩ := shows
  refine ⟨base, tidy, fun id plain account here => all account ?_⟩
  rw [shown id plain] at here
  exact (byId_mem here).1

theorem load_shown (tidy : Tidy file disk base) : ∃ accounts, load file disk = .ok { accounts := accounts } ∧
    Keyed accounts ∧ (∀ id, plainId id = true → byId accounts id = view disk base id) ∧
    Consistent file false ⟨disk, { accounts := accounts }⟩ := by
  obtain ⟨accounts, loads, keyed, shown⟩ := tidy_load tidy
  refine ⟨accounts, loads, keyed, shown, sound_clean keyed, .inr ⟨base, tidy, ?_⟩⟩
  exact fun id plain _ => (shown id plain).symm

theorem Holds.load (holds : Holds file disk P) : ∃ accounts, load file disk = .ok { accounts := accounts } ∧
    Keyed accounts ∧ (∀ account ∈ accounts, P account) ∧ Shows file disk accounts ∧
    Consistent file false ⟨disk, { accounts := accounts }⟩ := by
  obtain ⟨base, tidy, shown⟩ := holds
  obtain ⟨accounts, loads, keyed, same, consistent⟩ := load_shown tidy
  refine ⟨accounts, loads, keyed, ?_, ⟨base, tidy, fun id plain => (same id plain).symm⟩, consistent⟩
  intro account member
  have plain := keyed.plain account member
  exact shown account.id plain account ((same account.id plain).symm.trans (byId_of_mem keyed.distinct member))

theorem Shows.load (shows : Shows file disk accounts) (keyed : Keyed accounts) :
    ∃ loaded, load file disk = .ok { accounts := loaded } ∧ ∀ account, account ∈ loaded ↔ account ∈ accounts := by
  obtain ⟨base, tidy, shown⟩ := shows
  obtain ⟨loaded, loads, other, same, -⟩ := load_shown tidy
  refine ⟨loaded, loads, fun account => ⟨fun member => ?_, fun member => ?_⟩⟩
  · have plain := other.plain account member
    have here := byId_of_mem other.distinct member
    rw [same account.id plain, shown account.id plain] at here
    exact (byId_mem here).1
  · have plain := keyed.plain account member
    have here := byId_of_mem keyed.distinct member
    rw [← shown account.id plain, ← same account.id plain] at here
    exact (byId_mem here).1

theorem saved_holds (holds : Holds file disk P) (sound : Sound store) (all : ∀ account ∈ store.accounts, P account) :
    Holds file (perform disk (store.saveOps file outside disk)) P := by
  obtain ⟨base, tidy, shown⟩ := holds
  cases stale : store.upToDate file disk with
  | true =>
    simp only [AccountStore.saveOps, stale, if_pos, perform_nil]
    exact ⟨base, tidy, shown⟩
  | false =>
    cases saves : store.savesDeltas file outside disk with
    | false =>
      obtain ⟨here, bare⟩ := rewrite_done stale saves
      obtain ⟨after, shows⟩ := tidy_based sound here bare
      refine ⟨store.accounts, after, fun id _ account found => all account ?_⟩
      rw [shows] at found
      exact (byId_mem found).1
    | true =>
      rw [saveOps_deltas saves]
      have same : (perform disk (deltaOps outside store.deltas)).get? (.beside file) = disk.get? (.beside file) :=
        deltaOps_base disk store.deltas
      refine ⟨base, ⟨tidy.keyed, by rw [same, tidy.held], ?_⟩, ?_⟩
      · intro name content here
        rcases deltaOps_cases here with ⟨delta, member, named, whole⟩ | old
        · exact ⟨delta, whole, sound.fits member, named⟩
        · exact tidy.named name content old
      · intro id plain account found
        rw [deltas_done sound plain] at found
        cases pending : store.dirty.get? id with
        | some changed =>
          rw [pending] at found
          rw [(sound.pending id changed pending).2] at found
          exact all account (byId_mem found).1
        | none =>
          rw [pending] at found
          exact shown id plain account found

theorem save_holds (holds : Holds file disk P) (sound : Sound store) (all : ∀ account ∈ store.accounts, P account)
    (fault : Option Nat) : Holds file (store.save file outside disk fault).1 P := by
  cases fault with
  | none => exact saved_holds holds sound all
  | some n =>
    obtain ⟨base, tidy, shown⟩ := holds
    have partly : Partly file outside disk store (store.save file outside disk (some n)).1 := (failed_partly tidy n).1
    have clean : ∀ name, (store.save file outside disk (some n)).1.get? (.delta (AccountStore.tempName outside name)) = none :=
      (failed_partly tidy n).2
    obtain ⟨base', after⟩ := partly.tidy tidy sound fun delta _ => clean _
    obtain ⟨loaded, -, read⟩ := load_of_readable after.keyed after.held after.readable
    refine ⟨base', after, fun id plain account found => ?_⟩
    rw [← after.shows read plain] at found
    rcases partly.shows tidy sound after.held read plain with before | now
    · exact shown id plain account (before ▸ found)
    · rw [now] at found
      exact all account (byId_mem found).1

theorem save_shows (consistent : Consistent file false ⟨disk, store⟩) {fault : Option Nat}
    (ok : (store.save file outside disk fault).2.2 = true) :
    Shows file (store.save file outside disk fault).1 store.accounts := by
  rw [save_of_ok ok]
  exact saved_files outside consistent

theorem save_accounts (fault : Option Nat) : (store.save file outside disk fault).2.1.accounts = store.accounts := by
  unfold AccountStore.save
  cases fault with
  | none => rfl
  | some n =>
    dsimp only
    split <;> rfl

theorem save_sound (sound : Sound store) (fault : Option Nat) : Sound (store.save file outside disk fault).2.1 := by
  have cleared : Sound { store with dirty := ∅ } := ⟨sound.keyed, fun id account here => by cases here⟩
  unfold AccountStore.save
  cases fault with
  | none => exact cleared
  | some n =>
    dsimp only
    split
    · exact sound
    · exact sound

/-! ### Mutations in a row -/

theorem Edits.trans {second third : AccountStore} (first : Edits store second) (next : Edits second third) :
    Edits store third where
  sound := next.sound
  marked := fun id clean => by
    obtain ⟨between, same⟩ := next.marked id clean
    obtain ⟨before, also⟩ := first.marked id between
    exact ⟨before, same.trans also⟩

theorem update_edits (sound : Sound store) (idOrEmail : String) {mutate : Account → Account}
    (keeps : ∀ account ∈ store.find idOrEmail, (mutate account).id = account.id) :
    Edits store (store.update idOrEmail mutate).1 := by
  unfold AccountStore.update
  cases found : store.find idOrEmail with
  | none => exact .refl sound
  | some account => exact updateFirst_edits sound found (keeps account found)

theorem replaceIfChanged_edits (sound : Sound store) (account : Account) :
    Edits store (store.replaceIfChanged account).1 := by
  unfold AccountStore.replaceIfChanged
  split
  · exact .refl sound
  case h_2 stored found =>
    split
    · exact .refl sound
    · have same : stored.id = account.id := by simpa using List.find?_some found
      exact updateFirst_edits sound found same.symm

end KiroProxy.Store

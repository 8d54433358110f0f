import KiroProxy.Daemon.RuntimeFields
import KiroProxy.Store.Holds

/-! Rotated credentials, over whole runs. Every refresh brings new credentials into the pool and
then into the file; whoever installs the file in between brings back the old ones. -/
namespace KiroProxy.AccountTransactions

open Run (Along run)
open Store (Account AccountStore Credentials Disk Edits Holds Keyed Shows Sound byId byId_mem byId_of_mem plainId)

/-! ### What the code is asked to keep -/

/-- The credentials are the `n`th that were issued, or newer ones. -/
def AtLeast (issued : List Credentials) (n : Nat) (credentials : Credentials) : Prop :=
  n = 0 ∨ credentials ∈ issued.drop (n - 1)

instance (issued : List Credentials) (n : Nat) (credentials : Credentials) :
    Decidable (AtLeast issued n credentials) :=
  inferInstanceAs (Decidable (_ ∨ _))

/-- The form of an id, as `validate_account_input` asks for it. -/
def validId (id : String) : Bool :=
  id.toList.length = 12 ∧ "acc_".toList.isPrefixOf id.toList ∧
    (id.toList.drop 4).all fun c => "0123456789abcdefABCDEF".toList.contains c

/-- The id has the form of ids, and the email, which has an `@`, has not. -/
def Proper (account : Account) : Prop := validId account.id = true ∧ validId account.email = false

instance (account : Account) : Decidable (Proper account) := inferInstanceAs (Decidable (_ ∧ _))

/-- An account that is added is proper, and one that is changed keeps its id and stays proper. -/
def Edit.Fine (store : AccountStore) : Edit → Prop
  | .insert account => Proper account
  | .remove _ => True
  | .update idOrEmail mutate => ∀ account ∈ store.find idOrEmail,
    (mutate account).id = account.id ∧ Proper (mutate account)

instance (store : AccountStore) : (edit : Edit) → Decidable (edit.Fine store)
  | .insert account => inferInstanceAs (Decidable (Proper account))
  | .remove _ => instDecidableTrue
  | .update idOrEmail mutate => inferInstanceAs (Decidable (∀ account ∈ store.find idOrEmail,
    (mutate account).id = account.id ∧ Proper (mutate account)))

/-- A mutation that leaves the credentials alone; an account that it adds has not been refreshed
before. -/
def LeavesCredentials (returned : String → Nat) (store changed : AccountStore) : Prop :=
  ∀ account ∈ changed.accounts,
    (∃ stored ∈ store.accounts, stored.id = account.id ∧ stored.credentials = account.credentials) ∨
      returned account.id = 0

instance (returned : String → Nat) (store changed : AccountStore) :
    Decidable (LeavesCredentials returned store changed) :=
  inferInstanceAs (Decidable (∀ account ∈ changed.accounts,
    (∃ stored ∈ store.accounts, stored.id = account.id ∧ stored.credentials = account.credentials) ∨
      returned account.id = 0))

def Transaction.Mutates (returned : String → Nat) (store : AccountStore) : Transaction → Prop
  | .commitAccountChange mutate => ∀ edits ∈ (mutate store).toOption,
    Along Edit.apply (fun store edit => edit.Fine store) store edits ∧
      LeavesCredentials returned store (edits.foldl Edit.apply store)
  | _ => True

instance (returned : String → Nat) (store : AccountStore) :
    (transaction : Transaction) → Decidable (transaction.Mutates returned store)
  | .commitAccountChange mutate => inferInstanceAs (Decidable (∀ edits ∈ (mutate store).toOption,
    Along Edit.apply (fun store edit => edit.Fine store) store edits ∧
      LeavesCredentials returned store (edits.foldl Edit.apply store)))
  | .persistRefreshedCredentials _ | .persistRuntimeAccounts | .reloadAccountCredentials _
  | .applyAccountFileReload => instDecidableTrue

def PoolHas (pool : Table String Account) (id : String) (credentials : Credentials) : Prop :=
  ∀ account ∈ pool.get? id, account.credentials = credentials

instance (pool : Table String Account) (id : String) (credentials : Credentials) :
    Decidable (PoolHas pool id credentials) :=
  inferInstanceAs (Decidable (∀ account ∈ pool.get? id, account.credentials = credentials))

variable (file : String)

def System.Current (s : System) : Prop :=
  ∀ loaded ∈ (Store.load file s.disk).toOption, ∀ account ∈ loaded.accounts,
    AtLeast (s.issued account.id) (s.returned account.id) account.credentials

instance (s : System) : Decidable (s.Current file) :=
  inferInstanceAs (Decidable (∀ loaded ∈ (Store.load file s.disk).toOption, ∀ account ∈ loaded.accounts,
    AtLeast (s.issued account.id) (s.returned account.id) account.credentials))

def System.Allows (s : System) (active : Active) : Prop :=
  match active.phase with
  | .loading _ => ∀ loaded ∈ (Store.load file s.disk).toOption,
    active.transaction.Mutates s.returned (configureAccountStore active.settings loaded)
  | .saved _ _ => s.Current file
  | _ => True

instance (s : System) (active : Active) : Decidable (s.Allows file active) := by
  unfold System.Allows
  exact match active.phase with
    | .loading _ => inferInstanceAs (Decidable (∀ loaded ∈ Except.toOption _, Transaction.Mutates _ _ _))
    | .saved _ _ => inferInstanceAs (Decidable (s.Current file))
    | .asserting _ | .snapshotting _ _ | .saving _ | .installing _ _ _ | .finished _ => instDecidableTrue

def TokenRefresh.Written (pool : Table String Account) (id : String) : TokenRefresh → Prop
  | .persisting refreshed => PoolHas pool id refreshed.credentials
  | _ => True

instance (pool : Table String Account) (id : String) : (refresh : TokenRefresh) → Decidable (refresh.Written pool id)
  | .persisting refreshed => inferInstanceAs (Decidable (PoolHas pool id refreshed.credentials))
  | .requesting | .reloading | .adopting _ => instDecidableTrue

/-- Mutations leave credentials alone; the file is installed only while it knows the credentials
of every refresh that is over; and a refresh that cannot get the locks finds its credentials in
the pool. -/
def InstallsCurrent (s : System) : Action → Prop
  | .advance _ => ∀ active ∈ s.active, s.Allows file active
  | .lockFails id => ∀ refresh ∈ s.refreshes.get? id, refresh.Written s.pool id
  | _ => True

instance (s : System) : (action : Action) → Decidable (InstallsCurrent file s action)
  | .advance _ => inferInstanceAs (Decidable (∀ active ∈ s.active, s.Allows file active))
  | .lockFails id => inferInstanceAs (Decidable (∀ refresh ∈ s.refreshes.get? id, refresh.Written s.pool id))
  | .begin _ _ | .release | .probe _ _ | .refresh _ | .giveUp _ | .adopt _ _ | .tokens _ _ _ => instDecidableTrue

/-! ### Stores that a transaction works on -/

variable {snapshot : List Account} {refreshed : RefreshedCredentials} {reloaded : Option ReloadedCredentials}
  {pool : Table String Account}

section Stores

variable {store next : AccountStore} {accounts : List Account} {account : Account} {id : String}
  {credentials : Credentials} {P : Account → Prop} {returned : String → Nat}

theorem validId_plain (valid : validId id = true) : plainId id = true := by
  simp only [validId, decide_eq_true_eq] at valid
  obtain ⟨-, front, back⟩ := valid
  obtain ⟨rest, whole⟩ := List.isPrefixOf_iff_prefix.mp front
  have tail : id.toList.drop 4 = rest := by
    rw [← whole]
    rfl
  rw [tail] at back
  have digits : ∀ c ∈ "0123456789abcdefABCDEF".toList, c.isAlphanum ∨ c = '-' ∨ c = '_' := by decide
  simp only [plainId, ← whole, List.all_append, Bool.and_eq_true]
  refine ⟨by decide, List.all_eq_true.mpr fun c member => decide_eq_true (digits c ?_)⟩
  exact List.contains_iff_mem.mp (List.all_eq_true.mp back c member)

def Carried (accounts : List Account) (id : String) (credentials : Credentials) : Prop :=
  ∃ account, byId accounts id = some account ∧ account.credentials = credentials

theorem Carried.agrees (carried : Carried accounts id credentials) (keyed : Keyed accounts) (member : account ∈ accounts)
    (same : account.id = id) : account.credentials = credentials := by
  obtain ⟨other, found, equal⟩ := carried
  have here := byId_of_mem keyed.distinct member
  rw [same, found] at here
  rw [← Option.some.inj here, equal]

theorem configure_edits (sound : Sound store) (settings : Settings) :
    Edits store (configureAccountStore settings store) :=
  ⟨⟨sound.keyed, sound.pending⟩, fun _ clean => ⟨clean, rfl⟩⟩

theorem edit_edits (sound : Sound store) {edit : Edit} (fine : edit.Fine store) : Edits store (edit.apply store) := by
  cases edit with
  | insert account =>
    simp only [Edit.apply]
    cases accepted : store.insert account with
    | error message => exact .refl sound
    | ok changed => exact Store.insert_edits sound (validId_plain fine.1) accepted
  | remove idOrEmail => exact Store.remove_edits sound idOrEmail
  | update idOrEmail mutate => exact Store.update_edits sound idOrEmail fun account member => (fine account member).1

theorem edits_edits (sound : Sound store) {edits : List Edit}
    (fine : Along Edit.apply (fun store edit => edit.Fine store) store edits) :
    Edits store (edits.foldl Edit.apply store) := by
  induction edits generalizing store with
  | nil => exact .refl sound
  | cons edit rest ih =>
    have first := edit_edits sound fine.1
    exact first.trans (ih first.sound fine.2)

theorem edit_proper (proper : ∀ account ∈ store.accounts, Proper account) {edit : Edit} (fine : edit.Fine store) :
    ∀ account ∈ (edit.apply store).accounts, Proper account := by
  intro account member
  cases edit with
  | insert added =>
    simp only [Edit.apply, AccountStore.insert] at member
    split at member
    · exact proper account member
    · split at member
      · exact proper account member
      · split at member
        · exact proper account member
        · rcases List.mem_append.mp member with old | new
          · exact proper account old
          · rw [List.mem_singleton.mp new]
            exact fine
  | remove idOrEmail =>
    simp only [Edit.apply, AccountStore.remove] at member
    split at member
    · exact proper account member
    · exact proper account (List.mem_of_mem_eraseP member)
  | update idOrEmail mutate =>
    simp only [Edit.apply, AccountStore.update] at member
    split at member
    · exact proper account member
    · rename_i found hit
      obtain ⟨front, back, whole, -, updated⟩ := Store.find_split hit
      have listed : account ∈ front ++ mutate found :: back := updated mutate ▸ member
      rcases List.mem_append.mp listed with before | after
      · exact proper account (whole ▸ List.mem_append_left _ before)
      · rcases List.mem_cons.mp after with rfl | behind
        · exact (fine found hit).2
        · exact proper account (whole ▸ List.mem_append_right _ (List.mem_cons_of_mem _ behind))

theorem edits_proper (proper : ∀ account ∈ store.accounts, Proper account) {edits : List Edit}
    (fine : Along Edit.apply (fun store edit => edit.Fine store) store edits) :
    ∀ account ∈ (edits.foldl Edit.apply store).accounts, Proper account := by
  induction edits generalizing store with
  | nil => exact proper
  | cons edit rest ih => exact ih (edit_proper proper fine.1) fine.2

theorem merge_edits (sound : Sound store) (runtime : Account) : Edits store (mergeRuntimeAccount store runtime).1 := by
  unfold mergeRuntimeAccount
  split
  · exact .refl sound
  · exact Store.replaceIfChanged_edits sound _

theorem merges_edits (sound : Sound store) (snapshot : List Account) : Edits store (mergeRuntimeAccounts store snapshot) := by
  induction snapshot generalizing store with
  | nil => exact .refl sound
  | cons runtime rest ih =>
    have first := merge_edits sound runtime
    exact first.trans (ih first.sound)

structure Kept (stored account : Account) : Prop where
  id : account.id = stored.id
  email : account.email = stored.email
  credentials : account.credentials = stored.credentials

theorem merge_kept {runtime : Account} (member : account ∈ (mergeRuntimeAccount store runtime).1.accounts) :
    ∃ stored ∈ store.accounts, Kept stored account := by
  unfold mergeRuntimeAccount at member
  split at member
  · exact ⟨account, member, rfl, rfl, rfl⟩
  · rename_i stored found
    unfold AccountStore.replaceIfChanged at member
    split at member
    · exact ⟨account, member, rfl, rfl, rfl⟩
    · split at member
      · exact ⟨account, member, rfl, rfl, rfl⟩
      · obtain ⟨other, inside, rfl | rfl⟩ := mem_updateFirst member
        · exact ⟨_, inside, rfl, rfl, rfl⟩
        · exact ⟨stored, List.mem_of_find?_eq_some found, rfl, rfl, rfl⟩

theorem merges_kept (member : account ∈ (mergeRuntimeAccounts store snapshot).accounts) :
    ∃ stored ∈ store.accounts, Kept stored account := by
  induction snapshot generalizing store with
  | nil => exact ⟨account, member, rfl, rfl, rfl⟩
  | cons runtime rest ih =>
    obtain ⟨between, inside, later⟩ := ih member
    obtain ⟨stored, first, earlier⟩ := merge_kept inside
    exact ⟨stored, first, later.id.trans earlier.id, later.email.trans earlier.email,
      later.credentials.trans earlier.credentials⟩

theorem prepareRefreshed_ready (sound : Sound store) (proper : ∀ account ∈ store.accounts, Proper account)
    (valid : validId refreshed.accountId = true) (ready : prepareRefreshed store refreshed = .ready next reloaded) :
    reloaded = none ∧ Edits store next ∧ Carried next.accounts refreshed.accountId refreshed.credentials ∧
      ∀ account ∈ next.accounts, Proper account ∧ (account.id ≠ refreshed.accountId → account ∈ store.accounts) := by
  have edits : Edits store (store.update refreshed.accountId refreshed.write).1 :=
    Store.update_edits sound refreshed.accountId fun _ _ => rfl
  unfold prepareRefreshed at ready
  cases found : store.find refreshed.accountId with
  | none =>
    simp only [AccountStore.update, found] at ready
    cases ready
  | some stored =>
    have hit := List.find?_some found
    have listed := List.mem_of_find?_eq_some found
    have same : stored.id = refreshed.accountId := by
      simp only [AccountStore.named, decide_eq_true_eq] at hit
      rcases hit with named | named
      · exact named
      · have improper := (proper stored listed).2
        rw [named, valid] at improper
        cases improper
    simp only [AccountStore.update, found] at ready edits
    cases ready
    obtain ⟨front, back, whole, -, updated⟩ := Store.find_split found
    have distinct := edits.sound.keyed.distinct
    refine ⟨rfl, edits, ⟨refreshed.write stored, ?_, rfl⟩, ?_⟩
    · have member : refreshed.write stored ∈ front ++ refreshed.write stored :: back := by simp
      have inside : refreshed.write stored ∈
          AccountStore.updateFirst (AccountStore.named refreshed.accountId) refreshed.write store.accounts := by
        rw [updated]
        exact member
      have here := byId_of_mem distinct inside
      exact (congrArg (byId _) same.symm).trans here
    · intro account member
      have inside : account ∈ front ++ refreshed.write stored :: back := updated refreshed.write ▸ member
      have old : account ∈ front ++ back ∨ account = refreshed.write stored := by
        simp only [List.mem_append, List.mem_cons] at inside ⊢
        tauto
      rcases old with before | rfl
      · have there : account ∈ store.accounts := by
          rw [whole]
          simp only [List.mem_append, List.mem_cons] at before ⊢
          tauto
        exact ⟨proper account there, fun _ => there⟩
      · exact ⟨proper stored listed, fun other => absurd same other⟩

def Transaction.refreshes : Transaction → Option String
  | .persistRefreshedCredentials refreshed => some refreshed.accountId
  | .reloadAccountCredentials accountId => some accountId
  | _ => none

/-- The credentials that the transaction is about to leave for the account that it refreshes. -/
def Transaction.brings (reloaded : Option ReloadedCredentials) : Transaction → Option (String × Credentials)
  | .persistRefreshedCredentials refreshed => some (refreshed.accountId, refreshed.credentials)
  | .reloadAccountCredentials accountId => reloaded.map fun reloaded => (accountId, reloaded.credentials)
  | _ => none

structure Made (returned : String → Nat) (transaction : Transaction) (store next : AccountStore)
    (reloaded : Option ReloadedCredentials) : Prop where
  edits : Edits store next
  proper : ∀ account ∈ next.accounts, Proper account
  origin : ∀ account ∈ next.accounts,
    (∃ stored ∈ store.accounts, stored.id = account.id ∧ stored.credentials = account.credentials) ∨
      returned account.id = 0 ∨
      ∃ refreshed, transaction = .persistRefreshedCredentials refreshed ∧ account.id = refreshed.accountId
  brings : ∀ id credentials, transaction.brings reloaded = some (id, credentials) → Carried next.accounts id credentials
  reads : transaction.saves = false → next.accounts = store.accounts

theorem prepare_ready {memory : AccountStore} {settings : Settings} {transaction : Transaction} (sound : Sound store)
    (proper : ∀ account ∈ store.accounts, Proper account)
    (valid : ∀ id, transaction.refreshes = some id → validId id = true)
    (mutates : transaction.Mutates returned (configureAccountStore settings store))
    (ready : prepare settings memory pool snapshot store transaction = .ready next reloaded) :
    Made returned transaction store next reloaded := by
  have configured := configure_edits sound settings
  have kept : ∀ account ∈ (configureAccountStore settings store).accounts, Proper account := proper
  cases transaction with
  | commitAccountChange mutate =>
    simp only [prepare, prepareCommit] at ready
    split at ready
    · cases ready
    · rename_i edits mutated
      cases validated_ready ready
      obtain ⟨fine, leaves⟩ := mutates edits (by rw [mutated]; rfl)
      constructor
      · exact configured.trans (edits_edits configured.sound fine)
      · exact edits_proper kept fine
      · intro account member
        exact (leaves account member).imp_right .inl
      · exact fun _ _ none => by cases none
      · exact fun saved => by cases saved
  | persistRefreshedCredentials refreshed =>
    simp only [prepare] at ready
    obtain ⟨rfl, edits, carried, each⟩ :=
      prepareRefreshed_ready configured.sound kept (valid _ rfl) (validated_ready ready)
    constructor
    · exact configured.trans edits
    · exact fun account member => (each account member).1
    · intro account member
      by_cases own : account.id = refreshed.accountId
      · exact .inr (.inr ⟨refreshed, rfl, own⟩)
      · exact .inl ⟨account, (each account member).2 own, rfl, rfl⟩
    · intro id credentials brings
      cases brings
      exact carried
    · exact fun saved => by cases saved
  | persistRuntimeAccounts =>
    simp only [prepare] at ready
    cases validated_ready ready
    constructor
    · exact configured.trans (merges_edits configured.sound snapshot)
    · intro account member
      obtain ⟨stored, inside, same⟩ := merges_kept member
      rw [Proper, same.id, same.email]
      exact kept stored inside
    · intro account member
      obtain ⟨stored, inside, same⟩ := merges_kept member
      exact .inl ⟨stored, inside, same.id.symm, same.credentials.symm⟩
    · exact fun _ _ none => by cases none
    · exact fun saved => by cases saved
  | reloadAccountCredentials accountId =>
    simp only [prepare] at ready
    obtain ⟨rfl, candidate, found, rfl⟩ := prepareReload_ready (validated_ready ready)
    constructor
    · exact configured
    · exact kept
    · exact fun account member => .inl ⟨account, member, rfl, rfl⟩
    · intro id credentials brings
      cases brings
      have listed := List.mem_of_find?_eq_some found
      have hit := List.find?_some found
      have same : candidate.id = accountId := by
        simp only [AccountStore.named, decide_eq_true_eq] at hit
        rcases hit with named | named
        · exact named
        · have improper := (kept candidate listed).2
          rw [named, valid accountId rfl] at improper
          cases improper
      refine ⟨candidate, ?_, rfl⟩
      have here := byId_of_mem configured.sound.keyed.distinct listed
      exact (congrArg (byId _) same.symm).trans here
    · exact fun _ => rfl
  | applyAccountFileReload =>
    simp only [prepare] at ready
    split at ready
    · cases ready
    · cases validated_ready ready
      constructor
      · exact configured
      · exact kept
      · exact fun account member => .inl ⟨account, member, rfl, rfl⟩
      · exact fun _ _ none => by cases none
      · exact fun _ => rfl

end Stores

/-! ### The invariant -/

section Books

variable {issued issued' : List Credentials} {n : Nat} {credentials : Credentials}

theorem AtLeast.mono (atLeast : AtLeast issued n credentials) (more : issued <+: issued') :
    AtLeast issued' n credentials := by
  refine atLeast.imp_right fun member => ?_
  obtain ⟨rest, rfl⟩ := more
  rw [List.drop_append]
  exact List.mem_append_left _ member

theorem AtLeast.last (last : issued.getLast? = some credentials) (within : n ≤ issued.length) :
    AtLeast issued n credentials := by
  obtain ⟨front, rfl⟩ := List.getLast?_eq_some_iff.mp last
  cases n with
  | zero => exact .inl rfl
  | succ n =>
    right
    rw [List.length_append, List.length_singleton] at within
    rw [Nat.add_sub_cancel, List.drop_append_of_le_length (by omega)]
    exact List.mem_append_right _ List.mem_cons_self

end Books

def System.Good (s : System) (account : Account) : Prop :=
  Proper account ∧ AtLeast (s.issued account.id) (s.persisted account.id) account.credentials

def Transaction.Brings (transaction : Transaction) (accounts : List Account)
    (reloaded : Option ReloadedCredentials) : Prop :=
  ∀ id credentials, transaction.brings reloaded = some (id, credentials) → Carried accounts id credentials

def Stage (s : System) (transaction : Transaction) : Phase → Prop
  | .asserting refreshed => transaction = .persistRefreshedCredentials refreshed
  | .snapshotting _ _ => transaction = .persistRuntimeAccounts
  | .loading _ => True
  | .saving next => Store.Consistent file false ⟨s.disk, next⟩ ∧ (∀ account ∈ next.accounts, s.Good account) ∧
    transaction.Brings next.accounts none
  | .saved next reloaded => Shows file s.disk next.accounts ∧ Sound next ∧
    (∀ account ∈ next.accounts, s.Good account) ∧ transaction.Brings next.accounts reloaded
  | .installing left next reloaded => Shows file s.disk next ∧ s.accounts.accounts = next ∧ left ⊆ next ∧
    (∀ account ∈ next, AtLeast (s.issued account.id) (s.returned account.id) account.credentials) ∧
    transaction.Brings next reloaded ∧
    ∀ id credentials, transaction.brings reloaded = some (id, credentials) →
      id ∈ left.map Account.id ∨ PoolHas s.pool id credentials
  | .finished outcome => ∀ reloaded, outcome = .ok reloaded → ∀ id credentials,
    transaction.brings reloaded = some (id, credentials) →
      Shows file s.disk s.accounts.accounts ∧ Carried s.accounts.accounts id credentials ∧
        PoolHas s.pool id credentials

def Phase.before : Phase → Bool
  | .asserting _ => true
  | _ => false

structure Rotates (s : System) (transaction : Transaction) (phase : Phase) : Prop where
  persisting : ∀ refreshed, transaction = .persistRefreshedCredentials refreshed →
    s.refreshes.get? refreshed.accountId = some (.persisting refreshed)
  reloading : ∀ id, transaction = .reloadAccountCredentials id → s.refreshes.get? id = some .reloading
  asserted : phase.before = false → ∀ refreshed, transaction = .persistRefreshedCredentials refreshed →
    PoolHas s.pool refreshed.accountId refreshed.credentials
  stage : Stage file s transaction phase

def System.RefreshStands (s : System) (id : String) : TokenRefresh → Prop
  | .persisting refreshed => refreshed.accountId = id ∧ (s.issued id).getLast? = some refreshed.credentials
  | .adopting reloaded => AtLeast (s.issued id) (s.returned id) reloaded.credentials
  | _ => True

structure Rotation (s : System) : Prop where
  named : Named s.pool
  counts : ∀ id, s.persisted id ≤ s.returned id ∧ s.returned id ≤ (s.issued id).length
  pool : ∀ id account, s.pool.get? id = some account →
    Proper account ∧ AtLeast (s.issued id) (s.returned id) account.credentials
  held : Holds file s.disk s.Good
  sound : Sound s.accounts
  memory : ∀ account ∈ s.accounts.accounts, s.Good account
  refreshes : ∀ id refresh, s.refreshes.get? id = some refresh → validId id = true ∧ s.RefreshStands id refresh
  active : ∀ active, s.active = some active → Rotates file s active.transaction active.phase

/-! #### What happens without the lock -/

section Quiet

variable {file} {s t : System} {transaction : Transaction} {phase : Phase}

/-- Files, memory and counts stay; refreshes that are in a transaction stay, and so do their
credentials in the pool. -/
structure Quiet (s t : System) : Prop where
  disk : t.disk = s.disk
  accounts : t.accounts = s.accounts
  returned : t.returned = s.returned
  persisted : t.persisted = s.persisted
  issued : ∀ id, s.issued id <+: t.issued id
  busy : ∀ id refresh, s.refreshes.get? id = some refresh →
    (refresh = .reloading ∨ ∃ refreshed, refresh = .persisting refreshed) →
    t.refreshes.get? id = some refresh ∧ t.issued id = s.issued id ∧
      ∀ credentials, PoolHas s.pool id credentials → PoolHas t.pool id credentials

theorem Quiet.good (quiet : Quiet s t) {account : Account} (good : s.Good account) : t.Good account := by
  refine ⟨good.1, ?_⟩
  rw [quiet.persisted]
  exact good.2.mono (quiet.issued account.id)

theorem Rotates.quiet (rotates : Rotates file s transaction phase) (quiet : Quiet s t) :
    Rotates file t transaction phase := by
  have kept : ∀ reloaded id credentials, transaction.brings reloaded = some (id, credentials) →
      PoolHas s.pool id credentials → PoolHas t.pool id credentials := by
    intro reloaded id credentials brings has
    cases transaction with
    | persistRefreshedCredentials refreshed =>
      cases brings
      exact (quiet.busy _ _ (rotates.persisting refreshed rfl) (.inr ⟨refreshed, rfl⟩)).2.2 _ has
    | reloadAccountCredentials accountId =>
      obtain ⟨told, -, same⟩ := Option.map_eq_some_iff.mp brings
      cases same
      exact (quiet.busy _ _ (rotates.reloading _ rfl) (.inl rfl)).2.2 _ has
    | commitAccountChange mutate => cases brings
    | persistRuntimeAccounts => cases brings
    | applyAccountFileReload => cases brings
  constructor
  · intro refreshed same
    exact (quiet.busy _ _ (rotates.persisting refreshed same) (.inr ⟨refreshed, rfl⟩)).1
  · intro id same
    exact (quiet.busy _ _ (rotates.reloading id same) (.inl rfl)).1
  · intro after refreshed same
    exact (quiet.busy _ _ (rotates.persisting refreshed same) (.inr ⟨refreshed, rfl⟩)).2.2 _
      (rotates.asserted after refreshed same)
  · have stage := rotates.stage
    cases phase with
    | asserting refreshed => exact stage
    | snapshotting left read => exact stage
    | loading snapshot => trivial
    | saving next =>
      obtain ⟨consistent, good, brings⟩ := stage
      exact ⟨quiet.disk ▸ consistent, fun account member => quiet.good (good account member), brings⟩
    | saved next reloaded =>
      obtain ⟨shows, sound, good, brings⟩ := stage
      exact ⟨quiet.disk ▸ shows, sound, fun account member => quiet.good (good account member), brings⟩
    | installing left next reloaded =>
      obtain ⟨shows, memory, sub, current, brings, installed⟩ := stage
      refine ⟨quiet.disk ▸ shows, quiet.accounts ▸ memory, sub, ?_, brings, ?_⟩
      · intro account member
        rw [quiet.returned]
        exact (current account member).mono (quiet.issued account.id)
      · intro id credentials own
        exact (installed id credentials own).imp_right (kept reloaded id credentials own)
    | finished outcome =>
      intro reloaded same id credentials own
      obtain ⟨shows, carried, has⟩ := stage reloaded same id credentials own
      rw [quiet.disk, quiet.accounts]
      exact ⟨shows, carried, kept reloaded id credentials own has⟩

theorem Rotation.quiet (rotation : Rotation file s) (quiet : Quiet s t) (named : Named t.pool)
    (counts : ∀ id, t.returned id ≤ (t.issued id).length)
    (pool : ∀ id account, t.pool.get? id = some account →
      Proper account ∧ AtLeast (t.issued id) (t.returned id) account.credentials)
    (refreshes : ∀ id refresh, t.refreshes.get? id = some refresh → validId id = true ∧ t.RefreshStands id refresh)
    (active : ∀ active, t.active = some active → ∃ before, s.active = some before ∧
      before.transaction = active.transaction ∧ before.phase = active.phase) : Rotation file t where
  named := named
  counts := fun id => ⟨by rw [quiet.persisted, quiet.returned]; exact (rotation.counts id).1, counts id⟩
  pool := pool
  held := by
    rw [quiet.disk]
    exact rotation.held.imp fun _ good => quiet.good good
  sound := quiet.accounts ▸ rotation.sound
  memory := by
    rw [quiet.accounts]
    exact fun account member => quiet.good (rotation.memory account member)
  refreshes := refreshes
  active := by
    intro later here
    obtain ⟨before, there, transaction, phase⟩ := active later here
    rw [← transaction, ← phase]
    exact (rotation.active before there).quiet quiet

theorem probe_kept (probe : Probe) (account : Account) : Kept account (probe.write account) := by
  cases probe with
  | recordQuotaError => exact ⟨rfl, rfl, rfl⟩
  | refreshAccountUsage upstreamUserId usage subscription config => exact ⟨rfl, rfl, rfl⟩
  | settleCredits actual now =>
    simp only [Probe.write]
    split
    · exact ⟨rfl, rfl, rfl⟩
    · exact ⟨rfl, rfl, rfl⟩

theorem insert_named (named : Named pool) {id : String} {account : Account} (same : account.id = id) :
    Named (pool.insert id account) := by
  intro other found here
  rw [Table.get?_insert] at here
  split at here
  · rename_i equal
    cases here
    exact same.trans equal.symm
  · exact named other found here

theorem poolHas_insert {id other : String} {account : Account} {credentials : Credentials}
    (has : PoolHas pool other credentials) (own : other = id → account.credentials = credentials) :
    PoolHas (pool.insert id account) other credentials := by
  intro found here
  rw [Option.mem_def, Table.get?_insert] at here
  split at here
  · rename_i same
    cases here
    exact own same
  · exact has found here

theorem probe_rotation (rotation : Rotation file s) (id : String) (probe : Probe) :
    Rotation file (s.probe id probe) := by
  unfold System.probe
  cases found : s.pool.get? id with
  | none => exact rotation
  | some account =>
    have kept := probe_kept probe account
    apply rotation.quiet (t := { s with
      pool := s.pool.insert id (probe.write account)
      active := s.active.map fun active => { active with written := (id, probe.write account) :: active.written } })
    · refine ⟨rfl, rfl, rfl, rfl, fun _ => List.prefix_rfl, fun other refresh here _ => ⟨here, rfl, ?_⟩⟩
      intro credentials has
      refine poolHas_insert has fun same => ?_
      subst same
      exact kept.credentials.trans (has account found)
    · exact insert_named rotation.named (kept.id.trans (rotation.named id account found))
    · exact fun id => (rotation.counts id).2
    · intro other current here
      rw [Table.get?_insert] at here
      split at here
      · rename_i same
        cases here
        subst same
        obtain ⟨proper, atLeast⟩ := rotation.pool other account found
        rw [Proper, kept.id, kept.email, kept.credentials]
        exact ⟨proper, atLeast⟩
      · exact rotation.pool other current here
    · exact rotation.refreshes
    · intro active here
      obtain ⟨before, there, rfl⟩ := Option.map_eq_some_iff.mp here
      exact ⟨before, there, rfl, rfl⟩

variable {refreshes : Table String TokenRefresh}

theorem refreshes_rotation (rotation : Rotation file s) (id : String)
    (idle : ∀ refresh, s.refreshes.get? id = some refresh → refresh ≠ .reloading ∧ ∀ own, refresh ≠ .persisting own)
    (others : ∀ other, other ≠ id → refreshes.get? other = s.refreshes.get? other)
    (stands : ∀ refresh, refreshes.get? id = some refresh → validId id = true ∧ s.RefreshStands id refresh) :
    Rotation file { s with refreshes := refreshes } := by
  apply rotation.quiet (t := { s with refreshes := refreshes })
  · refine ⟨rfl, rfl, rfl, rfl, fun _ => List.prefix_rfl, fun other refresh here busy => ⟨?_, rfl, fun _ has => has⟩⟩
    by_cases same : other = id
    · subst same
      obtain ⟨apart, persists⟩ := idle refresh here
      rcases busy with reloads | ⟨own, equal⟩
      · exact absurd reloads apart
      · exact absurd equal (persists own)
    · exact (others other same).trans here
  · exact rotation.named
  · exact fun id => (rotation.counts id).2
  · exact rotation.pool
  · intro other refresh here
    by_cases same : other = id
    · subst same
      exact stands refresh here
    · rw [show refreshes.get? other = _ from others other same] at here
      exact rotation.refreshes other refresh here
  · exact fun active here => ⟨active, here, rfl, rfl⟩

theorem refresh_rotation (rotation : Rotation file s) (id : String) :
    Rotation file (step file s (.refresh id)) := by
  simp only [step]
  split
  · exact rotation
  · rename_i absent
    rw [not_or] at absent
    obtain ⟨account, found⟩ := Option.ne_none_iff_exists'.mp (by simpa using absent.1)
    have none_here : s.refreshes.get? id = none := Option.not_isSome_iff_eq_none.mp absent.2
    apply refreshes_rotation rotation id
    · intro refresh here
      rw [none_here] at here
      cases here
    · intro other different
      rw [Table.get?_insert, if_neg different]
    · intro refresh here
      rw [Table.get?_insert, if_pos rfl] at here
      cases here
      have valid := (rotation.pool id account found).1.1
      rw [rotation.named id account found] at valid
      exact ⟨valid, trivial⟩

theorem giveUp_rotation (rotation : Rotation file s) (id : String) : Rotation file (s.giveUp id) := by
  unfold System.giveUp
  split
  · rename_i here
    apply refreshes_rotation rotation id
    · intro refresh there
      cases here.symm.trans there
      exact ⟨fun same => (nomatch same), fun own same => (nomatch same)⟩
    · intro other different
      rw [Table.get?_erase, if_neg different]
    · intro refresh there
      rw [Table.get?_erase, if_pos rfl] at there
      cases there
  · exact rotation

theorem write_rotation (rotation : Rotation file s) (id : String) {write : Account → Account}
    (same : ∀ account, (write account).id = account.id ∧ (write account).email = account.email)
    (idle : ∀ refresh, s.refreshes.get? id = some refresh → refresh ≠ .reloading ∧ ∀ own, refresh ≠ .persisting own)
    (fresh : ∀ account, AtLeast (s.issued id) (s.returned id) (write account).credentials) :
    Rotation file (s.writePool id write) := by
  unfold System.writePool
  cases found : s.pool.get? id with
  | none => exact rotation
  | some account =>
    apply rotation.quiet (t := { s with pool := s.pool.insert id (write account) })
    · refine ⟨rfl, rfl, rfl, rfl, fun _ => List.prefix_rfl, fun other refresh here busy => ⟨here, rfl, ?_⟩⟩
      intro credentials has
      refine poolHas_insert has fun equal => ?_
      subst equal
      obtain ⟨apart, persists⟩ := idle refresh here
      rcases busy with reloads | ⟨own, equal⟩
      · exact absurd reloads apart
      · exact absurd equal (persists own)
    · exact insert_named rotation.named ((same account).1.trans (rotation.named id account found))
    · exact fun id => (rotation.counts id).2
    · intro other current here
      rw [Table.get?_insert] at here
      split at here
      · rename_i equal
        cases here
        subst equal
        obtain ⟨proper, -⟩ := rotation.pool other account found
        rw [Proper, (same account).1, (same account).2]
        exact ⟨proper, fresh account⟩
      · exact rotation.pool other current here
    · exact rotation.refreshes
    · exact fun active here => ⟨active, here, rfl, rfl⟩

theorem adopt_rotation (rotation : Rotation file s) (id : String) (again : Bool) :
    Rotation file (s.adopt id again) := by
  unfold System.adopt
  split
  · rename_i reloaded here
    have idle : ∀ refresh, s.refreshes.get? id = some refresh → refresh ≠ .reloading ∧ ∀ own, refresh ≠ .persisting own := by
      intro refresh there
      cases here.symm.trans there
      exact ⟨fun same => (nomatch same), fun own same => (nomatch same)⟩
    obtain ⟨valid, stands⟩ := rotation.refreshes id _ here
    have written : Rotation file (s.writePool id reloaded.write) :=
      write_rotation rotation id (fun account => ⟨rfl, rfl⟩) idle fun account => stands
    have refreshes : (s.writePool id reloaded.write).refreshes = s.refreshes := by
      unfold System.writePool
      split <;> rfl
    apply refreshes_rotation written id
    · rw [refreshes]
      exact idle
    · intro other different
      rw [refreshes]
      cases again with
      | true => exact (Table.get?_insert ..).trans (if_neg different)
      | false => exact (Table.get?_erase ..).trans (if_neg different)
    · intro refresh there
      cases again with
      | true =>
        rw [if_pos rfl, Table.get?_insert, if_pos rfl] at there
        cases there
        exact ⟨valid, trivial⟩
      | false =>
        rw [if_neg (by decide), Table.get?_erase, if_pos rfl] at there
        cases there
  · exact rotation

theorem tokens_rotation (rotation : Rotation file s) (id : String) (tokens : Refresh.RefreshResponse) (now : Int) :
    Rotation file (s.tokens id tokens now) := by
  unfold System.tokens
  split
  · rename_i account here found
    have named := rotation.named id account found
    obtain ⟨proper, -⟩ := rotation.pool id account found
    obtain ⟨valid, -⟩ := rotation.refreshes id _ here
    have atMost := (rotation.counts id).2
    generalize renewed : withTokens account tokens now = next
    have kept : next.id = account.id ∧ next.email = account.email := by
      rw [← renewed]
      exact ⟨rfl, rfl⟩
    apply rotation.quiet (t := { s with
      pool := s.pool.insert id next
      refreshes := s.refreshes.insert id (.persisting ⟨id, next.credentials, tokens.profileArn⟩)
      issued := Function.update s.issued id (s.issued id ++ [next.credentials]) })
    · refine ⟨rfl, rfl, rfl, rfl, fun other => ?_, fun other refresh there busy => ?_⟩
      · by_cases same : other = id
        · subst same
          simp
        · show s.issued other <+: Function.update s.issued id _ other
          rw [Function.update_of_ne same]
      · have different : other ≠ id := by
          rintro rfl
          cases here.symm.trans there
          rcases busy with same | ⟨own, same⟩
          · cases same
          · cases same
        refine ⟨?_, Function.update_of_ne different .., fun credentials has => ?_⟩
        · rw [Table.get?_insert, if_neg different]
          exact there
        · exact poolHas_insert has fun same => absurd same different
    · exact insert_named rotation.named (kept.1.trans named)
    · intro other
      show s.returned other ≤ (Function.update s.issued id _ other).length
      by_cases same : other = id
      · subst same
        rw [Function.update_self, List.length_append]
        exact atMost.trans (Nat.le_add_right ..)
      · rw [Function.update_of_ne same]
        exact (rotation.counts other).2
    · intro other current there
      rw [Table.get?_insert] at there
      split at there
      · rename_i same
        cases there
        subst same
        dsimp only
        rw [Proper, kept.1, kept.2, Function.update_self]
        refine ⟨proper, AtLeast.last (by simp) ?_⟩
        rw [List.length_append]
        exact atMost.trans (Nat.le_add_right ..)
      · rename_i different
        dsimp only
        rw [Function.update_of_ne different]
        exact rotation.pool other current there
    · intro other refresh there
      rw [Table.get?_insert] at there
      split at there
      · rename_i same
        cases there
        subst same
        exact ⟨valid, rfl, by simp⟩
      · rename_i different
        obtain ⟨fine, stands⟩ := rotation.refreshes other refresh there
        refine ⟨fine, ?_⟩
        cases refresh with
        | persisting refreshed =>
          refine ⟨stands.1, ?_⟩
          show (Function.update s.issued id _ other).getLast? = _
          rw [Function.update_of_ne different]
          exact stands.2
        | adopting reloaded =>
          show AtLeast (Function.update s.issued id _ other) (s.returned other) _
          rw [Function.update_of_ne different]
          exact stands
        | requesting => trivial
        | reloading => trivial
    · exact fun active there => ⟨active, there, rfl, rfl⟩
  · exact rotation

/-! #### The phases of a transaction -/

theorem Quiet.withActive (s : System) (active : Option Active) : Quiet s { s with active := active } :=
  ⟨rfl, rfl, rfl, rfl, fun _ => List.prefix_rfl, fun _ _ here _ => ⟨here, rfl, fun _ has => has⟩⟩

theorem Rotation.withActive (rotation : Rotation file s) (active : Active)
    (rotates : Rotates file s active.transaction active.phase) :
    Rotation file { s with active := some active } where
  named := rotation.named
  counts := rotation.counts
  pool := rotation.pool
  held := rotation.held
  sound := rotation.sound
  memory := rotation.memory
  refreshes := rotation.refreshes
  active := by
    rintro _ ⟨⟩
    exact rotates.quiet (Quiet.withActive s (some active))

theorem begin_rotation (rotation : Rotation file s) (transaction : Transaction) (settings : Settings) :
    Rotation file (s.begin transaction settings) := by
  unfold System.begin
  split
  · exact rotation
  · split
    · rename_i refreshed
      split
      · rename_i own here
        have named : own.accountId = refreshed.accountId := (rotation.refreshes _ _ here).2.1
        apply rotation.withActive
        constructor
        · intro other same
          cases same
          rw [named]
          exact here
        · exact fun _ same => by cases same
        · exact fun before => by cases before
        · exact rfl
      · exact rotation
    · rename_i id
      split
      · rename_i here
        have marked : Rotation file { s with refreshes := s.refreshes.insert id .reloading } := by
          apply refreshes_rotation rotation id
          · intro refresh there
            cases here.symm.trans there
            exact ⟨fun same => (nomatch same), fun own same => (nomatch same)⟩
          · intro other different
            rw [Table.get?_insert, if_neg different]
          · intro refresh there
            rw [Table.get?_insert, if_pos rfl] at there
            cases there
            exact ⟨(rotation.refreshes id _ here).1, trivial⟩
        apply marked.withActive
        constructor
        · exact fun _ same => by cases same
        · intro other same
          cases same
          exact (Table.get?_insert ..).trans (if_pos rfl)
        · exact fun _ _ same => by cases same
        · trivial
      · exact rotation
    · rename_i unrefreshed unreloaded
      apply rotation.withActive
      constructor
      · exact fun refreshed same => absurd same (unrefreshed refreshed)
      · exact fun id same => absurd same (unreloaded id)
      · exact fun _ refreshed same => absurd same (unrefreshed refreshed)
      · cases transaction with
        | persistRefreshedCredentials refreshed => exact absurd rfl (unrefreshed refreshed)
        | persistRuntimeAccounts => exact rfl
        | commitAccountChange mutate => trivial
        | reloadAccountCredentials id => trivial
        | applyAccountFileReload => trivial

variable {active : Active}

theorem Rotates.next {next : Phase} (rotates : Rotates file s transaction phase) (after : phase.before = false)
    (stage : Stage file s transaction next) : Rotates file s transaction next :=
  ⟨rotates.persisting, rotates.reloading, fun _ => rotates.asserted after, stage⟩

theorem withPhase_rotation {next : Phase} (rotation : Rotation file s) (here : s.active = some active)
    (after : active.phase.before = false) (stage : Stage file s active.transaction next) :
    Rotation file (s.withPhase active next) :=
  rotation.withActive { active with phase := next } ((rotation.active active here).next after stage)

theorem stage_failed (error : String) : Stage file s transaction (.finished (.error error)) :=
  fun _ same => by cases same

theorem Rotation.withPool (rotation : Rotation file s) (named : Named pool)
    (good : ∀ id account, pool.get? id = some account →
      Proper account ∧ AtLeast (s.issued id) (s.returned id) account.credentials) (active : Active)
    (rotates : Rotates file { s with pool := pool } active.transaction active.phase) :
    Rotation file { s with pool := pool, active := some active } where
  named := named
  counts := rotation.counts
  pool := good
  held := rotation.held
  sound := rotation.sound
  memory := rotation.memory
  refreshes := rotation.refreshes
  active := by
    rintro _ ⟨⟩
    exact rotates.quiet (Quiet.withActive { s with pool := pool } (some active))

theorem good_insert (rotation : Rotation file s) {id : String} {account : Account} (proper : Proper account)
    (fresh : AtLeast (s.issued id) (s.returned id) account.credentials) :
    ∀ other found, (s.pool.insert id account).get? other = some found →
      Proper found ∧ AtLeast (s.issued other) (s.returned other) found.credentials := by
  intro other found here
  rw [Table.get?_insert] at here
  split at here
  · rename_i same
    cases here
    subst same
    exact ⟨proper, fresh⟩
  · exact rotation.pool other found here

theorem assertRefreshed_rotation (rotation : Rotation file s) (here : s.active = some active)
    (phase : active.phase = .asserting refreshed) :
    Rotation file (s.assertRefreshed active refreshed) := by
  have rotates := rotation.active active here
  have stage := rotates.stage
  rw [phase] at stage
  have own : active.transaction = .persistRefreshedCredentials refreshed := stage
  have marked := rotates.persisting refreshed own
  obtain ⟨valid, -, last⟩ := rotation.refreshes _ _ marked
  unfold System.assertRefreshed
  cases found : s.pool.get? refreshed.accountId with
  | none =>
    apply rotation.withActive
    refine ⟨rotates.persisting, rotates.reloading, fun _ other same => ?_, stage_failed _⟩
    cases own.symm.trans same
    intro account there
    rw [found] at there
    cases there
  | some account =>
    have fresh := AtLeast.last last (rotation.counts refreshed.accountId).2
    have written : s.writePool refreshed.accountId refreshed.write =
        { s with pool := s.pool.insert refreshed.accountId (refreshed.write account) } := by
      rw [System.writePool, found]
    dsimp only
    rw [written]
    apply rotation.withPool
    · exact insert_named rotation.named (rotation.named refreshed.accountId account found)
    · exact good_insert rotation (rotation.pool _ account found).1 fresh
    · refine ⟨rotates.persisting, rotates.reloading, fun _ other same => ?_, trivial⟩
      cases own.symm.trans same
      intro current there
      rw [Option.mem_def, Table.get?_insert, if_pos rfl] at there
      cases there
      rfl

theorem readPool_rotation (rotation : Rotation file s) (here : s.active = some active) {left : List String}
    {read : List Account} (phase : active.phase = .snapshotting left read) :
    Rotation file (s.readPool active left read) := by
  have after : active.phase.before = false := by rw [phase]; rfl
  have stage := (rotation.active active here).stage
  rw [phase] at stage
  unfold System.readPool
  cases left with
  | nil => exact withPhase_rotation rotation here after trivial
  | cons accountId left => exact withPhase_rotation rotation here after stage

theorem Rotation.save (rotation : Rotation file s) {store : AccountStore} (sound : Sound store)
    (good : ∀ account ∈ store.accounts, s.Good account) (world : World) (active : Active)
    (rotates : Rotates file { s with disk := (store.save file world.outside s.disk world.fault).1 }
      active.transaction active.phase) :
    Rotation file { s with disk := (store.save file world.outside s.disk world.fault).1, active := some active } where
  named := rotation.named
  counts := rotation.counts
  pool := rotation.pool
  held := Store.save_holds rotation.held sound good world.fault
  sound := rotation.sound
  memory := rotation.memory
  refreshes := rotation.refreshes
  active := by
    rintro _ ⟨⟩
    exact rotates.quiet (Quiet.withActive _ (some active))

theorem Rotates.fails (rotates : Rotates file s transaction phase) (after : phase.before = false) (error : String)
    (disk : Disk) : Rotates file { s with disk := disk } transaction (.finished (.error error)) :=
  ⟨rotates.persisting, rotates.reloading, fun _ => rotates.asserted after, stage_failed error⟩

theorem restore_rotation (rotation : Rotation file s) (active : Active)
    (rotates : Rotates file s active.transaction active.phase) (after : active.phase.before = false) (world : World) (error : String) :
    Rotation file (s.restore file active world error) := by
  have sound : Sound { configureAccountStore active.settings s.accounts with incrementalWrite := false } :=
    ⟨rotation.sound.keyed, rotation.sound.pending⟩
  exact rotation.save sound rotation.memory world _ (rotates.fails after _ _)

theorem save_rotation (rotation : Rotation file s) (here : s.active = some active) {next : AccountStore}
    (phase : active.phase = .saving next) (world : World) : Rotation file (s.save file active next world) := by
  have after : active.phase.before = false := by rw [phase]; rfl
  have rotates := rotation.active active here
  have stage := rotates.stage
  rw [phase] at stage
  obtain ⟨consistent, good, brings⟩ := stage
  have accounts : (next.save file world.outside s.disk world.fault).2.1.accounts = next.accounts :=
    Store.save_accounts world.fault
  unfold System.save
  dsimp only
  by_cases ok : (next.save file world.outside s.disk world.fault).2.2 = true
  · rw [if_pos ok]
    apply rotation.save consistent.sound good world
    refine ⟨rotates.persisting, rotates.reloading, fun _ => rotates.asserted after, ?_⟩
    refine ⟨?_, Store.save_sound consistent.sound world.fault, ?_, ?_⟩
    · rw [accounts]
      exact Store.save_shows consistent ok
    · rw [accounts]
      exact good
    · rw [accounts]
      exact brings
  · rw [if_neg ok]
    exact rotation.save consistent.sound good world _ (rotates.fails after _ _)

theorem Made.good {next store : AccountStore} (made : Made s.returned transaction store next reloaded)
    (rotation : Rotation file s) (stored : ∀ account ∈ store.accounts, s.Good account)
    (persisting : ∀ refreshed, transaction = .persistRefreshedCredentials refreshed →
      s.refreshes.get? refreshed.accountId = some (.persisting refreshed)) :
    ∀ account ∈ next.accounts, s.Good account := by
  intro account member
  refine ⟨made.proper account member, ?_⟩
  have counts := rotation.counts account.id
  rcases made.origin account member with ⟨before, inside, same, equal⟩ | unreturned | ⟨refreshed, own, same⟩
  · rw [← same, ← equal]
    exact (stored before inside).2
  · left
    omega
  · obtain ⟨-, -, last⟩ := rotation.refreshes _ _ (persisting refreshed own)
    have carried := made.brings refreshed.accountId refreshed.credentials (by rw [own]; rfl)
    rw [carried.agrees made.edits.sound.keyed member same, same]
    rw [same] at counts
    exact AtLeast.last last (counts.1.trans counts.2)

theorem brings_saving (transaction : Transaction) (saves : transaction.saves = true)
    (reloaded : Option ReloadedCredentials) : transaction.brings none = transaction.brings reloaded := by
  cases transaction with
  | reloadAccountCredentials accountId => cases saves
  | commitAccountChange _ | persistRefreshedCredentials _ | persistRuntimeAccounts | applyAccountFileReload => rfl

theorem prepare_unchanged {settings : Settings} {memory store : AccountStore}
    (same : prepare settings memory pool snapshot store transaction = .unchanged) (id : String)
    (credentials : Credentials) : transaction.brings none ≠ some (id, credentials) := by
  cases transaction with
  | persistRefreshedCredentials refreshed =>
    simp only [prepare, validated] at same
    split at same
    · cases same
    · unfold prepareRefreshed at same
      split at same <;> cases same
  | commitAccountChange _ | persistRuntimeAccounts | applyAccountFileReload => exact fun none => by cases none
  | reloadAccountCredentials _ => exact fun none => by cases none

theorem loadFile_rotation (rotation : Rotation file s) (here : s.active = some active)
    (phase : active.phase = .loading snapshot) (world : World) (allowed : s.Allows file active) :
    Rotation file (s.loadFile file active snapshot world) := by
  have after : active.phase.before = false := by rw [phase]; rfl
  have rotates := rotation.active active here
  obtain ⟨accounts, loads, keyed, good, shows, consistent⟩ := rotation.held.load
  simp only [System.Allows, phase, loads, Except.toOption, Option.mem_def, Option.some.injEq, forall_eq'] at allowed
  have valid : ∀ id, active.transaction.refreshes = some id → validId id = true := by
    intro id refreshes
    cases kind : active.transaction with
    | persistRefreshedCredentials refreshed =>
      rw [kind] at refreshes
      cases refreshes
      exact (rotation.refreshes _ _ (rotates.persisting refreshed kind)).1
    | reloadAccountCredentials accountId =>
      rw [kind] at refreshes
      cases refreshes
      exact (rotation.refreshes _ _ (rotates.reloading _ kind)).1
    | commitAccountChange _ | persistRuntimeAccounts | applyAccountFileReload =>
      rw [kind] at refreshes
      cases refreshes
  unfold System.loadFile
  simp only [loads]
  have goes : ∀ next, Stage file s active.transaction next →
      Rotation file (s.withPhase { active with snapshot := snapshot, loaded := accounts } next) :=
    fun next stage => rotation.withActive _ (rotates.next after stage)
  cases prepared : prepare active.settings s.accounts s.pool snapshot { accounts := accounts } active.transaction with
  | fails error => exact goes _ (stage_failed error)
  | rejected error => exact restore_rotation rotation { active with snapshot := snapshot, loaded := accounts } rotates after world error
  | unchanged =>
    apply goes
    rintro _ ⟨⟩ id credentials brings
    exact absurd brings (prepare_unchanged prepared id credentials)
  | ready next reloaded =>
    have made := prepare_ready consistent.sound (fun account member => (good account member).1) valid allowed prepared
    have fine := made.good rotation good rotates.persisting
    apply goes
    split
    · rename_i saves
      refine ⟨consistent.edit made.edits, fine, ?_⟩
      intro id credentials brings
      rw [brings_saving _ saves reloaded] at brings
      exact made.brings id credentials brings
    · rename_i reads
      refine ⟨?_, made.edits.sound, fine, made.brings⟩
      rw [made.reads (Bool.eq_false_iff.mpr reads)]
      exact shows

theorem saved_rotation (rotation : Rotation file s) (here : s.active = some active) {next : AccountStore}
    (phase : active.phase = .saved next reloaded) (allowed : s.Allows file active) :
    Rotation file ({ s with accounts := next }.withPhase active (.installing next.accounts next.accounts reloaded)) := by
  have after : active.phase.before = false := by rw [phase]; rfl
  have rotates := rotation.active active here
  have stage := rotates.stage
  rw [phase] at stage
  obtain ⟨shows, sound, good, brings⟩ := stage
  simp only [System.Allows, phase] at allowed
  obtain ⟨loaded, loads, same⟩ := shows.load sound.keyed
  have current : ∀ account ∈ next.accounts,
      AtLeast (s.issued account.id) (s.returned account.id) account.credentials := by
    intro account member
    exact allowed _ (by rw [loads]; rfl) account ((same account).mpr member)
  have remembered : Rotation file { s with accounts := next, active := none } :=
    { named := rotation.named
      counts := rotation.counts
      pool := rotation.pool
      held := rotation.held
      sound := sound
      memory := good
      refreshes := rotation.refreshes
      active := fun _ none => by cases none }
  apply remembered.withActive
  refine ⟨rotates.persisting, rotates.reloading, fun _ => rotates.asserted after, ?_⟩
  refine ⟨shows, rfl, fun _ member => member, current, brings, ?_⟩
  intro id credentials own
  obtain ⟨account, found, -⟩ := brings id credentials own
  obtain ⟨member, named⟩ := byId_mem found
  exact .inl (named ▸ List.mem_map_of_mem member)

theorem install_rotation (rotation : Rotation file s) (here : s.active = some active) {left next : List Account}
    (phase : active.phase = .installing left next reloaded) :
    Rotation file (s.install active left next reloaded) := by
  have after : active.phase.before = false := by rw [phase]; rfl
  have rotates := rotation.active active here
  have stage := rotates.stage
  rw [phase] at stage
  obtain ⟨shows, rfl, sub, current, brings, installed⟩ := stage
  have keyed : Keyed s.accounts.accounts := rotation.sound.keyed
  have proper : ∀ account ∈ s.accounts.accounts, Proper account := fun account member => (rotation.memory account member).1
  cases left with
  | nil =>
    have kept : ∀ id credentials, Carried s.accounts.accounts id credentials → PoolHas s.pool id credentials →
        PoolHas (replaced s.pool s.accounts.accounts) id credentials := by
      intro id credentials carried has account found
      refine replaced_entries (P := fun other account => other = id → account.credentials = credentials)
        s.accounts.accounts ?_ found rfl
      intro listed member same
      cases there : s.pool.get? listed.id with
      | none => exact carried.agrees keyed member same
      | some existing => exact has existing (same ▸ there)
    apply rotation.withPool
    · exact rotation.named.replaced s.accounts.accounts
    · intro id account found
      refine replaced_entries (P := fun id account => Proper account ∧
        AtLeast (s.issued id) (s.returned id) account.credentials) s.accounts.accounts ?_ found
      intro listed member
      cases there : s.pool.get? listed.id with
      | none => exact ⟨proper listed member, current listed member⟩
      | some existing => exact rotation.pool listed.id existing there
    · refine ⟨rotates.persisting, rotates.reloading, fun _ refreshed own => ?_, ?_⟩
      · have carried := brings refreshed.accountId refreshed.credentials (by rw [own]; rfl)
        exact kept _ _ carried (rotates.asserted after refreshed own)
      · rintro _ ⟨⟩ id credentials own
        have carried := brings id credentials own
        exact ⟨shows, carried, kept id credentials carried ((installed id credentials own).resolve_left List.not_mem_nil)⟩
  | cons account rest =>
    have member := sub List.mem_cons_self
    have written : (s.writePool account.id fun _ => account) =
        { s with pool := (s.writePool account.id fun _ => account).pool } := by
      unfold System.writePool
      split <;> rfl
    have entries : ∀ id found, (s.writePool account.id fun _ => account).pool.get? id = some found →
        (id = account.id ∧ found = account) ∨ s.pool.get? id = some found := by
      intro id found there
      rw [get?_writePool] at there
      split at there
      · rename_i same
        obtain ⟨old, -, equal⟩ := Option.map_eq_some_iff.mp there
        exact .inl ⟨same, equal.symm⟩
      · exact .inr there
    have kept : ∀ id credentials, Carried s.accounts.accounts id credentials → PoolHas s.pool id credentials →
        PoolHas (s.writePool account.id fun _ => account).pool id credentials := by
      intro id credentials carried has found there
      rcases entries id found there with ⟨same, rfl⟩ | old
      · exact carried.agrees keyed member same.symm
      · exact has found old
    show Rotation file ((s.writePool account.id fun _ => account).withPhase active _)
    rw [written]
    apply rotation.withPool
    · exact rotation.named.write account.id fun _ _ => rfl
    · intro id found there
      rcases entries id found there with ⟨same, rfl⟩ | old
      · subst same
        exact ⟨proper _ member, current _ member⟩
      · exact rotation.pool id found old
    · refine ⟨rotates.persisting, rotates.reloading, fun _ refreshed own => ?_, ?_⟩
      · have carried := brings refreshed.accountId refreshed.credentials (by rw [own]; rfl)
        exact kept _ _ carried (rotates.asserted after refreshed own)
      · refine ⟨shows, rfl, fun _ later => sub (List.mem_cons_of_mem _ later), current, brings, ?_⟩
        intro id credentials own
        have carried := brings id credentials own
        rcases installed id credentials own with listed | has
        · rcases List.mem_cons.mp listed with rfl | later
          · right
            intro found there
            rcases entries _ found there with ⟨-, rfl⟩ | old
            · exact carried.agrees keyed member rfl
            · rw [Option.mem_def, get?_writePool, if_pos rfl, old, Option.map_some] at there
              rw [← Option.some.inj there]
              exact carried.agrees keyed member rfl
          · exact .inl later
        · exact .inr (kept id credentials carried has)

/-! #### The end of a refresh -/

theorem returns_rotation (rotation : Rotation file s) {id : String} {issued : List Credentials}
    {credentials : Credentials} (ok : Bool) (more : s.issued id <+: issued)
    (last : issued.getLast? = some credentials) (has : PoolHas s.pool id credentials)
    (saved : ok = true → Shows file s.disk s.accounts.accounts ∧ Carried s.accounts.accounts id credentials)
    (others : ∀ other refresh, refreshes.get? other = some refresh →
      other ≠ id ∧ s.refreshes.get? other = some refresh ∨
      other = id ∧ validId id = true ∧
        (refresh = .requesting ∨ ∃ reloaded, refresh = .adopting reloaded ∧ reloaded.credentials = credentials)) :
    Rotation file { s with
      active := none
      refreshes := refreshes
      issued := Function.update s.issued id issued
      returned := Function.update s.returned id issued.length
      persisted := if ok then Function.update s.persisted id issued.length else s.persisted } := by
  have counts := rotation.counts id
  have longer : (s.issued id).length ≤ issued.length := more.length_le
  have newest : ∀ n, n ≤ issued.length → AtLeast issued n credentials := fun n within => AtLeast.last last within
  have stays : ∀ other, other ≠ id → Function.update s.issued id issued other = s.issued other ∧
      Function.update s.returned id issued.length other = s.returned other ∧
      (if ok then Function.update s.persisted id issued.length else s.persisted) other = s.persisted other := by
    intro other different
    refine ⟨Function.update_of_ne different .., Function.update_of_ne different .., ?_⟩
    split
    · exact Function.update_of_ne different ..
    · rfl
  have good : ∀ account, s.Good account → (ok = true → account.id = id → account.credentials = credentials) →
      AtLeast (Function.update s.issued id issued account.id)
        ((if ok then Function.update s.persisted id issued.length else s.persisted) account.id) account.credentials := by
    intro account old own
    by_cases same : account.id = id
    · cases ok with
      | true =>
        rw [own rfl same, same, Function.update_self, if_pos rfl, Function.update_self]
        exact newest _ (Nat.le_refl _)
      | false =>
        have before := old.2
        rw [same] at before ⊢
        rw [Function.update_self, if_neg (by decide)]
        exact before.mono more
    · rw [(stays _ same).1, (stays _ same).2.2]
      exact old.2
  constructor
  · exact rotation.named
  · intro other
    dsimp only
    by_cases same : other = id
    · subst same
      rw [Function.update_self, Function.update_self]
      refine ⟨?_, Nat.le_refl _⟩
      split
      · rw [Function.update_self]
      · omega
    · rw [(stays other same).1, (stays other same).2.1, (stays other same).2.2]
      exact rotation.counts other
  · intro other account found
    obtain ⟨proper, before⟩ := rotation.pool other account found
    refine ⟨proper, ?_⟩
    dsimp only
    by_cases same : other = id
    · subst same
      rw [Function.update_self, Function.update_self, has account found]
      exact newest _ (Nat.le_refl _)
    · rw [(stays other same).1, (stays other same).2.1]
      exact before
  · cases ok with
    | true =>
      obtain ⟨shows, carried⟩ := saved rfl
      refine shows.holds fun account member => ⟨(rotation.memory account member).1, ?_⟩
      exact good account (rotation.memory account member) fun _ same => carried.agrees rotation.sound.keyed member same
    | false => exact rotation.held.imp fun account old => ⟨old.1, good account old fun none => by cases none⟩
  · exact rotation.sound
  · intro account member
    have old := rotation.memory account member
    refine ⟨old.1, good account old fun fine same => ?_⟩
    exact (saved fine).2.agrees rotation.sound.keyed member same
  · intro other refresh there
    rcases others other refresh there with ⟨different, before⟩ | ⟨rfl, valid, kind⟩
    · obtain ⟨valid, stands⟩ := rotation.refreshes other refresh before
      refine ⟨valid, ?_⟩
      cases refresh with
      | persisting refreshed =>
        refine ⟨stands.1, ?_⟩
        dsimp only
        rw [(stays other different).1]
        exact stands.2
      | adopting reloaded =>
        show AtLeast (Function.update s.issued id issued other) (Function.update s.returned id issued.length other) _
        rw [(stays other different).1, (stays other different).2.1]
        exact stands
      | requesting => trivial
      | reloading => trivial
    · refine ⟨valid, ?_⟩
      rcases kind with rfl | ⟨reloaded, rfl, rfl⟩
      · trivial
      · show AtLeast (Function.update s.issued other issued other) (Function.update s.returned other issued.length other) _
        rw [Function.update_self, Function.update_self]
        exact newest _ (Nat.le_refl _)
  · exact fun _ none => by cases none

theorem Rotation.leave (rotation : Rotation file s)
    (fewer : ∀ id refresh, refreshes.get? id = some refresh → s.refreshes.get? id = some refresh) :
    Rotation file { s with active := none, refreshes := refreshes } where
  named := rotation.named
  counts := rotation.counts
  pool := rotation.pool
  held := rotation.held
  sound := rotation.sound
  memory := rotation.memory
  refreshes := fun id refresh here => rotation.refreshes id refresh (fewer id refresh here)
  active := fun _ none => by cases none

theorem erase_fewer (id : String) :
    ∀ other refresh, (refreshes.erase id).get? other = some refresh →
      other ≠ id ∧ refreshes.get? other = some refresh := by
  intro other refresh here
  rw [Table.get?_erase] at here
  split at here
  · cases here
  · rename_i different
    exact ⟨different, here⟩

theorem refreshReturns_rotation (rotation : Rotation file s)
    (here : s.refreshes.get? refreshed.accountId = some (.persisting refreshed)) (ok : Bool)
    (has : PoolHas s.pool refreshed.accountId refreshed.credentials)
    (saved : ok = true → Shows file s.disk s.accounts.accounts ∧
      Carried s.accounts.accounts refreshed.accountId refreshed.credentials) :
    Rotation file ({ s with active := none }.refreshReturns refreshed.accountId ok) := by
  obtain ⟨-, -, last⟩ := rotation.refreshes _ _ here
  have returned := returns_rotation rotation ok List.prefix_rfl last has saved
    fun other refresh there => .inl (erase_fewer refreshed.accountId other refresh there)
  rw [Function.update_eq_self] at returned
  exact returned

theorem release_rotation (rotation : Rotation file s) (here : s.active = some active) {outcome : Outcome}
    (phase : active.phase = .finished outcome) : Rotation file (s.release active outcome) := by
  have rotates := rotation.active active here
  have after : active.phase.before = false := by rw [phase]; rfl
  have stage := rotates.stage
  rw [phase] at stage
  unfold System.release
  split
  · rename_i refreshed own
    apply refreshReturns_rotation rotation (rotates.persisting refreshed own) _ (rotates.asserted after refreshed own)
    intro ok
    cases outcome with
    | error error => cases ok
    | ok reloaded =>
      obtain ⟨shows, carried, -⟩ := stage reloaded rfl refreshed.accountId refreshed.credentials (by rw [own]; rfl)
      exact ⟨shows, carried⟩
  · rename_i id own
    have marked := rotates.reloading id own
    unfold System.reloadReturns
    split
    · rename_i reloaded
      obtain ⟨shows, carried, has⟩ := stage (some reloaded) rfl id reloaded.credentials (by rw [own]; rfl)
      apply returns_rotation rotation true (List.prefix_append ..) List.getLast?_concat has fun _ => ⟨shows, carried⟩
      intro other refresh there
      rw [Table.get?_insert] at there
      split at there
      · rename_i same
        cases there
        exact .inr ⟨same, (rotation.refreshes id _ marked).1, .inr ⟨reloaded, rfl, rfl⟩⟩
      · rename_i different
        exact .inl ⟨different, there⟩
    · exact rotation.leave fun other refresh there => (erase_fewer id other refresh there).2
  · exact rotation.leave fun _ _ there => there

theorem lockFails_rotation (rotation : Rotation file s) (id : String)
    (allowed : InstallsCurrent file s (.lockFails id)) : Rotation file (s.lockFails id) := by
  unfold System.lockFails
  split
  · rename_i refreshed idle here
    obtain ⟨-, rfl, -⟩ := rotation.refreshes id _ here
    have has : PoolHas s.pool refreshed.accountId refreshed.credentials := allowed _ here
    have returned := refreshReturns_rotation rotation here false has fun never => by cases never
    rw [← idle] at returned
    exact returned
  · exact rotation

theorem advance_rotation (rotation : Rotation file s) (here : s.active = some active) (world : World)
    (allowed : s.Allows file active) : Rotation file (s.advance file active world) := by
  unfold System.advance
  split
  · rename_i refreshed phase
    exact assertRefreshed_rotation rotation here phase
  · rename_i left read phase
    exact readPool_rotation rotation here phase
  · rename_i snapshot phase
    split
    · exact loadFile_rotation rotation here phase world allowed
    · exact withPhase_rotation rotation here (by rw [phase]; rfl) (stage_failed _)
  · rename_i next phase
    exact save_rotation rotation here phase world
  · rename_i next reloaded phase
    exact saved_rotation rotation here phase allowed
  · rename_i left next reloaded phase
    exact install_rotation rotation here phase
  · exact rotation

theorem step_rotation (rotation : Rotation file s) (action : Action) (allowed : InstallsCurrent file s action) :
    Rotation file (step file s action) := by
  cases action with
  | begin transaction settings => exact begin_rotation rotation transaction settings
  | advance world =>
    simp only [step]
    cases here : s.active with
    | none => exact rotation
    | some active => exact advance_rotation rotation here world (allowed active here)
  | release =>
    simp only [step]
    cases here : s.active with
    | none => exact rotation
    | some active =>
      dsimp only
      split
      · rename_i outcome phase
        exact release_rotation rotation here phase
      · exact rotation
  | probe id probe => exact probe_rotation rotation id probe
  | refresh id => exact refresh_rotation rotation id
  | giveUp id => exact giveUp_rotation rotation id
  | adopt id again => exact adopt_rotation rotation id again
  | tokens id tokens now => exact tokens_rotation rotation id tokens now
  | lockFails id => exact lockFails_rotation rotation id allowed

end Quiet

structure Starts (s : System) : Prop where
  active : s.active = none
  refreshes : s.refreshes = ∅
  counts : ∀ id, s.returned id = 0 ∧ s.persisted id = 0
  named : Named s.pool
  pool : ∀ id account, s.pool.get? id = some account → Proper account
  held : Holds file s.disk Proper
  sound : Sound s.accounts
  memory : ∀ account ∈ s.accounts.accounts, Proper account

variable {file} in
theorem Starts.rotation {s : System} (starts : Starts file s) : Rotation file s where
  named := starts.named
  counts := fun id => by
    rw [(starts.counts id).1, (starts.counts id).2]
    exact ⟨Nat.le_refl 0, Nat.zero_le _⟩
  pool := fun id account here => ⟨starts.pool id account here, .inl (starts.counts id).1⟩
  held := starts.held.imp fun account proper => ⟨proper, .inl (starts.counts account.id).2⟩
  sound := starts.sound
  memory := fun account member => ⟨starts.memory account member, .inl (starts.counts account.id).2⟩
  refreshes := fun id refresh here => by
    rw [starts.refreshes] at here
    cases here
  active := fun active here => by
    rw [starts.active] at here
    cases here

/-- The pool holds the credentials of the last refresh that is over, or newer ones; the file, those
of the last one that is over without a persistence error; and a persistence that ends well leaves
its own in the file. -/
theorem rotated_credentials_kept (s : System) (starts : Starts file s) (actions : List Action)
    (current : Along (step file) (InstallsCurrent file) s actions) :
    (∀ id account, (run (step file) s actions).pool.get? id = some account →
      AtLeast ((run (step file) s actions).issued id) ((run (step file) s actions).returned id) account.credentials) ∧
    ∃ accounts, Store.load file (run (step file) s actions).disk = .ok { accounts := accounts } ∧
      (∀ account ∈ accounts, AtLeast ((run (step file) s actions).issued account.id)
        ((run (step file) s actions).persisted account.id) account.credentials) ∧
      ∀ active ∈ (run (step file) s actions).active, ∀ refreshed reloaded,
        active.transaction = .persistRefreshedCredentials refreshed → active.phase = .finished (.ok reloaded) →
          ∃ account ∈ accounts, account.id = refreshed.accountId ∧ account.credentials = refreshed.credentials := by
  have reached := Run.run_keeps (fun s action rotation allowed => step_rotation rotation action allowed) current
    starts.rotation
  generalize run (step file) s actions = final at reached
  refine ⟨fun id account here => (reached.pool id account here).2, ?_⟩
  obtain ⟨accounts, loads, -, good, -⟩ := reached.held.load
  refine ⟨accounts, loads, fun account member => (good account member).2, ?_⟩
  intro active here refreshed reloaded own phase
  have stage := (reached.active active here).stage
  rw [phase] at stage
  obtain ⟨shows, carried, -⟩ := stage reloaded rfl refreshed.accountId refreshed.credentials (by rw [own]; rfl)
  obtain ⟨account, found, equal⟩ := carried
  obtain ⟨member, same⟩ := byId_mem found
  obtain ⟨loaded, again, listed⟩ := shows.load reached.sound.keyed
  cases loads.symm.trans again
  exact ⟨account, (listed account).mpr member, same, equal⟩

/-! ### A refresh that could not be saved -/

def renewed : Refresh.RefreshResponse where
  accessToken := "renewed"
  refreshToken := some "next"
  expiresIn := 3600
  profileArn := none

def fullDisk : World := { quietWorld with fault := some 0 }

def refreshing (saving : World) : List Action :=
  [.refresh "acc_00000001", .tokens "acc_00000001" renewed 0,
    .begin (.persistRefreshedCredentials ⟨"acc_00000001", runningAccount.credentials, none⟩) {},
    .advance quietWorld, .advance quietWorld, .advance saving] ++ List.replicate 3 (.advance quietWorld) ++ [.release]

def refreshThenPersist : List Action :=
  refreshing quietWorld ++ [.begin .persistRuntimeAccounts {}] ++ List.replicate 7 (.advance quietWorld) ++ [.release]

def refreshThenLabel : List Action :=
  refreshing fullDisk ++ [.begin labelled {}] ++ List.replicate 5 (.advance quietWorld)

theorem running_starts : Starts "accounts.json" running := by
  have proper : Proper runningAccount := by decide
  have only : ∀ account ∈ [runningAccount], Proper account := by
    intro account member
    rw [List.mem_singleton.mp member]
    exact proper
  have keyed : Keyed [runningAccount] := ⟨by decide, by decide⟩
  constructor
  · rfl
  · rfl
  · exact fun _ => ⟨rfl, rfl⟩
  · exact running_named
  · intro id account here
    rw [running, Table.get?_insert] at here
    split at here
    · cases here
      exact proper
    · cases here
  · refine ⟨[runningAccount], ⟨keyed, rfl, ?_⟩, ?_⟩
    · intro name content here
      rw [running, Table.get?_insert] at here
      split at here
      · rename_i same
        cases same
      · cases here
    · intro id _ account here
      rw [Store.view_of_base rfl] at here
      exact only account (byId_mem here).1
  · exact Store.sound_clean keyed
  · exact only

theorem rotated_credentials_kept_persist :
    ((run (step "accounts.json") running refreshThenPersist).pool.get? "acc_00000001").map
      (·.credentials.accessToken) = some "renewed" ∧
    (run (step "accounts.json") running refreshThenPersist).persisted "acc_00000001" = 1 ∧
    ∀ id account, (run (step "accounts.json") running refreshThenPersist).pool.get? id = some account →
      AtLeast ((run (step "accounts.json") running refreshThenPersist).issued id)
        ((run (step "accounts.json") running refreshThenPersist).returned id) account.credentials :=
  ⟨by decide, by decide,
    (rotated_credentials_kept "accounts.json" running running_starts refreshThenPersist (by decide)).1⟩

/-- The credentials from before the refresh are in the pool again. -/
theorem label_rolls_back :
    ((run (step "accounts.json") running refreshThenLabel).issued "acc_00000001").map (·.accessToken) = ["renewed"] ∧
    (run (step "accounts.json") running refreshThenLabel).returned "acc_00000001" = 1 ∧
    ((run (step "accounts.json") running refreshThenLabel).pool.get? "acc_00000001").map
      (fun account => (account.label, account.credentials.accessToken)) = some (some "team", "access") ∧
    ¬ ∀ id account, (run (step "accounts.json") running refreshThenLabel).pool.get? id = some account →
      AtLeast ((run (step "accounts.json") running refreshThenLabel).issued id)
        ((run (step "accounts.json") running refreshThenLabel).returned id) account.credentials := by
  refine ⟨by decide, by decide, by decide, fun kept => ?_⟩
  have older : ((run (step "accounts.json") running refreshThenLabel).pool.get? "acc_00000001").map
      (fun account => decide (AtLeast ((run (step "accounts.json") running refreshThenLabel).issued "acc_00000001")
        ((run (step "accounts.json") running refreshThenLabel).returned "acc_00000001") account.credentials)) =
        some false := by decide
  obtain ⟨account, there, verdict⟩ := Option.map_eq_some_iff.mp older
  exact of_decide_eq_false verdict (kept "acc_00000001" account there)

end KiroProxy.AccountTransactions

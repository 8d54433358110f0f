import KiroProxy.Daemon.AccountTransactions
import KiroProxy.Store.Load

/-! The fields of an account that probes own: usage, subscription, upstream user and the mark of
exhausted credits. They reach the pool first and the file later; a transaction that installs the
file brings back what the file knows. -/
namespace KiroProxy.AccountTransactions

open Run (Along run)
open Store (Account AccountStore Disk Subscription Usage)

/-! ### What a transaction may leave -/

structure RuntimeFields where
  usage : Option Usage
  subscription : Option Subscription
  upstreamUserId : Option String
  creditExhausted : Bool
  deriving DecidableEq

def runtimeFields (account : Account) : RuntimeFields where
  usage := account.usage
  subscription := account.subscription
  upstreamUserId := account.upstreamUserId
  creditExhausted := account.creditExhausted

section Known

variable (held : Table String Account) (written : List (String × Account)) (id : String)

/-- The value is that of an account in `held`, or of one written since. -/
def Knows {α : Type} (field : RuntimeFields → α) (value : α) : Prop :=
  (∃ account ∈ held.get? id, field (runtimeFields account) = value) ∨
    ∃ entry ∈ written, entry.1 = id ∧ field (runtimeFields entry.2) = value

structure KnownFields (fields : RuntimeFields) : Prop where
  usage : Knows held written id RuntimeFields.usage fields.usage
  subscription : Knows held written id RuntimeFields.subscription fields.subscription
  upstreamUserId : Knows held written id RuntimeFields.upstreamUserId fields.upstreamUserId
  creditExhausted : Knows held written id RuntimeFields.creditExhausted fields.creditExhausted

end Known

/-- The value was in the pool when the transaction took the lock, or was written to it since. -/
def Active.Knows (active : Active) (id : String) {α : Type} (field : RuntimeFields → α) (value : α) : Prop :=
  AccountTransactions.Knows active.held active.written id field value

def Active.Known (active : Active) (id : String) (fields : RuntimeFields) : Prop :=
  KnownFields active.held active.written id fields

/-- Every account that was in the pool and still is has values that the transaction may leave. -/
def Active.Keeps (active : Active) (pool : Table String Account) : Prop :=
  ∀ id account, pool.get? id = some account → (active.held.get? id).isSome →
    active.Known id (runtimeFields account)

def Transaction.merges : Transaction → Bool
  | .persistRuntimeAccounts => true
  | _ => false

/-- What the transaction takes from the file for an account, where it takes anything, is known. -/
def Active.Fresh (active : Active) (id : String) : Prop :=
  ∀ stored ∈ active.loaded, stored.id = id → (active.held.get? id).isSome →
    if active.transaction.merges then
      (∀ runtime ∈ active.snapshot, runtime.id = id →
        (runtime.usage = none → active.Knows id RuntimeFields.usage stored.usage) ∧
        (runtime.subscription = none → active.Knows id RuntimeFields.subscription stored.subscription)) ∧
      (stored.upstreamUserId ≠ none → active.Knows id RuntimeFields.upstreamUserId stored.upstreamUserId)
    else active.Known id (runtimeFields stored)

/-- A mutation that leaves these fields alone; an account that it adds is new to the pool. -/
def LeavesRuntime (held : Table String Account) (store changed : AccountStore) : Prop :=
  ∀ account ∈ changed.accounts, (held.get? account.id).isSome →
    ∃ stored ∈ store.accounts, stored.id = account.id ∧ runtimeFields account = runtimeFields stored

def Unambiguous (store : AccountStore) (snapshot : List Account) : Prop :=
  (store.accounts.map Account.id).Nodup ∧
    ∀ stored ∈ store.accounts, ∀ runtime ∈ snapshot, stored.email = runtime.id → stored.id = runtime.id

def Active.Loads (active : Active) (snapshot : List Account) (loaded : AccountStore) : Prop :=
  match active.transaction with
  | .commitAccountChange mutate =>
    let store := configureAccountStore active.settings loaded
    ∀ edits ∈ (mutate store).toOption, LeavesRuntime active.held store (edits.foldl Edit.apply store)
  | .persistRuntimeAccounts => Unambiguous loaded snapshot
  | _ => True

variable (file : String)

def Active.Ready (active : Active) (disk : Store.Disk) : Prop :=
  match active.phase with
  | .loading snapshot => ∀ loaded ∈ (Store.load file disk).toOption, active.Loads snapshot loaded
  | .installing (account :: _) _ _ => active.Fresh account.id
  | _ => True

def InstallsFresh (s : System) : Action → Prop
  | .advance _ => ∀ active ∈ s.active, active.Ready file s.disk
  | _ => True

section Decide

variable {file} (active : Active) (id : String)

instance {α : Type} [DecidableEq α] (field : RuntimeFields → α) (value : α) : Decidable (active.Knows id field value) :=
  inferInstanceAs (Decidable ((∃ account ∈ active.held.get? id, field (runtimeFields account) = value) ∨
    ∃ entry ∈ active.written, entry.1 = id ∧ field (runtimeFields entry.2) = value))

instance (fields : RuntimeFields) : Decidable (active.Known id fields) :=
  decidable_of_iff (active.Knows id RuntimeFields.usage fields.usage ∧
      active.Knows id RuntimeFields.subscription fields.subscription ∧
      active.Knows id RuntimeFields.upstreamUserId fields.upstreamUserId ∧
      active.Knows id RuntimeFields.creditExhausted fields.creditExhausted)
    ⟨fun known => ⟨known.1, known.2.1, known.2.2.1, known.2.2.2⟩, fun known => ⟨known.1, known.2, known.3, known.4⟩⟩

instance : Decidable (active.Fresh id) :=
  inferInstanceAs (Decidable (∀ stored ∈ active.loaded, stored.id = id → (active.held.get? id).isSome →
    if active.transaction.merges then
      (∀ runtime ∈ active.snapshot, runtime.id = id →
        (runtime.usage = none → active.Knows id RuntimeFields.usage stored.usage) ∧
        (runtime.subscription = none → active.Knows id RuntimeFields.subscription stored.subscription)) ∧
      (stored.upstreamUserId ≠ none → active.Knows id RuntimeFields.upstreamUserId stored.upstreamUserId)
    else active.Known id (runtimeFields stored)))

instance (held : Table String Account) (store changed : AccountStore) : Decidable (LeavesRuntime held store changed) :=
  inferInstanceAs (Decidable (∀ account ∈ changed.accounts, (held.get? account.id).isSome →
    ∃ stored ∈ store.accounts, stored.id = account.id ∧ runtimeFields account = runtimeFields stored))

instance (store : AccountStore) (snapshot : List Account) : Decidable (Unambiguous store snapshot) :=
  inferInstanceAs (Decidable (_ ∧ _))

instance (snapshot : List Account) (loaded : AccountStore) : Decidable (active.Loads snapshot loaded) := by
  unfold Active.Loads
  exact match active.transaction with
    | .commitAccountChange _ => inferInstanceAs (Decidable (∀ edits ∈ Except.toOption _, LeavesRuntime _ _ _))
    | .persistRuntimeAccounts => inferInstanceAs (Decidable (Unambiguous loaded snapshot))
    | .persistRefreshedCredentials _ | .reloadAccountCredentials _ | .applyAccountFileReload => instDecidableTrue

instance (disk : Store.Disk) : Decidable (active.Ready file disk) := by
  unfold Active.Ready
  exact match active.phase with
    | .loading snapshot => inferInstanceAs (Decidable (∀ loaded ∈ Except.toOption _, active.Loads snapshot loaded))
    | .installing (account :: _) _ _ => inferInstanceAs (Decidable (active.Fresh account.id))
    | .installing [] _ _ | .asserting _ | .snapshotting _ _ | .saving _ | .saved _ _ | .finished _ => instDecidableTrue

instance (s : System) : (action : Action) → Decidable (InstallsFresh file s action)
  | .advance _ => inferInstanceAs (Decidable (∀ active ∈ s.active, active.Ready file s.disk))
  | .begin _ _ | .release | .probe _ _ | .refresh _ | .giveUp _ | .adopt _ _ | .tokens _ _ _ | .lockFails _ =>
    instDecidableTrue

end Decide

/-! ### Writes to the pool -/

section Pool

variable {s : System} {active : Active} {pool : Table String Account} {id : String}

@[simp] theorem get?_writePool (s : System) (accountId : String) (write : Account → Account) (id : String) :
    (s.writePool accountId write).pool.get? id =
      if id = accountId then (s.pool.get? id).map write else s.pool.get? id := by
  unfold System.writePool
  cases here : s.pool.get? accountId with
  | none =>
    by_cases same : id = accountId
    · subst same
      simp [here]
    · simp [same]
  | some account =>
    by_cases same : id = accountId
    · subst same
      simp [here]
    · simp [same]

@[simp] theorem writePool_active (s : System) (accountId : String) (write : Account → Account) :
    (s.writePool accountId write).active = s.active := by
  unfold System.writePool
  split <;> rfl

def Named (pool : Table String Account) : Prop := ∀ id account, pool.get? id = some account → account.id = id

theorem Named.write (named : Named s.pool) (accountId : String) {write : Account → Account}
    (keeps : ∀ account, s.pool.get? accountId = some account → (write account).id = accountId) :
    Named (s.writePool accountId write).pool := by
  intro id account here
  rw [get?_writePool] at here
  split at here
  · rename_i same
    subst same
    obtain ⟨before, found, rfl⟩ := Option.map_eq_some_iff.mp here
    exact keeps before found
  · exact named id account here

theorem replaced_entries {P : String → Account → Prop} (accounts : List Account)
    (each : ∀ account ∈ accounts, P account.id ((pool.get? account.id).getD account)) {account : Account}
    (here : (replaced pool accounts).get? id = some account) : P id account := by
  have every : ∀ next : Table String Account, (∀ account, next.get? id = some account → P id account) →
      ∀ account, (accounts.foldl (fun next account =>
        next.insert account.id ((pool.get? account.id).getD account)) next).get? id = some account →
        P id account := by
    clear here
    induction accounts with
    | nil => exact fun next before => before
    | cons other rest ih =>
      intro next before
      apply ih (fun account member => each account (List.mem_cons_of_mem _ member))
      intro found here
      rw [Table.get?_insert] at here
      split at here
      · rename_i same
        subst same
        cases here
        exact each other List.mem_cons_self
      · exact before found here
  exact every ∅ (fun account here => by cases here) account here

theorem Named.replaced (named : Named pool) (accounts : List Account) :
    Named (AccountTransactions.replaced pool accounts) := by
  intro id account here
  refine replaced_entries (P := fun id account => account.id = id) accounts ?_ here
  intro listed _
  cases there : pool.get? listed.id with
  | none => rfl
  | some current => exact named listed.id current there

theorem get?_replaced (accounts : List Account) {account current : Account}
    (here : (replaced pool accounts).get? id = some account) (there : pool.get? id = some current) :
    account = current := by
  refine replaced_entries (P := fun id account => pool.get? id = some current → account = current) accounts ?_
    here there
  intro listed _ found
  rw [found]
  rfl

/-! ### What stays known -/

theorem Knows.mono {held held' : Table String Account} {written written' : List (String × Account)} {α : Type}
    {field : RuntimeFields → α} {value : α} (knows : Knows held written id field value) (same : held' = held)
    (more : written ⊆ written') : Knows held' written' id field value := by
  rcases knows with ⟨account, here, equal⟩ | ⟨account, member, equal⟩
  · exact .inl ⟨account, same ▸ here, equal⟩
  · exact .inr ⟨account, more member, equal⟩

theorem Active.Known.mono {active' : Active} {fields : RuntimeFields} (known : active.Known id fields)
    (held : active'.held = active.held) (written : active.written ⊆ active'.written) :
    active'.Known id fields where
  usage := Knows.mono known.usage held written
  subscription := Knows.mono known.subscription held written
  upstreamUserId := Knows.mono known.upstreamUserId held written
  creditExhausted := Knows.mono known.creditExhausted held written

theorem Active.known_held {account : Account} (here : active.held.get? id = some account) :
    active.Known id (runtimeFields account) where
  usage := .inl ⟨account, here, rfl⟩
  subscription := .inl ⟨account, here, rfl⟩
  upstreamUserId := .inl ⟨account, here, rfl⟩
  creditExhausted := .inl ⟨account, here, rfl⟩

theorem Active.known_written {account : Account} (member : (id, account) ∈ active.written) :
    active.Known id (runtimeFields account) where
  usage := .inr ⟨_, member, rfl, rfl⟩
  subscription := .inr ⟨_, member, rfl, rfl⟩
  upstreamUserId := .inr ⟨_, member, rfl, rfl⟩
  creditExhausted := .inr ⟨_, member, rfl, rfl⟩

theorem Active.Keeps.write (keeps : active.Keeps s.pool) (accountId : String) {write : Account → Account}
    (known : ∀ account, s.pool.get? accountId = some account → (active.held.get? accountId).isSome →
      active.Known accountId (runtimeFields account) → active.Known accountId (runtimeFields (write account))) :
    active.Keeps (s.writePool accountId write).pool := by
  intro id account here held
  rw [get?_writePool] at here
  split at here
  · rename_i same
    subst same
    obtain ⟨before, found, rfl⟩ := Option.map_eq_some_iff.mp here
    exact known before found held (keeps id before found held)
  · exact keeps id account here held

end Pool

/-! ### Merging the pool into the file -/

variable {stored : Account}

section Merge

variable {store : AccountStore} {active : Active} {snapshot : List Account} {id : String}

theorem updateFirst_map {hit : Account → Bool} (change : Account → Account) :
    ∀ accounts : List Account, (∀ account ∈ accounts, hit account = true → account.id = id) →
      (accounts.map Account.id).Nodup → (∀ account ∈ accounts, account.id = id → hit account = true) →
      AccountStore.updateFirst hit change accounts =
        accounts.map fun account => if account.id = id then change account else account
  | [], _, _, _ => rfl
  | account :: rest, only, distinct, all => by
    rw [List.map_cons, List.nodup_cons] at distinct
    have tail := updateFirst_map change rest (fun other member => only other (List.mem_cons_of_mem _ member))
      distinct.2 (fun other member => all other (List.mem_cons_of_mem _ member))
    rw [AccountStore.updateFirst, List.map_cons]
    by_cases hits : hit account = true
    · have same := only account List.mem_cons_self hits
      have others : rest.map (fun account => if account.id = id then change account else account) = rest := by
        have each : ∀ other ∈ rest, (if other.id = id then change other else other) = other := by
          intro other member
          refine if_neg fun also => distinct.1 ?_
          rw [same, ← also]
          exact List.mem_map_of_mem member
        rw [List.map_congr_left each, List.map_id']
      rw [if_pos hits, if_pos same, others]
    · have different : account.id ≠ id := fun same => hits (all account List.mem_cons_self same)
      rw [if_neg hits, if_neg different, tail]

theorem mergeRuntimeAccount_accounts (distinct : (store.accounts.map Account.id).Nodup) (runtime : Account)
    (clear : ∀ stored ∈ store.accounts, stored.email = runtime.id → stored.id = runtime.id) :
    (mergeRuntimeAccount store runtime).1.accounts =
      store.accounts.map fun stored => if stored.id = runtime.id then mergedAccount stored runtime else stored := by
  unfold mergeRuntimeAccount
  cases found : store.find runtime.id with
  | none =>
    have none_named := List.find?_eq_none.mp found
    have each : ∀ stored ∈ store.accounts,
        (if stored.id = runtime.id then mergedAccount stored runtime else stored) = stored := by
      intro stored member
      refine if_neg fun same => none_named stored member ?_
      simp [AccountStore.named, same]
    rw [List.map_congr_left each, List.map_id']
  | some stored =>
    have member := List.mem_of_find?_eq_some found
    have hit := List.find?_some found
    have same : stored.id = runtime.id := by
      simp only [AccountStore.named, decide_eq_true_eq] at hit
      exact hit.elim (fun named => named) (clear stored member)
    have first : store.accounts.find? (·.id = (mergedAccount stored runtime).id) = some stored := by
      have here := Store.byId_of_mem distinct member
      exact here
    simp only [AccountStore.replaceIfChanged, first]
    have changed : ∀ other ∈ store.accounts,
        (if other.id = runtime.id then mergedAccount other runtime else other) =
          if other.id = runtime.id then mergedAccount stored runtime else other := by
      intro other inside
      by_cases also : other.id = runtime.id
      · have twin := Store.byId_of_mem distinct inside
        rw [also, ← same] at twin
        have equal : other = stored := Option.some.inj (twin.symm.trans first)
        rw [equal]
      · rw [if_neg also, if_neg also]
    rw [List.map_congr_left changed]
    split
    · rename_i unchanged
      have each : ∀ other ∈ store.accounts,
          (if other.id = runtime.id then mergedAccount stored runtime else other) = other := by
        intro other inside
        by_cases also : other.id = runtime.id
        · have twin := Store.byId_of_mem distinct inside
          rw [also, ← same] at twin
          rw [if_pos also, ← unchanged]
          exact Option.some.inj (first.symm.trans twin)
        · exact if_neg also
      rw [List.map_congr_left each, List.map_id']
    · show AccountStore.updateFirst _ _ store.accounts = _
      apply updateFirst_map
      · intro other _ hits
        exact (of_decide_eq_true hits).trans same
      · exact distinct
      · intro other _ also
        exact decide_eq_true (also.trans same.symm)

theorem mergedAccount_id (stored runtime : Account) : (mergedAccount stored runtime).id = stored.id := rfl

theorem mergeRuntimeAccounts_accounts (distinct : (store.accounts.map Account.id).Nodup)
    (snapshot : List Account)
    (clear : ∀ stored ∈ store.accounts, ∀ runtime ∈ snapshot, stored.email = runtime.id → stored.id = runtime.id) :
    (mergeRuntimeAccounts store snapshot).accounts =
      store.accounts.map fun stored => (snapshot.filter (stored.id = ·.id)).foldl mergedAccount stored := by
  induction snapshot generalizing store with
  | nil => simp [mergeRuntimeAccounts]
  | cons runtime rest ih =>
    have once := mergeRuntimeAccount_accounts distinct runtime
      (fun stored member => clear stored member runtime List.mem_cons_self)
    have step : mergeRuntimeAccounts store (runtime :: rest) =
        mergeRuntimeAccounts (mergeRuntimeAccount store runtime).1 rest := rfl
    have ids : (mergeRuntimeAccount store runtime).1.accounts.map Account.id = store.accounts.map Account.id := by
      rw [once, List.map_map]
      apply List.map_congr_left
      intro stored _
      by_cases same : stored.id = runtime.id <;> simp [same, mergedAccount_id]
    have kept : ∀ stored ∈ (mergeRuntimeAccount store runtime).1.accounts, ∀ other ∈ rest,
        stored.email = other.id → stored.id = other.id := by
      intro stored member other later same
      rw [once] at member
      obtain ⟨before, inside, rfl⟩ := List.mem_map.mp member
      have named := clear before inside other (List.mem_cons_of_mem _ later)
      by_cases hit : before.id = runtime.id
      · rw [if_pos hit] at same ⊢
        exact named same
      · rw [if_neg hit] at same ⊢
        exact named same
    rw [step, ih (by rw [ids]; exact distinct) kept, once, List.map_map]
    apply List.map_congr_left
    intro stored _
    by_cases same : stored.id = runtime.id
    · simp [same, mergedAccount_id]
    · simp [same]

/-- What the merge gives an account: what the pool knows, or, where the pool has nothing to say,
what is stored. -/
structure MergedFields (held : Table String Account) (written : List (String × Account))
    (snapshot : List Account) (stored account : Account) : Prop where
  usage : Knows held written account.id RuntimeFields.usage account.usage ∨ account.usage = stored.usage ∧
    ∃ runtime ∈ snapshot, runtime.id = account.id ∧ runtime.usage = none
  subscription : Knows held written account.id RuntimeFields.subscription account.subscription ∨
    account.subscription = stored.subscription ∧
      ∃ runtime ∈ snapshot, runtime.id = account.id ∧ runtime.subscription = none
  upstreamUserId : Knows held written account.id RuntimeFields.upstreamUserId account.upstreamUserId ∨
    account.upstreamUserId = stored.upstreamUserId ∧ stored.upstreamUserId ≠ none
  creditExhausted : Knows held written account.id RuntimeFields.creditExhausted account.creditExhausted

def Active.MergedFrom (active : Active) (snapshot : List Account) (stored account : Account) : Prop :=
  MergedFields active.held active.written snapshot stored account

theorem mergedFrom_first {runtime : Account} (member : runtime ∈ snapshot) (same : stored.id = runtime.id)
    (known : active.Known runtime.id (runtimeFields runtime)) :
    active.MergedFrom snapshot stored (mergedAccount stored runtime) := by
  have here : active.Known stored.id (runtimeFields runtime) := by
    rw [same]
    exact known
  constructor
  · cases used : runtime.usage with
    | none => exact .inr ⟨by simp [mergedAccount, used], runtime, member, same.symm, used⟩
    | some usage =>
      have knows := here.usage
      simp only [runtimeFields, used] at knows
      exact .inl (by simpa [mergedAccount, used] using knows)
  · cases subscribed : runtime.subscription with
    | none => exact .inr ⟨by simp [mergedAccount, subscribed], runtime, member, same.symm, subscribed⟩
    | some subscription =>
      have knows := here.subscription
      simp only [runtimeFields, subscribed] at knows
      exact .inl (by simpa [mergedAccount, subscribed] using knows)
  · cases bound : stored.upstreamUserId with
    | none =>
      left
      simp only [mergedAccount, bound, Option.none_or]
      exact here.upstreamUserId
    | some userId => exact .inr ⟨by simp [mergedAccount, bound], by simp⟩
  · exact here.creditExhausted

theorem mergedFrom_next {account runtime : Account} (merged : active.MergedFrom snapshot stored account)
    (same : account.id = runtime.id) (known : active.Known runtime.id (runtimeFields runtime)) :
    active.MergedFrom snapshot stored (mergedAccount account runtime) := by
  have here : active.Known account.id (runtimeFields runtime) := by
    rw [same]
    exact known
  constructor
  · cases used : runtime.usage with
    | none => simpa [mergedAccount, used] using merged.usage
    | some usage =>
      have knows := here.usage
      simp only [runtimeFields, used] at knows
      exact .inl (by simpa [mergedAccount, used] using knows)
  · cases subscribed : runtime.subscription with
    | none => simpa [mergedAccount, subscribed] using merged.subscription
    | some subscription =>
      have knows := here.subscription
      simp only [runtimeFields, subscribed] at knows
      exact .inl (by simpa [mergedAccount, subscribed] using knows)
  · cases bound : account.upstreamUserId with
    | none =>
      left
      simp only [mergedAccount, bound, Option.none_or]
      exact here.upstreamUserId
    | some userId => simpa [mergedAccount, bound] using merged.upstreamUserId
  · exact here.creditExhausted

theorem mergedFrom_foldl {account : Account} (runtimes : List Account)
    (merged : active.MergedFrom snapshot stored account)
    (each : ∀ runtime ∈ runtimes, account.id = runtime.id ∧ active.Known runtime.id (runtimeFields runtime)) :
    active.MergedFrom snapshot stored (runtimes.foldl mergedAccount account) := by
  induction runtimes generalizing account with
  | nil => exact merged
  | cons runtime rest ih =>
    obtain ⟨same, known⟩ := each runtime List.mem_cons_self
    exact ih (mergedFrom_next merged same known) fun other member => each other (List.mem_cons_of_mem _ member)

theorem foldl_mergedAccount_id (stored : Account) (runtimes : List Account) :
    (runtimes.foldl mergedAccount stored).id = stored.id := by
  induction runtimes generalizing stored with
  | nil => rfl
  | cons runtime rest ih => exact ih (mergedAccount stored runtime)

theorem mergeRuntimeAccounts_from (clear : Unambiguous store snapshot)
    (complete : ∀ id, (active.held.get? id).isSome → ∃ runtime ∈ snapshot, runtime.id = id)
    (known : ∀ runtime ∈ snapshot, (active.held.get? runtime.id).isSome →
      active.Known runtime.id (runtimeFields runtime)) {account : Account}
    (member : account ∈ (mergeRuntimeAccounts store snapshot).accounts)
    (held : (active.held.get? account.id).isSome) :
    ∃ stored ∈ store.accounts, stored.id = account.id ∧ active.MergedFrom snapshot stored account := by
  rw [mergeRuntimeAccounts_accounts clear.1 snapshot clear.2] at member
  obtain ⟨stored, inside, rfl⟩ := List.mem_map.mp member
  rw [foldl_mergedAccount_id] at held
  refine ⟨stored, inside, (foldl_mergedAccount_id _ _).symm, ?_⟩
  have each : ∀ runtime ∈ snapshot.filter (stored.id = ·.id),
      runtime ∈ snapshot ∧ stored.id = runtime.id ∧ active.Known runtime.id (runtimeFields runtime) := by
    intro runtime listed
    obtain ⟨there, same⟩ := List.mem_filter.mp listed
    have named := of_decide_eq_true same
    exact ⟨there, named, known runtime there (named ▸ held)⟩
  obtain ⟨first, there, named⟩ := complete stored.id held
  cases mine : snapshot.filter (stored.id = ·.id) with
  | nil =>
    have listed : first ∈ snapshot.filter (stored.id = ·.id) :=
      List.mem_filter.mpr ⟨there, decide_eq_true named.symm⟩
    rw [mine] at listed
    cases listed
  | cons runtime rest =>
    rw [mine] at each
    obtain ⟨inSnapshot, same, knows⟩ := each runtime List.mem_cons_self
    rw [List.foldl_cons]
    refine mergedFrom_foldl rest (mergedFrom_first inSnapshot same knows) fun other member => ?_
    exact ⟨(each other (List.mem_cons_of_mem _ member)).2.1, (each other (List.mem_cons_of_mem _ member)).2.2⟩

end Merge

/-! ### The invariant of a transaction -/

def Active.From (active : Active) (account : Account) : Prop :=
  (active.held.get? account.id).isSome → ∃ stored ∈ active.loaded, stored.id = account.id ∧
    if active.transaction.merges then active.MergedFrom active.snapshot stored account
    else runtimeFields account = runtimeFields stored

def Active.Read (active : Active) (left : List String) (read : List Account) : Prop :=
  (∀ id, (active.held.get? id).isSome → id ∈ left ∨ ∃ runtime ∈ read, runtime.id = id) ∧
    ∀ runtime ∈ read, (active.held.get? runtime.id).isSome → active.Known runtime.id (runtimeFields runtime)

def Active.Stands (active : Active) : Prop :=
  match active.phase with
  | .asserting _ => active.transaction ≠ .persistRuntimeAccounts
  | .snapshotting left read => active.Read left read
  | .loading snapshot => active.transaction = .persistRuntimeAccounts → active.Read [] snapshot
  | .saving next | .saved next _ => ∀ account ∈ next.accounts, active.From account
  | .installing left _ _ => ∀ account ∈ left, active.From account
  | .finished _ => True

structure Active.Sound (active : Active) (pool : Table String Account) : Prop where
  keeps : active.Keeps pool
  present : ∀ id, (active.held.get? id).isSome → (∀ outcome, active.phase ≠ .finished outcome) →
    (pool.get? id).isSome
  stands : active.Stands

section Invariant

variable {file : String} {s : System} {active : Active} {account : Account}

theorem Active.MergedFrom.known {snapshot : List Account} (merged : active.MergedFrom snapshot stored account)
    (others : ∀ runtime ∈ snapshot, runtime.id = account.id →
      (runtime.usage = none → active.Knows account.id RuntimeFields.usage stored.usage) ∧
      (runtime.subscription = none → active.Knows account.id RuntimeFields.subscription stored.subscription))
    (bound : stored.upstreamUserId ≠ none →
      active.Knows account.id RuntimeFields.upstreamUserId stored.upstreamUserId) :
    active.Known account.id (runtimeFields account) := by
  constructor
  · rcases merged.usage with known | ⟨equal, runtime, member, named, unused⟩
    · exact known
    · simp only [runtimeFields, equal]
      exact (others runtime member named).1 unused
  · rcases merged.subscription with known | ⟨equal, runtime, member, named, unused⟩
    · exact known
    · simp only [runtimeFields, equal]
      exact (others runtime member named).2 unused
  · rcases merged.upstreamUserId with known | ⟨equal, user⟩
    · exact known
    · simp only [runtimeFields, equal]
      exact bound user
  · exact merged.creditExhausted

theorem Active.From.known (from_file : active.From account) (held : (active.held.get? account.id).isSome)
    (fresh : active.Fresh account.id) : active.Known account.id (runtimeFields account) := by
  obtain ⟨stored, member, same, source⟩ := from_file held
  have allowed := fresh stored member same held
  by_cases merges : active.transaction.merges = true
  · rw [if_pos merges] at source allowed
    exact source.known allowed.1 allowed.2
  · rw [if_neg merges] at source allowed
    rw [source]
    exact allowed

/-! #### More is known as more is written -/

structure Later (active later : Active) : Prop where
  transaction : later.transaction = active.transaction
  held : later.held = active.held
  snapshot : later.snapshot = active.snapshot
  loaded : later.loaded = active.loaded
  written : active.written ⊆ later.written

theorem Active.MergedFrom.later {later : Active} {snapshot : List Account}
    (merged : active.MergedFrom snapshot stored account) (after : Later active later) :
    later.MergedFrom snapshot stored account where
  usage := merged.usage.imp_left fun known => Knows.mono known after.held after.written
  subscription := merged.subscription.imp_left fun known => Knows.mono known after.held after.written
  upstreamUserId := merged.upstreamUserId.imp_left fun known => Knows.mono known after.held after.written
  creditExhausted := Knows.mono merged.creditExhausted after.held after.written

theorem Active.From.later {later : Active} (from_file : active.From account) (after : Later active later) :
    later.From account := by
  intro held
  rw [after.held] at held
  obtain ⟨stored, member, same, source⟩ := from_file held
  refine ⟨stored, after.loaded ▸ member, same, ?_⟩
  rw [after.transaction]
  by_cases merges : active.transaction.merges = true
  · rw [if_pos merges] at source ⊢
    rw [after.snapshot]
    exact source.later after
  · rw [if_neg merges] at source ⊢
    exact source

theorem Active.Read.later {later : Active} {left : List String} {read : List Account}
    (complete : active.Read left read) (after : Later active later) : later.Read left read := by
  constructor
  · intro id held
    exact complete.1 id (after.held ▸ held)
  · intro runtime member held
    exact (complete.2 runtime member (after.held ▸ held)).mono after.held after.written

theorem Active.Stands.later {later : Active} (stands : active.Stands) (after : Later active later)
    (phase : later.phase = active.phase) : later.Stands := by
  unfold Active.Stands at stands ⊢
  rw [phase]
  cases here : active.phase with
  | asserting refreshed =>
    simp only [here, after.transaction] at stands ⊢
    exact stands
  | snapshotting left read =>
    simp only [here] at stands ⊢
    exact stands.later after
  | loading snapshot =>
    simp only [here, after.transaction] at stands ⊢
    exact fun runtime => (stands runtime).later after
  | saving next =>
    simp only [here] at stands ⊢
    exact fun account member => (stands account member).later after
  | saved next reloaded =>
    simp only [here] at stands ⊢
    exact fun account member => (stands account member).later after
  | installing left next reloaded =>
    simp only [here] at stands ⊢
    exact fun account member => (stands account member).later after
  | finished outcome => trivial

/-! #### One step -/

structure RuntimeSound (s : System) : Prop where
  named : Named s.pool
  active : ∀ active, s.active = some active → active.Sound s.pool

theorem Active.Sound.next {pool pool' : Table String Account} {phase : Phase} (sound : active.Sound pool)
    (busy : ∀ outcome, active.phase ≠ .finished outcome)
    (keeps : active.Keeps pool → active.Keeps pool')
    (present : ∀ id, (pool.get? id).isSome → (∀ outcome, phase ≠ .finished outcome) → (pool'.get? id).isSome)
    (stands : Active.Stands { active with phase := phase }) :
    Active.Sound { active with phase := phase } pool' where
  keeps := keeps sound.keeps
  present := fun id held open_phase => present id (sound.present id held busy) open_phase
  stands := stands

theorem withPhase_sound {phase : Phase} (sound : RuntimeSound s) (here : s.active = some active)
    (busy : ∀ outcome, active.phase ≠ .finished outcome)
    (stands : Active.Stands { active with phase := phase }) : RuntimeSound (s.withPhase active phase) where
  named := sound.named
  active := by
    rintro _ ⟨⟩
    exact (sound.active active here).next busy (fun keeps => keeps) (fun _ there _ => there) stands

theorem writePool_sound (sound : RuntimeSound s) (accountId : String) {write : Account → Account}
    (same : ∀ account, runtimeFields (write account) = runtimeFields account ∧ (write account).id = account.id) :
    RuntimeSound (s.writePool accountId write) where
  named := sound.named.write accountId fun account found => (same account).2.trans (sound.named _ account found)
  active := by
    intro active here
    rw [writePool_active] at here
    have before := sound.active active here
    refine ⟨before.keeps.write accountId fun account _ _ known => ?_, ?_, before.stands⟩
    · rw [(same account).1]
      exact known
    · intro id held busy
      rw [get?_writePool]
      split
      · rw [Option.isSome_map]
        exact before.present id held busy
      · exact before.present id held busy

theorem starts_sound (sound : RuntimeSound s) (transaction : Transaction) (settings : Settings) :
    RuntimeSound (s.starts transaction settings) where
  named := sound.named
  active := by
    rintro _ ⟨⟩
    refine ⟨fun id account here _ => Active.known_held here, fun id held _ => held, ?_⟩
    cases transaction with
    | persistRefreshedCredentials refreshed => exact fun same => nomatch same
    | persistRuntimeAccounts =>
      constructor
      · intro id held
        obtain ⟨account, found⟩ := Option.isSome_iff_exists.mp held
        exact .inl (List.mem_map_of_mem (f := Prod.fst) (Table.mem_entries.mpr found))
      · intro runtime member
        cases member
    | commitAccountChange mutate => exact fun same => nomatch same
    | reloadAccountCredentials accountId => exact fun same => nomatch same
    | applyAccountFileReload => exact fun same => nomatch same

theorem begin_sound (sound : RuntimeSound s) (transaction : Transaction) (settings : Settings) :
    RuntimeSound (s.begin transaction settings) := by
  unfold System.begin
  split
  · exact sound
  · split
    · split
      · exact starts_sound sound _ settings
      · exact sound
    · split
      · rename_i accountId _ _
        have marked : RuntimeSound { s with refreshes := s.refreshes.insert accountId .reloading } :=
          ⟨sound.named, sound.active⟩
        exact starts_sound marked _ settings
      · exact sound
    · exact starts_sound sound transaction settings

theorem assertRefreshed_sound (sound : RuntimeSound s) (here : s.active = some active)
    {refreshed : RefreshedCredentials} (phase : active.phase = .asserting refreshed) :
    RuntimeSound (s.assertRefreshed active refreshed) := by
  have busy : ∀ outcome, active.phase ≠ .finished outcome := fun outcome same => nomatch phase.symm.trans same
  have stands := (sound.active active here).stands
  simp only [Active.Stands, phase] at stands
  unfold System.assertRefreshed
  split
  · exact withPhase_sound sound here busy trivial
  · have written : RuntimeSound (s.writePool refreshed.accountId refreshed.write) :=
      writePool_sound sound refreshed.accountId fun account => ⟨rfl, rfl⟩
    refine withPhase_sound written (by rw [writePool_active, here]) busy ?_
    exact fun same => absurd same stands

theorem readPool_sound (sound : RuntimeSound s) (here : s.active = some active) {left : List String}
    {read : List Account} (phase : active.phase = .snapshotting left read) :
    RuntimeSound (s.readPool active left read) := by
  have busy : ∀ outcome, active.phase ≠ .finished outcome := fun outcome same => nomatch phase.symm.trans same
  have before := sound.active active here
  have stands := before.stands
  simp only [Active.Stands, phase] at stands
  unfold System.readPool
  cases left with
  | nil => exact withPhase_sound sound here busy fun _ => stands
  | cons accountId left =>
    refine withPhase_sound sound here busy ?_
    constructor
    · intro id held
      rcases stands.1 id held with listed | ⟨runtime, member, same⟩
      · rcases List.mem_cons.mp listed with rfl | later
        · obtain ⟨account, found⟩ := Option.isSome_iff_exists.mp (before.present id held busy)
          exact .inr ⟨account, by simp [found], sound.named id account found⟩
        · exact .inl later
      · exact .inr ⟨runtime, List.mem_append_left _ member, same⟩
    · intro runtime member held
      rcases List.mem_append.mp member with old | new
      · exact stands.2 runtime old held
      · have found := Option.mem_toList.mp new
        have same := sound.named accountId runtime found
        have known := before.keeps accountId runtime found (same ▸ held)
        rw [← same] at known
        exact known

variable {final : AccountStore} {reloaded : Option ReloadedCredentials}

theorem validated_ready {settings : Settings} {memory next : AccountStore} {accepted : Prepared}
    (ready : validated settings memory next accepted = .ready final reloaded) : accepted = .ready final reloaded := by
  unfold validated at ready
  split at ready
  · cases ready
  · exact ready

theorem mem_updateFirst {hit : Account → Bool} {change : Account → Account} {accounts : List Account}
    (member : account ∈ AccountStore.updateFirst hit change accounts) :
    ∃ stored ∈ accounts, account = stored ∨ account = change stored := by
  induction accounts with
  | nil => cases member
  | cons first rest ih =>
    rw [AccountStore.updateFirst] at member
    split at member
    · rcases List.mem_cons.mp member with same | later
      · exact ⟨first, List.mem_cons_self, .inr same⟩
      · exact ⟨account, List.mem_cons_of_mem _ later, .inl rfl⟩
    · rcases List.mem_cons.mp member with same | later
      · exact ⟨first, List.mem_cons_self, .inl same⟩
      · obtain ⟨stored, inside, source⟩ := ih later
        exact ⟨stored, List.mem_cons_of_mem _ inside, source⟩

theorem prepareRefreshed_mem {next : AccountStore} {refreshed : RefreshedCredentials}
    (ready : prepareRefreshed next refreshed = .ready final reloaded) (member : account ∈ final.accounts) :
    ∃ stored ∈ next.accounts, account = stored ∨ account = refreshed.write stored := by
  unfold prepareRefreshed AccountStore.update at ready
  cases found : next.find refreshed.accountId with
  | none =>
    rw [found] at ready
    cases ready
  | some stored =>
    rw [found] at ready
    cases ready
    exact mem_updateFirst member

theorem prepareReload_ready {pool : Table String Account} {next : AccountStore} {accountId : String}
    (ready : prepareReload pool next accountId = .ready final reloaded) :
    final = next ∧ ∃ candidate, next.find accountId = some candidate ∧
      reloaded = some ⟨candidate.credentials, candidate.profileArn⟩ := by
  unfold prepareReload at ready
  split at ready
  · cases ready
  · rename_i candidate found
    split at ready
    · cases ready
    · split at ready
      · cases ready
      · cases ready
        exact ⟨rfl, candidate, found, rfl⟩

/-- Whatever a transaction makes of the file, it takes the fields from there or, with a snapshot
of the pool, from both. -/
theorem prepare_from {memory loaded next : AccountStore} {pool : Table String Account} {snapshot : List Account}
    (ready : prepare active.settings memory pool snapshot loaded active.transaction = .ready next reloaded)
    (stands : active.transaction = .persistRuntimeAccounts → active.Read [] snapshot)
    (loads : active.Loads snapshot loaded) (member : account ∈ next.accounts) :
    Active.From { active with snapshot := snapshot, loaded := loaded.accounts } account := by
  intro held
  cases kind : active.transaction with
  | commitAccountChange mutate =>
    simp only [Active.Loads, kind] at loads
    simp only [kind, prepare, prepareCommit] at ready
    split at ready
    · cases ready
    · rename_i edits mutated
      cases validated_ready ready
      exact loads edits (by rw [mutated]; rfl) account member held
  | persistRefreshedCredentials refreshed =>
    simp only [kind, prepare] at ready
    obtain ⟨stored, inside, rfl | rfl⟩ := prepareRefreshed_mem (validated_ready ready) member
    · exact ⟨_, inside, rfl, rfl⟩
    · exact ⟨stored, inside, rfl, rfl⟩
  | persistRuntimeAccounts =>
    simp only [Active.Loads, kind] at loads
    simp only [kind, prepare] at ready
    cases validated_ready ready
    obtain ⟨complete, known⟩ := stands kind
    have all : ∀ id, (active.held.get? id).isSome → ∃ runtime ∈ snapshot, runtime.id = id :=
      fun id there => (complete id there).resolve_left List.not_mem_nil
    have clear : Unambiguous (configureAccountStore active.settings loaded) snapshot := loads
    exact mergeRuntimeAccounts_from clear all known member held
  | reloadAccountCredentials accountId =>
    simp only [kind, prepare] at ready
    obtain ⟨rfl, -⟩ := prepareReload_ready (validated_ready ready)
    exact ⟨account, member, rfl, rfl⟩
  | applyAccountFileReload =>
    simp only [kind, prepare] at ready
    split at ready
    · cases ready
    · cases validated_ready ready
      exact ⟨account, member, rfl, rfl⟩

theorem loadFile_sound (sound : RuntimeSound s) (here : s.active = some active) {snapshot : List Account}
    (phase : active.phase = .loading snapshot) (world : World)
    (loads : ∀ loaded ∈ (Store.load file s.disk).toOption, active.Loads snapshot loaded) :
    RuntimeSound (s.loadFile file active snapshot world) := by
  have busy : ∀ outcome, active.phase ≠ .finished outcome := fun outcome same => nomatch phase.symm.trans same
  have stands := (sound.active active here).stands
  simp only [Active.Stands, phase] at stands
  unfold System.loadFile
  cases read : Store.load file s.disk with
  | error error => exact withPhase_sound sound here busy trivial
  | ok loaded =>
    have reading : RuntimeSound { s with active := some { active with snapshot := snapshot, loaded := loaded.accounts } } := by
      refine ⟨sound.named, ?_⟩
      rintro _ ⟨⟩
      have before := sound.active active here
      refine ⟨before.keeps, before.present, ?_⟩
      simp only [Active.Stands, phase]
      exact stands
    have goes : ∀ phase, Active.Stands { active with snapshot := snapshot, loaded := loaded.accounts, phase := phase } →
        RuntimeSound (s.withPhase { active with snapshot := snapshot, loaded := loaded.accounts } phase) :=
      fun phase stands => withPhase_sound
        (s := { s with active := some { active with snapshot := snapshot, loaded := loaded.accounts } })
        reading rfl busy stands
    simp only
    cases made : prepare active.settings s.accounts s.pool snapshot loaded active.transaction with
    | fails error => exact goes _ trivial
    | rejected error =>
      have stopped := goes (.finished (.error error)) trivial
      refine ⟨sound.named, ?_⟩
      rintro _ ⟨⟩
      exact ⟨(stopped.active _ rfl).keeps, fun id held open_phase => absurd rfl (open_phase _), trivial⟩
    | unchanged => exact goes _ trivial
    | ready next reloaded =>
      have froms : ∀ account ∈ next.accounts,
          Active.From { active with snapshot := snapshot, loaded := loaded.accounts } account :=
        fun account member => prepare_from made stands (loads loaded (by rw [read]; rfl)) member
      apply goes
      split
      · exact froms
      · exact froms

theorem save_sound (sound : RuntimeSound s) (here : s.active = some active) {next : AccountStore}
    (phase : active.phase = .saving next) (world : World) : RuntimeSound (s.save file active next world) := by
  have busy : ∀ outcome, active.phase ≠ .finished outcome := fun outcome same => nomatch phase.symm.trans same
  have stands := (sound.active active here).stands
  simp only [Active.Stands, phase] at stands
  have accounts : (next.save file world.outside s.disk world.fault).2.1.accounts = next.accounts := by
    unfold AccountStore.save
    dsimp only
    split
    · rfl
    · split <;> rfl
  have written : RuntimeSound { s with disk := (next.save file world.outside s.disk world.fault).1 } :=
    ⟨sound.named, sound.active⟩
  unfold System.save
  apply withPhase_sound written here busy
  by_cases ok : (next.save file world.outside s.disk world.fault).2.2 = true
  · rw [if_pos ok]
    intro account member
    rw [accounts] at member
    exact stands account member
  · rw [if_neg ok]
    trivial

theorem install_sound (sound : RuntimeSound s) (here : s.active = some active) {left next : List Account}
    (phase : active.phase = .installing left next reloaded)
    (fresh : ∀ account, left.head? = some account → active.Fresh account.id) :
    RuntimeSound (s.install active left next reloaded) := by
  have busy : ∀ outcome, active.phase ≠ .finished outcome := fun outcome same => nomatch phase.symm.trans same
  have before := sound.active active here
  have stands := before.stands
  simp only [Active.Stands, phase] at stands
  cases left with
  | nil =>
    refine ⟨sound.named.replaced next, ?_⟩
    rintro _ ⟨⟩
    refine ⟨?_, fun id held open_phase => absurd rfl (open_phase _), trivial⟩
    intro id account found held
    obtain ⟨current, there⟩ := Option.isSome_iff_exists.mp (before.present id held busy)
    rw [get?_replaced next found there]
    exact before.keeps id current there held
  | cons account rest =>
    have source := stands account List.mem_cons_self
    refine ⟨sound.named.write account.id fun _ _ => rfl, ?_⟩
    rintro _ ⟨⟩
    refine before.next busy ?_ ?_ fun other member => stands other (List.mem_cons_of_mem _ member)
    · intro keeps
      exact keeps.write account.id fun _ _ held _ => source.known held (fresh account rfl)
    · intro id there _
      show ((s.writePool account.id fun _ => account).pool.get? id).isSome
      rw [get?_writePool]
      split
      · rw [Option.isSome_map]
        exact there
      · exact there

theorem probe_sound (sound : RuntimeSound s) (accountId : String) (probe : Probe) :
    RuntimeSound (s.probe accountId probe) := by
  unfold System.probe
  cases found : s.pool.get? accountId with
  | none => exact sound
  | some account =>
    have id_kept : (probe.write account).id = account.id := by
      cases probe with
      | recordQuotaError => rfl
      | refreshAccountUsage upstreamUserId usage subscription config => rfl
      | settleCredits actual now =>
        simp only [Probe.write]
        split <;> rfl
    constructor
    · intro id current here
      rw [Table.get?_insert] at here
      split at here
      · rename_i same
        cases here
        rw [id_kept, same]
        exact sound.named accountId account found
      · exact sound.named id current here
    · intro active here
      obtain ⟨active, there, rfl⟩ := Option.map_eq_some_iff.mp here
      have before := sound.active active there
      have after : Later active { active with written := (accountId, probe.write account) :: active.written } :=
        ⟨rfl, rfl, rfl, rfl, List.subset_cons_self _ _⟩
      refine ⟨?_, ?_, before.stands.later after rfl⟩
      · intro id current here held
        rw [Table.get?_insert] at here
        split at here
        · rename_i same
          cases here
          subst same
          exact Active.known_written List.mem_cons_self
        · exact (before.keeps id current here held).mono rfl (List.subset_cons_self _ _)
      · intro id held busy
        rw [Table.get?_insert]
        split
        · rfl
        · exact before.present id held busy

theorem step_sound (sound : RuntimeSound s) (action : Action) (fresh : InstallsFresh file s action) :
    RuntimeSound (step file s action) := by
  cases action with
  | begin transaction settings => exact begin_sound sound transaction settings
  | advance world =>
    simp only [step]
    cases here : s.active with
    | none => exact sound
    | some active =>
      have allowed := fresh active here
      simp only [System.advance]
      cases phase : active.phase with
      | asserting refreshed => exact assertRefreshed_sound sound here phase
      | snapshotting left read => exact readPool_sound sound here phase
      | loading snapshot =>
        simp only [Active.Ready, phase] at allowed
        have busy : ∀ outcome, active.phase ≠ .finished outcome := fun outcome same => nomatch phase.symm.trans same
        dsimp only
        split
        · exact loadFile_sound sound here phase world allowed
        · exact withPhase_sound sound here busy trivial
      | saving next => exact save_sound sound here phase world
      | saved next reloaded =>
        have busy : ∀ outcome, active.phase ≠ .finished outcome := fun outcome same => nomatch phase.symm.trans same
        have stands := (sound.active active here).stands
        simp only [Active.Stands, phase] at stands
        have held : RuntimeSound { s with accounts := next } := ⟨sound.named, sound.active⟩
        exact withPhase_sound held here busy stands
      | installing left next reloaded =>
        simp only [Active.Ready, phase] at allowed
        apply install_sound sound here phase
        rintro account first
        cases left with
        | nil => cases first
        | cons head rest =>
          cases first
          exact allowed
      | finished outcome => exact sound
  | release =>
    simp only [step]
    split
    · split
      · rename_i active here outcome phase
        unfold System.release
        split
        · refine ⟨sound.named, ?_⟩
          rintro _ ⟨⟩
        · refine ⟨?_, ?_⟩
          · unfold System.reloadReturns
            split <;> exact sound.named
          · intro active here
            unfold System.reloadReturns at here
            split at here <;> cases here
        · refine ⟨sound.named, ?_⟩
          rintro _ ⟨⟩
      · exact sound
    · exact sound
  | probe accountId probe => exact probe_sound sound accountId probe
  | refresh accountId =>
    simp only [step]
    split
    · exact sound
    · exact ⟨sound.named, sound.active⟩
  | giveUp accountId =>
    simp only [step, System.giveUp]
    split
    · exact ⟨sound.named, sound.active⟩
    · exact sound
  | adopt accountId again =>
    simp only [step, System.adopt]
    split
    · rename_i reloaded _
      have written : RuntimeSound (s.writePool accountId reloaded.write) :=
        writePool_sound sound accountId fun account => ⟨rfl, rfl⟩
      exact ⟨written.named, written.active⟩
    · exact sound
  | tokens accountId tokens now =>
    simp only [step, System.tokens]
    split
    · rename_i account _ found
      have written : RuntimeSound (s.writePool accountId fun account => withTokens account tokens now) :=
        writePool_sound sound accountId fun account => ⟨rfl, rfl⟩
      rw [System.writePool, found] at written
      exact ⟨written.named, written.active⟩
    · exact sound
  | lockFails accountId =>
    simp only [step, System.lockFails]
    split
    · exact ⟨sound.named, sound.active⟩
    · exact sound

end Invariant

/-- A transaction leaves in the pool, for every account that was there and still is, values that
the pool held when it took the lock or that have been written since. -/
theorem runtime_fields_kept (file : String) (s : System) (idle : s.active = none) (named : Named s.pool)
    (actions : List Action) (fresh : Along (step file) (InstallsFresh file) s actions) (active : Active)
    (here : (run (step file) s actions).active = some active) :
    active.Keeps (run (step file) s actions).pool := by
  have start : RuntimeSound s := by
    refine ⟨named, fun active there => ?_⟩
    rw [idle] at there
    cases there
  have reached := Run.run_keeps (fun s action sound allowed => step_sound sound action allowed) fresh start
  exact (reached.active active here).keeps

/-! ### An exhausted account comes back -/

def runningAccount : Account where
  id := "acc_00000001"
  email := "a@example.com"
  machineId := "m"
  credentials := { accessToken := "access", region := "us-east-1", expiresAt := 100, authMethod := .social }
  usage := some { current := 10, limit := 100, percentUsed := 10, updatedAt := 1 }
  createdAt := 0

def quietWorld : World where
  outside := { unique := fun _ => "t", listing := fun names => names, exact := fun _ => .refl _,
               mentions := fun _ => false }

def running : System where
  disk := (∅ : Disk).insert (.beside "accounts.json") (.whole (.accounts [runningAccount]))
  accounts := { accounts := [runningAccount] }
  pool := (∅ : Table String Account).insert "acc_00000001" runningAccount

def labelled : Transaction :=
  .commitAccountChange fun _ => .ok [.update "acc_00000001" fun account => { account with label := some "team" }]

def quotaThenLabel : List Action :=
  [.probe "acc_00000001" .recordQuotaError, .begin labelled {}] ++ List.replicate 5 (.advance quietWorld)

def quotaThenPersist : List Action :=
  [.probe "acc_00000001" .recordQuotaError, .begin .persistRuntimeAccounts {}] ++ List.replicate 7 (.advance quietWorld)

theorem running_named : Named running.pool := by
  intro id account here
  rw [running, Table.get?_insert] at here
  split at here
  · rename_i same
    cases here
    exact same.symm
  · cases here

theorem runtime_fields_kept_persist :
    ∃ active, (run (step "accounts.json") running quotaThenPersist).active = some active ∧
      active.transaction.merges = true ∧ active.Keeps (run (step "accounts.json") running quotaThenPersist).pool := by
  have busy : (run (step "accounts.json") running quotaThenPersist).active.map (·.transaction.merges) = some true := by
    decide
  obtain ⟨active, here, merges⟩ := Option.map_eq_some_iff.mp busy
  exact ⟨active, here, merges,
    runtime_fields_kept "accounts.json" running rfl running_named quotaThenPersist (by decide) active here⟩

theorem label_forgets_exhaustion :
    ((run (step "accounts.json") running quotaThenLabel).pool.get? "acc_00000001").map
      (fun account => (account.label, account.creditExhausted)) = some (some "team", false) ∧
    (run (step "accounts.json") running quotaThenLabel).active.map (fun active =>
      ((active.held.get? "acc_00000001").map (·.creditExhausted), active.written.length)) = some (some true, 0) ∧
    ¬ ∀ active, (run (step "accounts.json") running quotaThenLabel).active = some active →
      active.Keeps (run (step "accounts.json") running quotaThenLabel).pool := by
  refine ⟨by decide, by decide, fun kept => ?_⟩
  have unknown : ((run (step "accounts.json") running quotaThenLabel).active.bind fun active =>
      ((run (step "accounts.json") running quotaThenLabel).pool.get? "acc_00000001").map fun account =>
        ((active.held.get? "acc_00000001").isSome, decide (active.Known "acc_00000001" (runtimeFields account)))) =
        some (true, false) := by decide
  obtain ⟨active, here, found⟩ := Option.bind_eq_some_iff.mp unknown
  obtain ⟨account, there, verdict⟩ := Option.map_eq_some_iff.mp found
  have parts := Prod.mk.inj verdict
  exact of_decide_eq_false parts.2 (kept active here "acc_00000001" account there parts.1)

end KiroProxy.AccountTransactions

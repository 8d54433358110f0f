import KiroProxy.Daemon.ConfigTransaction
import KiroProxy.Lib.Run
import KiroProxy.Pool.Refresh

/-! The account file, the store in memory and the pool, and the transactions between them. A
transaction holds the account lock from its first access to its last; only the pool is written
without the lock, by probes, by requests and by token refreshes. -/
namespace KiroProxy.AccountTransactions

open ConfigTransaction (sameAccountTags)
open Pool (PoolConfig usageCreditExhausted)
open Refresh (RefreshResponse)
open Store (Account AccountStore Credentials Disk Subscription Usage)

/-! ### What a transaction does to a store -/

/-- The part of the configuration that a transaction sees; the configuration lock keeps it. -/
structure Settings where
  compressionThreshold : Nat := 100
  incrementalWrite : Bool := true
  bindings : Account → List (String × String) := fun _ => []

structure RefreshedCredentials where
  accountId : String
  credentials : Credentials
  profileArn : Option String

structure ReloadedCredentials where
  credentials : Credentials
  profileArn : Option String

inductive Edit where
  | insert (account : Account)
  | remove (idOrEmail : String)
  | update (idOrEmail : String) (mutate : Account → Account)

def Edit.apply (store : AccountStore) : Edit → AccountStore
  | .insert account => (store.insert account).toOption.getD store
  | .remove idOrEmail => (store.remove idOrEmail).1
  | .update idOrEmail mutate => (store.update idOrEmail mutate).1

inductive Transaction where
  | commitAccountChange (mutate : AccountStore → Except String (List Edit))
  | persistRefreshedCredentials (refreshed : RefreshedCredentials)
  | persistRuntimeAccounts
  | reloadAccountCredentials (accountId : String)
  | applyAccountFileReload

def configureAccountStore (settings : Settings) (store : AccountStore) : AccountStore :=
  { store with
    compressionThreshold := settings.compressionThreshold
    incrementalWrite := settings.incrementalWrite }

def bindingError (account : Account) (bindings : List (String × String)) : String :=
  s!"account {account.id} is bound to proxy service(s) " ++
    ", ".intercalate (bindings.map fun (id, name) => s!"{name} ({id})") ++
    "; unbind it before changing tags or removing it"

def validateAccountStoreTransition (settings : Settings) (current next : AccountStore) :
    Except String Unit :=
  current.accounts.forM fun account =>
    if (next.find account.id).any fun replacement => sameAccountTags replacement.tags account.tags then
      .ok ()
    else if settings.bindings account = [] then .ok ()
    else .error (bindingError account (settings.bindings account))

/-- The fields that probes and health tracking own, on top of what is stored. -/
def mergedAccount (stored runtime : Account) : Account :=
  { stored with
    profileArn :=
      if stored.credentials = runtime.credentials ∧ runtime.profileArn.isSome then runtime.profileArn
      else stored.profileArn
    upstreamUserId := stored.upstreamUserId.or runtime.upstreamUserId
    usage := runtime.usage.or stored.usage
    subscription := runtime.subscription.or stored.subscription
    creditExhausted := runtime.creditExhausted }

def mergeRuntimeAccount (store : AccountStore) (runtime : Account) : AccountStore × Bool :=
  match store.find runtime.id with
  | none => (store, false)
  | some stored => store.replaceIfChanged (mergedAccount stored runtime)

def mergeRuntimeAccounts (store : AccountStore) (snapshot : List Account) : AccountStore :=
  snapshot.foldl (fun store runtime => (mergeRuntimeAccount store runtime).1) store

def RefreshedCredentials.write (refreshed : RefreshedCredentials) (account : Account) : Account :=
  { account with
    credentials := refreshed.credentials
    profileArn := refreshed.profileArn.or account.profileArn }

def ReloadedCredentials.write (reloaded : ReloadedCredentials) (account : Account) : Account :=
  { account with credentials := reloaded.credentials, profileArn := reloaded.profileArn }

/-- What a transaction makes of the file: an error, with or without the previous file to restore,
nothing to do, or a store to install, with what the caller is told. -/
inductive Prepared where
  | fails (message : String)
  | rejected (message : String)
  | unchanged
  | ready (next : AccountStore) (reloaded : Option ReloadedCredentials)

def validated (settings : Settings) (memory next : AccountStore) (accepted : Prepared) : Prepared :=
  match validateAccountStoreTransition settings memory next with
  | .error error => .rejected error
  | .ok () => accepted

def prepareCommit (settings : Settings) (memory next : AccountStore)
    (mutate : AccountStore → Except String (List Edit)) : Prepared :=
  match mutate next with
  | .error error => .fails error
  | .ok edits =>
    let changed := edits.foldl Edit.apply next
    validated settings memory changed (.ready changed none)

def prepareRefreshed (next : AccountStore) (refreshed : RefreshedCredentials) : Prepared :=
  match next.update refreshed.accountId refreshed.write with
  | (_, false) => .fails ("account not found: " ++ refreshed.accountId)
  | (updated, true) => .ready updated none

def prepareReload (pool : Table String Account) (next : AccountStore) (accountId : String) : Prepared :=
  match next.find accountId with
  | none => .fails ("account not found in credential store: " ++ accountId)
  | some candidate =>
    match pool.get? accountId with
    | none => .fails ("account not found: " ++ accountId)
    | some current =>
      if candidate.credentials = current.credentials ∧ candidate.profileArn = current.profileArn then
        .unchanged
      else .ready next (some ⟨candidate.credentials, candidate.profileArn⟩)

/-- From the read of the file to the decision to write; `snapshot` is what has been read from
the pool. -/
def prepare (settings : Settings) (memory : AccountStore) (pool : Table String Account)
    (snapshot : List Account) (loaded : AccountStore) : Transaction → Prepared
  | .commitAccountChange mutate =>
    prepareCommit settings memory (configureAccountStore settings loaded) mutate
  | .persistRefreshedCredentials refreshed =>
    let next := configureAccountStore settings loaded
    validated settings memory next (prepareRefreshed next refreshed)
  | .persistRuntimeAccounts =>
    let next := configureAccountStore settings loaded
    validated settings memory next (.ready (mergeRuntimeAccounts next snapshot) none)
  | .reloadAccountCredentials accountId =>
    let next := configureAccountStore settings loaded
    validated settings memory next (prepareReload pool next accountId)
  | .applyAccountFileReload =>
    if loaded.accounts = memory.accounts then .unchanged
    else validated settings memory loaded (.ready (configureAccountStore settings loaded) none)

/-- A reload installs what it has read; the others write the file first. -/
def Transaction.saves : Transaction → Bool
  | .reloadAccountCredentials _ | .applyAccountFileReload => false
  | _ => true

/-! ### Writes to the pool without the lock -/

def poolUsage (usage : Usage) : Pool.Usage where
  current := usage.current
  limit := usage.limit
  overageCap := usage.overageCap
  percentUsed := usage.percentUsed
  updatedAt := usage.updatedAt.toNat

inductive Probe where
  | recordQuotaError
  | refreshAccountUsage (upstreamUserId : Option String) (usage : Option Usage)
      (subscription : Option Subscription) (config : PoolConfig)
  | settleCredits (actual : Rat) (now : Int)

def settledUsage (actual : Rat) (now : Int) (usage : Usage) : Usage :=
  let optimistic := usage.current + actual
  let current := if usage.limit > 0 then min optimistic usage.limit else optimistic
  { usage with
    current := current
    percentUsed := if usage.limit > 0 then min (max (current / usage.limit * 100) 0) 100 else 0
    updatedAt := now }

/-- What a probe or a finished request writes to an account; a quota error, once the threshold
is reached. -/
def Probe.write (account : Account) : Probe → Account
  | .recordQuotaError => { account with creditExhausted := true }
  | .refreshAccountUsage upstreamUserId usage subscription config =>
    { account with
      upstreamUserId := upstreamUserId.or account.upstreamUserId
      usage := usage.or account.usage
      creditExhausted := (usage.map fun usage => usageCreditExhausted (poolUsage usage) config).getD
        account.creditExhausted
      subscription := subscription.or account.subscription }
  | .settleCredits actual now =>
    if actual ≤ 0 then account
    else { account with usage := account.usage.map (settledUsage actual now) }

def withTokens (account : Account) (tokens : RefreshResponse) (now : Int) : Account :=
  { account with
    credentials := { account.credentials with
      accessToken := tokens.accessToken
      refreshToken := tokens.refreshToken.or account.credentials.refreshToken
      expiresAt := now + tokens.expiresIn }
    profileArn := tokens.profileArn.or account.profileArn }

/-! ### The system -/

abbrev Outcome := Except String (Option ReloadedCredentials)

/-- Where the holder of the lock stands, by the access that comes next. -/
inductive Phase where
  | asserting (refreshed : RefreshedCredentials)
  | snapshotting (left : List String) (read : List Account)
  | loading (snapshot : List Account)
  | saving (next : AccountStore)
  | saved (next : AccountStore) (reloaded : Option ReloadedCredentials)
  | installing (left next : List Account) (reloaded : Option ReloadedCredentials)
  | finished (outcome : Outcome)

/-- The transaction that holds the lock. `held` is the pool as it found it, `written` what probes
have written to the pool since; `snapshot` and `loaded` are what it has read from the pool and
from the file. -/
structure Active where
  transaction : Transaction
  settings : Settings
  phase : Phase
  held : Table String Account
  written : List (String × Account) := []
  snapshot : List Account := []
  loaded : List Account := []

inductive TokenRefresh where
  | requesting
  | reloading
  | adopting (reloaded : ReloadedCredentials)
  | persisting (refreshed : RefreshedCredentials)

/-- `issued` are the credentials that the refreshes of an account have brought into the pool, from
upstream or from the file, in their order; `returned` counts them up to the last refresh that is
over, `persisted` up to the last one that is over without a persistence error. -/
structure System where
  disk : Disk
  accounts : AccountStore
  pool : Table String Account
  active : Option Active := none
  refreshes : Table String TokenRefresh := ∅
  issued : String → List Credentials := fun _ => []
  returned : String → Nat := fun _ => 0
  persisted : String → Nat := fun _ => 0

/-- What the file system does to a transaction: whether the file can be read, and how far a
write comes. -/
structure World where
  reads : Bool := true
  outside : AccountStore.Surroundings
  fault : Option Nat := none

inductive Action where
  | begin (transaction : Transaction) (settings : Settings)
  | advance (world : World)
  | release
  | probe (accountId : String) (probe : Probe)
  | refresh (accountId : String)
  | giveUp (accountId : String)
  | adopt (accountId : String) (again : Bool)
  | tokens (accountId : String) (tokens : RefreshResponse) (now : Int)
  | lockFails (accountId : String)

def System.withPhase (s : System) (active : Active) (phase : Phase) : System :=
  { s with active := some { active with phase := phase } }

def System.writePool (s : System) (accountId : String) (write : Account → Account) : System :=
  match s.pool.get? accountId with
  | none => s
  | some account => { s with pool := s.pool.insert accountId (write account) }

def Transaction.first (pool : Table String Account) : Transaction → Phase
  | .persistRefreshedCredentials refreshed => .asserting refreshed
  | .persistRuntimeAccounts => .snapshotting (pool.entries.map Prod.fst) []
  | _ => .loading []

def System.starts (s : System) (transaction : Transaction) (settings : Settings) : System :=
  let phase := transaction.first s.pool
  { s with active := some { transaction, settings, phase, held := s.pool } }

/-- Who may begin: the transactions of a refresh belong to the refresh. -/
def System.begin (s : System) (transaction : Transaction) (settings : Settings) : System :=
  match s.active with
  | some _ => s
  | none =>
    match transaction with
    | .persistRefreshedCredentials refreshed =>
      match s.refreshes.get? refreshed.accountId with
      | some (.persisting own) =>
        s.starts (.persistRefreshedCredentials own) settings
      | _ => s
    | .reloadAccountCredentials accountId =>
      match s.refreshes.get? accountId with
      | some .requesting =>
        { s with refreshes := s.refreshes.insert accountId .reloading }.starts transaction settings
      | _ => s
    | _ => s.starts transaction settings

/-! #### The phases of a transaction -/

def System.assertRefreshed (s : System) (active : Active) (refreshed : RefreshedCredentials) : System :=
  match s.pool.get? refreshed.accountId with
  | none => s.withPhase active (.finished (.error ("account not found: " ++ refreshed.accountId)))
  | some _ =>
    (s.writePool refreshed.accountId refreshed.write).withPhase active (.loading [])

def System.readPool (s : System) (active : Active) (left : List String) (read : List Account) : System :=
  match left with
  | [] => s.withPhase active (.loading read)
  | accountId :: left => s.withPhase active (.snapshotting left (read ++ (s.pool.get? accountId).toList))

variable (file : String)

/-- `current.save()` of the store in memory, as a plain file. -/
def System.restore (s : System) (active : Active) (world : World) (error : String) : System :=
  let current := { configureAccountStore active.settings s.accounts with incrementalWrite := false }
  let saved := current.save file world.outside s.disk world.fault
  { s with disk := saved.1 }.withPhase active (.finished (.error
    (if saved.2.2 then error ++ "; the previous account file has been restored"
    else error ++ "; restoring the previous account file failed")))

def System.loadFile (s : System) (active : Active) (snapshot : List Account) (world : World) : System :=
  match Store.load file s.disk with
  | .error error => s.withPhase active (.finished (.error error))
  | .ok loaded =>
    let active := { active with snapshot := snapshot, loaded := loaded.accounts }
    match prepare active.settings s.accounts s.pool snapshot loaded active.transaction with
    | .fails error => s.withPhase active (.finished (.error error))
    | .rejected error => s.restore file active world error
    | .unchanged => s.withPhase active (.finished (.ok none))
    | .ready next reloaded =>
      s.withPhase active (if active.transaction.saves then .saving next else .saved next reloaded)

def System.save (s : System) (active : Active) (next : AccountStore) (world : World) : System :=
  let saved := next.save file world.outside s.disk world.fault
  { s with disk := saved.1 }.withPhase active
    (if saved.2.2 then .saved saved.2.1 none else .finished (.error "save failed"))

/-- `replace_accounts` of the pool, once the accounts that it knows have been written. -/
def replaced (pool : Table String Account) (accounts : List Account) : Table String Account :=
  accounts.foldl (fun next account => next.insert account.id ((pool.get? account.id).getD account)) ∅

def System.install (s : System) (active : Active) (left next : List Account)
    (reloaded : Option ReloadedCredentials) : System :=
  match left with
  | [] => { s with pool := replaced s.pool next }.withPhase active (.finished (.ok reloaded))
  | account :: left =>
    (s.writePool account.id fun _ => account).withPhase active (.installing left next reloaded)

def System.advance (s : System) (active : Active) (world : World) : System :=
  match active.phase with
  | .asserting refreshed => s.assertRefreshed active refreshed
  | .snapshotting left read => s.readPool active left read
  | .loading snapshot =>
    if world.reads then s.loadFile file active snapshot world
    else s.withPhase active (.finished (.error "read failed"))
  | .saving next => s.save file active next world
  | .saved next reloaded =>
    { s with accounts := next }.withPhase active (.installing next.accounts next.accounts reloaded)
  | .installing left next reloaded => s.install active left next reloaded
  | .finished _ => s

/-! #### The ends of a refresh -/

def System.refreshReturns (s : System) (accountId : String) (ok : Bool) : System :=
  let count := (s.issued accountId).length
  { s with
    refreshes := s.refreshes.erase accountId
    returned := Function.update s.returned accountId count
    persisted := if ok then Function.update s.persisted accountId count else s.persisted }

def System.reloadReturns (s : System) (accountId : String) (outcome : Outcome) : System :=
  match outcome with
  | .ok (some reloaded) =>
    let issued := s.issued accountId ++ [reloaded.credentials]
    { s with
      refreshes := s.refreshes.insert accountId (.adopting reloaded)
      issued := Function.update s.issued accountId issued
      returned := Function.update s.returned accountId issued.length
      persisted := Function.update s.persisted accountId issued.length }
  | _ => { s with refreshes := s.refreshes.erase accountId }

def System.release (s : System) (active : Active) (outcome : Outcome) : System :=
  match active.transaction with
  | .persistRefreshedCredentials refreshed =>
    { s with active := none }.refreshReturns refreshed.accountId outcome.toBool
  | .reloadAccountCredentials accountId => { s with active := none }.reloadReturns accountId outcome
  | _ => { s with active := none }

/-- The reloaded credentials are written once more; either they are the result, or the tokens are
requested again with them. -/
def System.adopt (s : System) (accountId : String) (again : Bool) : System :=
  match s.refreshes.get? accountId with
  | some (.adopting reloaded) =>
    { s.writePool accountId reloaded.write with
      refreshes := if again then s.refreshes.insert accountId .requesting else s.refreshes.erase accountId }
  | _ => s

def System.tokens (s : System) (accountId : String) (tokens : RefreshResponse) (now : Int) : System :=
  match s.refreshes.get? accountId, s.pool.get? accountId with
  | some .requesting, some account =>
    let account := withTokens account tokens now
    { s with
      pool := s.pool.insert accountId account
      refreshes := s.refreshes.insert accountId
        (.persisting ⟨accountId, account.credentials, tokens.profileArn⟩)
      issued := Function.update s.issued accountId (s.issued accountId ++ [account.credentials]) }
  | _, _ => s

def System.probe (s : System) (accountId : String) (probe : Probe) : System :=
  match s.pool.get? accountId with
  | none => s
  | some account =>
    { s with
      pool := s.pool.insert accountId (probe.write account)
      active := s.active.map fun active =>
        { active with written := (accountId, probe.write account) :: active.written } }

def System.giveUp (s : System) (accountId : String) : System :=
  match s.refreshes.get? accountId with
  | some .requesting => { s with refreshes := s.refreshes.erase accountId }
  | _ => s

def System.lockFails (s : System) (accountId : String) : System :=
  match s.active, s.refreshes.get? accountId with
  | none, some (.persisting _) => s.refreshReturns accountId false
  | _, _ => s

def step (s : System) : Action → System
  | .begin transaction settings => s.begin transaction settings
  | .advance world => match s.active with
    | none => s
    | some active => s.advance file active world
  | .release => match s.active with
    | some active => match active.phase with
      | .finished outcome => s.release active outcome
      | _ => s
    | none => s
  | .probe accountId probe => s.probe accountId probe
  | .refresh accountId =>
    if (s.pool.get? accountId).isNone ∨ (s.refreshes.get? accountId).isSome then s
    else { s with refreshes := s.refreshes.insert accountId .requesting }
  | .giveUp accountId => s.giveUp accountId
  | .adopt accountId again => s.adopt accountId again
  | .tokens accountId tokens now => s.tokens accountId tokens now
  | .lockFails accountId => s.lockFails accountId

end KiroProxy.AccountTransactions

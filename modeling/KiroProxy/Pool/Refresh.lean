import KiroProxy.Lib.Run
import KiroProxy.Pool.Account

/-! Token refreshes of one account. A refresh holds the lock of the account from its first
read to its return; where it awaits, upstream, the durable reload and the durable write give
arbitrary answers. Between any two accesses other tasks may write the health. -/
namespace KiroProxy.Refresh

open Pool (AuthMethod AccountHealth)

structure Credentials where
  accessToken : String
  refreshToken : Option String
  clientId : Option String
  clientSecret : Option String
  region : String
  expiresAt : Int
  authMethod : AuthMethod
  deriving DecidableEq, Repr

/-- The fields of an account that a refresh reads or writes. -/
structure Account where
  id : String
  credentials : Credentials
  profileArn : Option String
  deriving DecidableEq, Repr

inductive RefreshError where
  | notRefreshable
  | upstream (message : String)
  | credentialReload (message : String)
  deriving DecidableEq, Repr

structure RefreshedCredentials where
  accountId : String
  credentials : Credentials
  profileArn : Option String
  deriving DecidableEq, Repr

structure ReloadedCredentials where
  credentials : Credentials
  profileArn : Option String
  deriving DecidableEq, Repr

structure RefreshOutcome where
  changed : Bool
  persistenceError : Option String
  deriving DecidableEq, Repr

def RefreshOutcome.unchanged : RefreshOutcome := { changed := false, persistenceError := none }

inductive RefreshRequestFailure where
  | notRefreshable
  | upstream (status : Option Nat) (message : String)
  deriving DecidableEq, Repr

namespace RefreshRequestFailure

def status : RefreshRequestFailure → Option Nat
  | notRefreshable => none
  | upstream status _ => status

def intoRefreshError : RefreshRequestFailure → RefreshError
  | notRefreshable => .notRefreshable
  | upstream _ message => .upstream message

end RefreshRequestFailure

structure RefreshResponse where
  accessToken : String
  refreshToken : Option String
  expiresIn : Int
  profileArn : Option String
  deriving DecidableEq, Repr

abbrev Result := Except RefreshError RefreshOutcome

def saturatingSub (a b : Int) : Int := max (-2 ^ 63) (min (2 ^ 63 - 1) (a - b))

def Account.isTokenExpiring (account : Account) (now beforeSecs : Int) : Bool :=
  account.credentials.authMethod ≠ .apiKey ∧ saturatingSub account.credentials.expiresAt now ≤ beforeSecs

def refreshable (account : Account) : Bool :=
  ¬(account.credentials.authMethod = .apiKey ∨ account.credentials.refreshToken = none) ∧
    ¬(account.credentials.authMethod = .idc ∧
      (account.credentials.clientId = none ∨ account.credentials.clientSecret = none))

def validateRefreshable (account : Account) : Except RefreshError Unit :=
  if refreshable account then .ok () else .error .notRefreshable

def refreshInputsChanged (previous reloaded : Credentials) : Bool :=
  previous.refreshToken ≠ reloaded.refreshToken ∨ previous.clientId ≠ reloaded.clientId ∨
    previous.clientSecret ≠ reloaded.clientSecret ∨ previous.region ≠ reloaded.region ∨
    previous.authMethod ≠ reloaded.authMethod

/-- `request_tokens`, given what upstream answers; without a refresh token, without the client
of an IdC account, or for a static key upstream is not asked. -/
def requestTokens (snapshot : Account) (answer : Except RefreshRequestFailure RefreshResponse) :
    Except RefreshRequestFailure RefreshResponse :=
  match snapshot.credentials.refreshToken, snapshot.credentials.authMethod with
  | none, _ | some _, .apiKey => .error .notRefreshable
  | some _, .social => answer
  | some _, .idc =>
    if snapshot.credentials.clientId.isSome ∧ snapshot.credentials.clientSecret.isSome then answer
    else .error .notRefreshable

/-- The health that `restore_health_after_refresh` puts in the place of `Refreshing`. -/
def restored : AccountHealth → AccountHealth
  | .cooling => .cooling
  | .exhausted => .exhausted
  | .available | .banned | .refreshing => .available

structure Args where
  force : Bool
  rejectedAccessToken : Option String
  deriving DecidableEq, Repr

/-- Where a call of `refresh_account_with_hooks` stands, by the access that comes next. -/
inductive Call where
  | locking (args : Args)
  | reading (args : Args)
  | watching (args : Args) (snapshot : Account)
  | marking (args : Args) (snapshot : Account) (before : AccountHealth)
  | requesting (args : Args) (snapshot : Account) (before : AccountHealth)
  | reloading (args : Args) (snapshot : Account) (before : AccountHealth) (failure : RefreshRequestFailure)
  | adopting (args : Args) (snapshot : Account) (before : AccountHealth) (reloaded : ReloadedCredentials)
  | retrying (args : Args) (snapshot : Account) (before : AccountHealth)
  | applying (before : AccountHealth) (tokens : RefreshResponse)
  | persisting (before : AccountHealth) (refreshed : RefreshedCredentials)
  | restoring (before : AccountHealth) (result : Result)
  | banning (error : RefreshError)
  | releasing (result : Result)
  | done (result : Result)
  deriving DecidableEq, Repr

/-- The state of the account that the calls share. What upstream has issued, and what has been
written durably, is kept in order. -/
structure Shared where
  account : Account
  health : AccountHealth := .available
  refreshLock : Option Nat := none
  issued : List RefreshedCredentials := []
  persisted : List RefreshedCredentials := []
  clock : Int := 0
  beforeExpirySecs : Int := 0
  deriving DecidableEq, Repr

structure Answer where
  tokens : Except RefreshRequestFailure RefreshResponse := .error .notRefreshable
  reload : Except String (Option ReloadedCredentials) := .ok none
  persist : Except String Unit := .ok ()
  deriving DecidableEq, Repr

def judge (s : Shared) (args : Args) (snapshot : Account) : Call :=
  if args.rejectedAccessToken.any (snapshot.credentials.accessToken ≠ ·) then .releasing (.ok .unchanged)
  else if !args.force ∧ !snapshot.isTokenExpiring s.clock s.beforeExpirySecs then .releasing (.ok .unchanged)
  else match validateRefreshable snapshot with
    | .error error => .releasing (.error error)
    | .ok () => .watching args snapshot

def fail (s : Shared) (args : Args) (snapshot : Account) (before : AccountHealth)
    (failure : RefreshRequestFailure) : Call :=
  if args.force ∨ snapshot.credentials.expiresAt ≤ s.clock then .banning failure.intoRefreshError
  else .restoring before (.error failure.intoRefreshError)

/-- After the first request: a rejected refresh token of an IdC account is looked up again. -/
def requested (s : Shared) (args : Args) (snapshot : Account) (before : AccountHealth) :
    Except RefreshRequestFailure RefreshResponse → Call
  | .ok tokens => .applying before tokens
  | .error failure =>
    if snapshot.credentials.authMethod = .idc ∧ failure.status = some 400 then
      .reloading args snapshot before failure
    else fail s args snapshot before failure

def accessTokenChanged (snapshot : Account) (reloaded : ReloadedCredentials) : Bool :=
  reloaded.credentials.accessToken ≠ snapshot.credentials.accessToken

def reloadedCall (s : Shared) (args : Args) (snapshot : Account) (before : AccountHealth)
    (failure : RefreshRequestFailure) : Except String (Option ReloadedCredentials) → Call
  | .error error => .banning (.credentialReload error)
  | .ok none => fail s args snapshot before failure
  | .ok (some reloaded) =>
    if accessTokenChanged snapshot reloaded ∨ refreshInputsChanged snapshot.credentials reloaded.credentials then
      .adopting args snapshot before reloaded
    else fail s args snapshot before failure

/-- After the reloaded credentials have been written; `adopted` is the account with them. -/
def adopt (args : Args) (snapshot adopted : Account) (before : AccountHealth) (reloaded : ReloadedCredentials) :
    Call :=
  if accessTokenChanged snapshot reloaded then
    .restoring before (.ok { changed := true, persistenceError := none })
  else match validateRefreshable adopted with
    | .error error => .banning error
    | .ok () => .retrying args adopted before

def Account.withTokens (account : Account) (tokens : RefreshResponse) (now : Int) : Account :=
  { account with
    credentials := { account.credentials with
      accessToken := tokens.accessToken
      refreshToken := tokens.refreshToken.or account.credentials.refreshToken
      expiresAt := now + tokens.expiresIn }
    profileArn := tokens.profileArn.or account.profileArn }

/-- The next access of the call that stands at place `i`. -/
def advance (s : Shared) (i : Nat) (answer : Answer) : Call → Shared × Call
  | .locking args =>
    match s.refreshLock with
    | none => ({ s with refreshLock := some i }, .reading args)
    | some _ => (s, .locking args)
  | .reading args => (s, judge s args s.account)
  | .watching args snapshot => (s, .marking args snapshot s.health)
  | .marking args snapshot before => ({ s with health := .refreshing }, .requesting args snapshot before)
  | .requesting args snapshot before => (s, requested s args snapshot before (requestTokens snapshot answer.tokens))
  | .reloading args snapshot before failure => (s, reloadedCall s args snapshot before failure answer.reload)
  | .adopting args snapshot before reloaded =>
    let adopted := { s.account with credentials := reloaded.credentials, profileArn := reloaded.profileArn }
    ({ s with account := adopted }, adopt args snapshot adopted before reloaded)
  | .retrying args snapshot before =>
    (s, match requestTokens snapshot answer.tokens with
      | .ok tokens => .applying before tokens
      | .error failure => fail s args snapshot before failure)
  | .applying before tokens =>
    let account := s.account.withTokens tokens s.clock
    let refreshed : RefreshedCredentials :=
      { accountId := account.id, credentials := account.credentials, profileArn := tokens.profileArn }
    ({ s with account := account, issued := s.issued ++ [refreshed] }, .persisting before refreshed)
  | .persisting before refreshed =>
    match answer.persist with
    | .ok () =>
      ({ s with persisted := s.persisted ++ [refreshed] },
        .restoring before (.ok { changed := true, persistenceError := none }))
    | .error error => (s, .restoring before (.ok { changed := true, persistenceError := some error }))
  | .restoring before result =>
    ({ s with health := if s.health = .refreshing then restored before else s.health }, .releasing result)
  | .banning error => ({ s with health := .banned }, .releasing (.error error))
  | .releasing result => ({ s with refreshLock := none }, .done result)
  | .done result => (s, .done result)

structure System where
  shared : Shared
  calls : List Call := []
  deriving DecidableEq, Repr

/-- `AccountState::new` -/
def System.new (account : Account) (beforeExpirySecs : Int) : System :=
  { shared := { account := account, beforeExpirySecs := beforeExpirySecs } }

inductive Action where
  | start (args : Args)
  | advance (call : Nat) (answer : Answer)
  | report (health : AccountHealth)
  | tick (secs : Nat)
  deriving DecidableEq, Repr

/-- Requests write every health but `Refreshing`. -/
def step (system : System) : Action → System
  | .start args => { system with calls := system.calls ++ [.locking args] }
  | .advance i answer =>
    match system.calls[i]? with
    | none => system
    | some call =>
      let (shared, next) := advance system.shared i answer call
      { shared := shared, calls := system.calls.set i next }
  | .report health =>
    if health = .refreshing then system else { system with shared := { system.shared with health := health } }
  | .tick secs => { system with shared := { system.shared with clock := system.shared.clock + secs } }

def reached (account : Account) (beforeExpirySecs : Int) (actions : List Action) : System :=
  Run.run step (.new account beforeExpirySecs) actions

end KiroProxy.Refresh

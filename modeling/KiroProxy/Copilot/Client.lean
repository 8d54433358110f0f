import KiroProxy.Lib.Table
import KiroProxy.Lib.Text
import Mathlib.Algebra.Group.Int.Defs
import Mathlib.Algebra.Group.Nat.Defs

/-! The Copilot provider: its accounts and what it keeps for them in memory, and the operations on it, each as a
sequence of accesses between which other operations take theirs. A request to GitHub or to Copilot and its answer
are one access. -/
namespace KiroProxy.Copilot

/-! ### Data -/

structure CopilotCredentials where
  githubAccessToken : String
  githubRefreshToken : Option String := none
  githubExpiresAt : Option Int := none
  githubRefreshTokenExpiresAt : Option Int := none
  tokenType : String := "bearer"
  deriving DecidableEq, Repr

structure CopilotAccount where
  id : String
  githubHost : String
  githubUserId : Nat
  login : String
  email : Option String := none
  label : Option String := none
  tags : List String := []
  enabled : Bool := true
  credentials : CopilotCredentials
  createdAt : Int
  updatedAt : Option Int := none
  supportedModels : List String := []
  endpoint : Option String := none
  lastError : Option String := none
  deriving DecidableEq, Repr

inductive ProviderProtocol where
  | claudeMessages
  | openAiChat
  | openAiResponses
  deriving DecidableEq, Repr

def ProviderProtocol.asStr : ProviderProtocol → String
  | claudeMessages => "claude_messages"
  | openAiChat => "openai_chat"
  | openAiResponses => "openai_responses"

structure ProviderModel where
  id : String
  protocols : List ProviderProtocol
  deriving DecidableEq, Repr

structure AccountModelCache where
  models : List ProviderModel
  updatedAt : Int
  deriving DecidableEq, Repr

structure CachedApiToken where
  token : String
  endpoint : String
  expiresAt : Int
  deriving DecidableEq, Repr

structure GithubUser where
  id : Nat
  login : String
  email : Option String
  deriving DecidableEq, Repr

structure DeviceTokenResponse where
  accessToken : Option String := none
  tokenType : Option String := none
  refreshToken : Option String := none
  expiresIn : Option Nat := none
  refreshTokenExpiresIn : Option Nat := none
  error : Option String := none
  errorDescription : Option String := none
  deriving DecidableEq, Repr

structure CopilotSettings where
  githubHost : String
  refreshBeforeSecs : Int
  modelCacheTtlSecs : Int
  modelMaxStaleSecs : Int
  deriving DecidableEq, Repr

/-- `i64::saturating_add` -/
def saturatingAdd (a b : Int) : Int := max (-2 ^ 63) (min (2 ^ 63 - 1) (a + b))

/-- `i64::saturating_sub` -/
def saturatingSub (a b : Int) : Int := max (-2 ^ 63) (min (2 ^ 63 - 1) (a - b))

def deadline (now : Int) (seconds : Nat) : Int := saturatingAdd now (min seconds (2 ^ 63 - 1) : Nat)

/-! ### The provider -/

/-- The locks that are held over several accesses are flags, the refresh locks the ids of their accounts; of the
concurrency limits only the accounts that have one are told. -/
structure CopilotProvider where
  id : String
  enabled : Bool
  settings : CopilotSettings
  accounts : List CopilotAccount
  accountsLocked : Bool := false
  mutation : Bool := false
  tokenCache : Table String CachedApiToken := ∅
  refreshLocks : List String := []
  accountLimits : List String
  modelCache : Table String AccountModelCache
  modelRefresh : Bool := false

structure Files where
  accounts : List CopilotAccount := []
  models : Table String AccountModelCache := ∅

/-- What GitHub and the accounts file have seen: a refresh token that was sent, with what was issued for it; and what
was written to the list, an account, the removal of one, or credentials. -/
inductive Event where
  | refreshed (refreshToken : String) (issued : Option CopilotCredentials)
  | imported (id : String)
  | removed (id : String)
  | wrote (id : String) (credentials : CopilotCredentials)
  deriving DecidableEq, Repr

structure World where
  files : Files := {}
  log : List Event := []

def load (id : String) (enabled : Bool) (settings : CopilotSettings) (files : Files) : CopilotProvider where
  id := id
  enabled := enabled
  settings := settings
  accounts := files.accounts
  accountLimits := files.accounts.map (·.id)
  modelCache := files.models

/-- What an access may depend on: the time, the answer to its request, whether its save or its load succeeds, a random
id, and the account that is free first. -/
structure Answer where
  now : Int := 0
  user : Except String GithubUser := .error ""
  exchanged : Except String CachedApiToken := .error ""
  models : Except String (List ProviderModel) := .error ""
  refreshed : Except String DeviceTokenResponse := .error ""
  status : Except String Nat := .error ""
  accountsSaved : Except String Unit := .ok ()
  modelsSaved : Except String Unit := .ok ()
  accountsLoaded : Bool := true
  modelsLoaded : Bool := true
  newId : String := ""
  choice : Nat := 0

/-! ### Operations -/

inductive Edit where
  | enabled (enabled : Bool)
  | tags (add remove : List String)
  | health

inductive Operation where
  | importCredentials (credentials : CopilotCredentials) (label expectedLogin : Option String)
  | edit (idOrLogin : String) (edit : Edit)
  | removeAccount (idOrLogin : String)
  | refreshAccount (idOrLogin : String)
  | models (refresh : Bool)
  | executePath (model : String) (protocol : ProviderProtocol)

inductive Outcome where
  | imported (account : CopilotAccount)
  | removed (account : CopilotAccount)
  | finished
  | failed (error : String)

/-- The loop of `execute_path` over the accounts. -/
structure Execution where
  model : String
  protocol : ProviderProtocol
  accountCount : Nat
  rounds : Nat
  excluded : List String := []
  lastError : Option String := none

/-- The loop of `models` over the accounts. -/
structure Discovery where
  left : List CopilotAccount
  discovered : Table String (String × List ProviderModel) := ∅
  errors : Table String String := ∅

inductive Caller where
  | refreshAccount (idOrLogin : String)
  | models (discovery : Discovery)
  | executePath (execution : Execution) (retriedAuth : Bool)

inductive Change where
  | add (account : CopilotAccount) (exchanged : CachedApiToken) (models : List ProviderModel)
  | edit (idOrLogin : String) (edit : Edit)
  | remove (idOrLogin : String)
  | refreshed (account : CopilotAccount) (idOrLogin : String) (token : CachedApiToken) (models : List ProviderModel)
      (now : Int)
  | discovered (discovery : Discovery) (now : Int)
  | credentials (account : CopilotAccount) (credentials : CopilotCredentials) (now : Int) (caller : Caller)

inductive After where
  | added (account : CopilotAccount) (exchanged : CachedApiToken) (models : List ProviderModel)
  | edited (disabled : Option String)
  | removed (account : CopilotAccount)
  | refreshed (id : String) (models : List ProviderModel) (now : Int)
  | discovered (snapshot : Table String AccountModelCache) (outcome : Outcome)
  | credentials (account : CopilotAccount) (written : CopilotCredentials) (caller : Caller)

inductive Section where
  | savingModels (snapshot : Table String AccountModelCache) (next : List CopilotAccount) (changed : Bool)
      (outcome : Outcome)
  | saving (next : List CopilotAccount) (after : After)
  | addedToken (account : CopilotAccount) (exchanged : CachedApiToken) (models : List ProviderModel)
  | addedLimit (account : CopilotAccount) (models : List ProviderModel)
  | addedModels (account : CopilotAccount) (models : List ProviderModel)
  | disabledToken (id : String)
  | removedToken (account : CopilotAccount)
  | removedLimit (account : CopilotAccount)
  | removedModels (account : CopilotAccount)
  | refreshedModels (id : String) (models : List ProviderModel) (now : Int)
  | refreshedMissing (id idOrLogin : String)
  | writingModels (outcome : Outcome)

inductive Phase where
  | ready (operation : Operation)
  | importExchange (host : String) (credentials : CopilotCredentials) (label : Option String) (user : GithubUser)
  | importModels (host : String) (credentials : CopilotCredentials) (label : Option String) (user : GithubUser)
      (exchanged : CachedApiToken)
  | refreshForget (account : CopilotAccount) (idOrLogin : String)
  | refreshModels (account : CopilotAccount) (idOrLogin : String) (token : CachedApiToken)
  | modelsCached (accounts : List CopilotAccount) (refresh : Bool)
  | modelsWaiting (accounts : List CopilotAccount) (refresh : Bool)
  | modelsAgain (accounts : List CopilotAccount) (refresh : Bool)
  | modelsNext (discovery : Discovery)
  | modelsFetch (discovery : Discovery) (account : CopilotAccount) (token : CachedApiToken)
  | executeNext (execution : Execution)
  | executeAccounts (execution : Execution) (capable : List String)
  | executeLimits (execution : Execution) (accounts : List CopilotAccount)
  | executeSend (execution : Execution) (account : CopilotAccount) (token : CachedApiToken) (retriedAuth : Bool)
  | executeForget (execution : Execution) (account : CopilotAccount)
  | executeFailed (execution : Execution) (id error : String)
  | executeSettled (id : String) (error : Option String)
  | tokenCached (account : CopilotAccount) (caller : Caller)
  | tokenWaiting (account : CopilotAccount) (caller : Caller)
  | tokenAgain (account : CopilotAccount) (caller : Caller)
  | tokenRefresh (account : CopilotAccount) (caller : Caller)
  | tokenExchange (account : CopilotAccount) (githubToken : String) (caller : Caller)
  | tokenStore (account : CopilotAccount) (token : CachedApiToken) (caller : Caller)
  | entering (change : Change)
  | inside (here : Section)
  | done (outcome : Outcome)

/-! ### Parts of the operations -/

def notFoundAccount (id : String) : String := "Copilot account " ++ id ++ " not found"

def requiresReauthorization (login : String) : String := "Copilot account " ++ login ++ " requires reauthorization"

namespace CopilotAccount

def named (idOrLogin : String) (account : CopilotAccount) : Bool :=
  account.id = idOrLogin || account.login = idOrLogin

def expires (account : CopilotAccount) (margin now : Int) : Bool :=
  account.credentials.githubExpiresAt.any (· ≤ saturatingAdd now margin)

def expired (account : CopilotAccount) (now : Int) : Bool := account.credentials.githubExpiresAt.any (· ≤ now)

end CopilotAccount

def cacheEntryIsUsable (now maxAge : Int) (entry : AccountModelCache) : Bool :=
  saturatingSub now entry.updatedAt < maxAge

def cacheIsFresh (cache : Table String AccountModelCache) (enabledIds : List String) (now maxAge : Int) : Bool :=
  enabledIds ≠ [] && enabledIds.all fun id => (cache.get? id).any (cacheEntryIsUsable now maxAge)

def providerStatusDegradesHealth (status : Nat) : Bool :=
  status ∈ [401, 403, 429] || (500 ≤ status && status ≤ 599)

def providerStatusAllowsFailover (status : Nat) : Bool := status ∈ [401, 403, 429, 502, 503, 504]

namespace Edit

def apply (now : Int) (account : CopilotAccount) : Edit → CopilotAccount
  | .enabled value => { account with enabled := value, updatedAt := some now }
  | .tags add remove =>
    let tags := add.foldl (fun tags tag => if tag ∈ tags then tags else tags ++ [tag]) account.tags
    let tags := tags.filter (· ∉ remove)
    { account with tags := (tags.mergeSort fun a b => decide (a ≤ b)).eraseDups, updatedAt := some now }
  | .health => { account with lastError := none, updatedAt := some now }

def disables : Edit → Bool
  | .enabled value => !value
  | _ => false

end Edit

/-- What an answered refresh request writes. -/
def refreshGithubCredentials (account : CopilotAccount) (now : Int) (answer : Except String DeviceTokenResponse) :
    Except String CopilotCredentials := do
  let refreshed ← answer
  if let some error := refreshed.error then
    throw (refreshed.errorDescription.getD error)
  let some accessToken := refreshed.accessToken | throw "GitHub token refresh returned no access_token"
  return {
    githubAccessToken := accessToken
    githubRefreshToken := refreshed.refreshToken <|> account.credentials.githubRefreshToken
    githubExpiresAt := refreshed.expiresIn.map (deadline now)
    githubRefreshTokenExpiresAt :=
      refreshed.refreshTokenExpiresIn.map (deadline now) <|> account.credentials.githubRefreshTokenExpiresAt
    tokenType := refreshed.tokenType.getD "bearer" }

/-- How the caller of `api_token` goes on. -/
def resume (account : CopilotAccount) : Caller → Except String CachedApiToken → Phase
  | .refreshAccount idOrLogin, .ok token => .refreshModels account idOrLogin token
  | .refreshAccount _, .error error => .done (.failed error)
  | .models discovery, .ok token => .modelsFetch discovery account token
  | .models discovery, .error error =>
    .modelsNext { discovery with errors := discovery.errors.insert account.id error }
  | .executePath execution retriedAuth, .ok token => .executeSend execution account token retriedAuth
  | .executePath execution _, .error error => .executeFailed execution account.id error

namespace CopilotProvider

def unlock (provider : CopilotProvider) : CopilotProvider :=
  { provider with mutation := false, accountsLocked := false }

def unlockRefresh (provider : CopilotProvider) (id : String) : CopilotProvider :=
  { provider with refreshLocks := provider.refreshLocks.erase id }

def unlockModels (provider : CopilotProvider) : CopilotProvider := { provider with modelRefresh := false }

def forget (provider : CopilotProvider) (id : String) : CopilotProvider :=
  { provider with tokenCache := provider.tokenCache.erase id }

def setAccountRuntimeError (provider : CopilotProvider) (id : String) (error : Option String) : CopilotProvider :=
  match provider.accounts.findIdx? (·.id = id) with
  | some i => { provider with accounts := provider.accounts.modify i fun account => { account with lastError := error } }
  | none => provider

def cachedToken (provider : CopilotProvider) (id : String) (now : Int) : Option CachedApiToken :=
  (provider.tokenCache.get? id).filter fun cached => saturatingAdd now provider.settings.refreshBeforeSecs < cached.expiresAt

def enabledIds (provider : CopilotProvider) : List String := (provider.accounts.filter (·.enabled)).map (·.id)

end CopilotProvider

end KiroProxy.Copilot

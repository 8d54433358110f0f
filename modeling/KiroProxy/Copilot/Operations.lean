import KiroProxy.Copilot.Client

/-! One access of an operation on the Copilot provider. Where it needs a lock that is held it waits. -/
namespace KiroProxy.Copilot

namespace CopilotProvider

/-! ### Under the mutation lock -/

/-- What `models` makes of the accounts that it has asked about and that are still there. -/
def discover (provider : CopilotProvider) (discovery : Discovery) (now : Int) : Section :=
  let enabledIds := provider.enabledIds
  let discovered := discovery.discovered.retain (· ∈ enabledIds)
  let errors := discovery.errors.retain (· ∈ enabledIds)
  let filled := provider.modelCache.extend (discovered.mapValues fun found => ⟨found.2, now⟩)
  let snapshot := filled.filter fun id entry =>
    id ∈ enabledIds && cacheEntryIsUsable now provider.settings.modelMaxStaleSecs entry
  let next := provider.accounts.map fun account =>
    match discovered.get? account.id, errors.get? account.id with
    | some (endpoint, models), _ => { account with
        endpoint := some endpoint
        supportedModels := models.map (·.id)
        lastError := none
        updatedAt := some now }
    | none, some error => { account with lastError := some error, updatedAt := some now }
    | none, none => account
  let messages := (errors.entries.mergeSort fun a b => decide (a.1 ≤ b.1)).map fun entry => entry.1 ++ ": " ++ entry.2
  let message := if messages = [] then "no usable catalog snapshot" else "; ".intercalate messages
  let usable := enabledIds.any fun id => (snapshot.get? id).isSome
  .savingModels snapshot next (discovered.entries.length + errors.entries.length ≠ 0)
    (if discovered.entries.length = 0 && !usable then .failed ("Copilot model discovery failed: " ++ message)
      else .finished)

/-- The locks are taken, and the next list is made; nothing is kept where there is nothing to change. -/
def enter (provider : CopilotProvider) (answer : Answer) (change : Change) : Option (CopilotProvider × Phase) :=
  if provider.mutation || provider.accountsLocked then none
  else
    let locked := { provider with mutation := true, accountsLocked := true }
    let accounts := provider.accounts
    match change with
    | .add account exchanged models =>
      if accounts.any fun current =>
          Text.toAsciiLowercase current.githubHost = Text.toAsciiLowercase account.githubHost
            && current.githubUserId = account.githubUserId then
        some (provider, .done (.failed ("GitHub user " ++ account.login ++ " is already configured")))
      else some (locked, .inside (.saving (accounts ++ [account]) (.added account exchanged models)))
    | .edit idOrLogin edit =>
      match accounts.findIdx? (CopilotAccount.named idOrLogin) with
      | some i =>
        let disabled := if edit.disables then accounts[i]?.map (·.id) else none
        some (locked, .inside (.saving (accounts.modify i fun account => edit.apply answer.now account) (.edited disabled)))
      | none => some (provider, .done (.failed (notFoundAccount idOrLogin)))
    | .remove idOrLogin =>
      match accounts.findIdx? (CopilotAccount.named idOrLogin) with
      | some i => accounts[i]?.map fun account =>
          (locked, .inside (.saving (accounts.eraseIdx i) (.removed account)))
      | none => some (provider, .done (.failed (notFoundAccount idOrLogin)))
    | .refreshed account idOrLogin token models now =>
      match accounts.findIdx? (·.id = account.id) with
      | some i =>
        let next := accounts.modify i fun current => { current with
          endpoint := some token.endpoint
          supportedModels := models.map (·.id)
          lastError := none
          updatedAt := some now }
        some (locked, .inside (.saving next (.refreshed account.id models now)))
      | none => some ({ provider with mutation := true }, .inside (.refreshedMissing account.id idOrLogin))
    | .discovered discovery now => some (locked, .inside (provider.discover discovery now))
    | .credentials account credentials now caller =>
      match accounts.findIdx? (·.id = account.id) with
      | some i =>
        let next := accounts.modify i fun current => { current with credentials := credentials, updatedAt := some now }
        some (locked, .inside (.saving next (.credentials account credentials caller)))
      | none =>
        some (provider.unlockRefresh account.id, resume account caller (.error (notFoundAccount account.id)))

def saved (provider : CopilotProvider) (next : List CopilotAccount) : After → CopilotProvider × Phase
  | .added account exchanged models =>
    ({ provider with accounts := next, accountsLocked := false }, .inside (.addedToken account exchanged models))
  | .edited (some id) => ({ provider with accounts := next }, .inside (.disabledToken id))
  | .edited none => ({ provider with accounts := next }.unlock, .done .finished)
  | .removed account => ({ provider with accounts := next }, .inside (.removedToken account))
  | .refreshed id models now =>
    ({ provider with accounts := next, accountsLocked := false }, .inside (.refreshedModels id models now))
  | .discovered snapshot outcome =>
    ({ provider with accounts := next, modelCache := snapshot }.unlock.unlockModels, .done outcome)
  | .credentials account written caller =>
    ({ provider with accounts := next }.unlock, .tokenExchange account written.githubAccessToken caller)

def unsaved (provider : CopilotProvider) (error : String) : After → CopilotProvider × Phase
  | .discovered _ _ => (provider.unlock.unlockModels, .done (.failed error))
  | .credentials account _ caller => (provider.unlock.unlockRefresh account.id, resume account caller (.error error))
  | _ => (provider.unlock, .done (.failed error))

def written : After → List Event
  | .added account _ _ => [.imported account.id]
  | .removed account => [.removed account.id]
  | .credentials account credentials _ => [.wrote account.id credentials]
  | _ => []

def inside (provider : CopilotProvider) (answer : Answer) (world : World) :
    Section → World × CopilotProvider × Phase
  | .savingModels snapshot next changed outcome =>
    match answer.modelsSaved with
    | .error error => (world, provider.unlock.unlockModels, .done (.failed error))
    | .ok () =>
      let world := { world with files := { world.files with models := snapshot } }
      if changed then (world, provider, .inside (.saving next (.discovered snapshot outcome)))
      else (world, provider.saved next (.discovered snapshot outcome))
  | .saving next after =>
    match answer.accountsSaved with
    | .error error => (world, provider.unsaved error after)
    | .ok () =>
      ({ world with files := { world.files with accounts := next }, log := world.log ++ written after },
        provider.saved next after)
  | .addedToken account exchanged models =>
    (world, { provider with tokenCache := provider.tokenCache.insert account.id exchanged },
      .inside (.addedLimit account models))
  | .addedLimit account models =>
    (world, { provider with accountLimits := account.id :: provider.accountLimits.filter (· ≠ account.id) },
      .inside (.addedModels account models))
  | .addedModels account models =>
    (world, { provider with modelCache := provider.modelCache.insert account.id ⟨models, account.createdAt⟩ },
      .inside (.writingModels (.imported account)))
  | .disabledToken id => (world, (provider.forget id).unlock, .done .finished)
  | .removedToken account => (world, provider.forget account.id, .inside (.removedLimit account))
  | .removedLimit account =>
    (world, { provider with accountLimits := provider.accountLimits.filter (· ≠ account.id) },
      .inside (.removedModels account))
  | .removedModels account =>
    (world, { provider with modelCache := provider.modelCache.erase account.id },
      .inside (.writingModels (.removed account)))
  | .refreshedModels id models now =>
    (world, { provider with modelCache := provider.modelCache.insert id ⟨models, now⟩ },
      .inside (.writingModels .finished))
  | .refreshedMissing id idOrLogin =>
    (world, (provider.forget id).unlock, .done (.failed (notFoundAccount idOrLogin)))
  | .writingModels outcome =>
    -- A failed write of the model cache is only logged.
    let models := if answer.modelsSaved.isOk then provider.modelCache else world.files.models
    ({ world with files := { world.files with models := models } }, provider.unlock, .done outcome)

/-! ### Without it -/

/-- `github_user`, `exchange_token_value` and `fetch_models_with_token`, one after the other. -/
def importUser (provider : CopilotProvider) (answer : Answer) (credentials : CopilotCredentials)
    (label expectedLogin : Option String) : Phase :=
  match answer.user with
  | .error error => .done (.failed error)
  | .ok user =>
    if expectedLogin.any fun expected => Text.toAsciiLowercase user.login ≠ Text.toAsciiLowercase expected then
      .done (.failed "authorized GitHub user does not match the requested browser-login username")
    else .importExchange provider.settings.githubHost credentials label user

def importExchange (answer : Answer) (host : String) (credentials : CopilotCredentials) (label : Option String)
    (user : GithubUser) : Phase :=
  match answer.exchanged with
  | .error error => .done (.failed error)
  | .ok exchanged => .importModels host credentials label user exchanged

def importModels (answer : Answer) (host : String) (credentials : CopilotCredentials) (label : Option String)
    (user : GithubUser) (exchanged : CachedApiToken) : Phase :=
  match answer.models with
  | .error error => .done (.failed error)
  | .ok [] => .done (.failed "Copilot token is valid but its model catalog is empty")
  | .ok (model :: models) =>
    let account : CopilotAccount := {
      id := "acc_" ++ answer.newId
      githubHost := host
      githubUserId := user.id
      login := user.login
      email := user.email
      label := label
      credentials := credentials
      createdAt := answer.now
      supportedModels := (model :: models).map (·.id)
      endpoint := some exchanged.endpoint }
    .entering (.add account exchanged (model :: models))

/-- The end of `execute_path` without a response. -/
def unanswered (execution : Execution) (message : String) : Phase :=
  .done (.failed (execution.lastError.getD message))

def modelNotAvailable (provider : CopilotProvider) (execution : Execution) : String :=
  "model " ++ execution.model ++ " does not support " ++ execution.protocol.asStr ++
    " on an enabled account for provider " ++ provider.id

def executeSend (answer : Answer) (execution : Execution) (account : CopilotAccount) (retriedAuth : Bool) : Phase :=
  match answer.status with
  | .error error => .executeFailed execution account.id error
  | .ok status =>
    let error := "Copilot upstream returned HTTP " ++ toString status
    if status = 401 && !retriedAuth then .executeForget execution account
    else if providerStatusDegradesHealth status then
      if providerStatusAllowsFailover status && execution.excluded.length < execution.accountCount then
        .executeFailed execution account.id error
      else .executeSettled account.id (some error)
    else if 200 ≤ status && status < 300 then .executeSettled account.id none
    else .done .finished

def tokenMissing (provider : CopilotProvider) (answer : Answer) (account : CopilotAccount) (caller : Caller) :
    CopilotProvider × Phase :=
  if account.expires provider.settings.refreshBeforeSecs answer.now then
    if account.credentials.githubRefreshToken.isSome then (provider, .tokenRefresh account caller)
    else if account.expired answer.now then
      (provider.unlockRefresh account.id, resume account caller (.error (requiresReauthorization account.login)))
    else (provider, .tokenExchange account account.credentials.githubAccessToken caller)
  else (provider, .tokenExchange account account.credentials.githubAccessToken caller)

def tokenRefresh (provider : CopilotProvider) (answer : Answer) (account : CopilotAccount) (caller : Caller) :
    List Event × CopilotProvider × Phase :=
  if account.credentials.githubRefreshTokenExpiresAt.any (· ≤ answer.now) then
    ([], provider.unlockRefresh account.id, resume account caller (.error (requiresReauthorization account.login)))
  else match account.credentials.githubRefreshToken with
    | none =>
      ([], provider.unlockRefresh account.id, resume account caller (.error "GitHub refresh token is missing"))
    | some refreshToken =>
      match refreshGithubCredentials account answer.now answer.refreshed with
      | .ok credentials =>
        ([.refreshed refreshToken (some credentials)], provider, .entering (.credentials account credentials answer.now caller))
      | .error error =>
        ([.refreshed refreshToken none], provider.unlockRefresh account.id, resume account caller (.error error))

def outside (provider : CopilotProvider) (answer : Answer) : Phase → Option (CopilotProvider × Phase)
  | .ready (.importCredentials credentials label expectedLogin) =>
    some (provider, provider.importUser answer credentials label expectedLogin)
  | .importExchange host credentials label user => some (provider, importExchange answer host credentials label user)
  | .importModels host credentials label user exchanged =>
    some (provider, importModels answer host credentials label user exchanged)
  | .ready (.edit idOrLogin edit) => some (provider, .entering (.edit idOrLogin edit))
  | .ready (.removeAccount idOrLogin) => some (provider, .entering (.remove idOrLogin))
  | .ready (.refreshAccount idOrLogin) =>
    if provider.accountsLocked then none
    else match provider.accounts.find? (CopilotAccount.named idOrLogin) with
      | some account => some (provider, .refreshForget account idOrLogin)
      | none => some (provider, .done (.failed (notFoundAccount idOrLogin)))
  | .refreshForget account idOrLogin =>
    some (provider.forget account.id, .tokenCached account (.refreshAccount idOrLogin))
  | .refreshModels account idOrLogin token =>
    match answer.models with
    | .error error => some (provider, .done (.failed error))
    | .ok models => some (provider, .entering (.refreshed account idOrLogin token models answer.now))
  | .ready (.models refresh) =>
    if provider.accountsLocked then none
    else match provider.accounts.filter (·.enabled) with
      | [] => some (provider, .done (.failed ("provider " ++ provider.id ++ " has no enabled Copilot account")))
      | account :: accounts => some (provider, .modelsCached (account :: accounts) refresh)
  | .modelsCached accounts refresh =>
    if !refresh && cacheIsFresh provider.modelCache (accounts.map (·.id)) answer.now provider.settings.modelCacheTtlSecs
    then some (provider, .done .finished)
    else some (provider, .modelsWaiting accounts refresh)
  | .modelsWaiting accounts refresh =>
    if provider.modelRefresh then none
    else some ({ provider with modelRefresh := true }, .modelsAgain accounts refresh)
  | .modelsAgain accounts refresh =>
    if !refresh && cacheIsFresh provider.modelCache (accounts.map (·.id)) answer.now provider.settings.modelCacheTtlSecs
    then some (provider.unlockModels, .done .finished)
    else some (provider, .modelsNext { left := accounts })
  | .modelsNext discovery =>
    match discovery.left with
    | [] => some (provider, .entering (.discovered discovery answer.now))
    | account :: left => some (provider, .tokenCached account (.models { discovery with left := left }))
  | .modelsFetch discovery account token =>
    match answer.models with
    | .error error =>
      some (provider, .modelsNext { discovery with errors := discovery.errors.insert account.id error })
    | .ok models =>
      let discovered := discovery.discovered.insert account.id (token.endpoint, models)
      some (provider, .modelsNext { discovery with discovered := discovered })
  | .ready (.executePath model protocol) =>
    if !provider.enabled then some (provider, .done (.failed ("provider " ++ provider.id ++ " is disabled")))
    else if provider.accountsLocked then none
    else
      let count := provider.accounts.countP fun account => account.enabled && model ∈ account.supportedModels
      some (provider, .executeNext ⟨model, protocol, count, max count 1, [], none⟩)
  | .executeNext execution =>
    if execution.rounds = 0 then some (provider, unanswered execution ("provider " ++ provider.id ++ " has no usable account"))
    else
      let capable := provider.modelCache.entries.filter fun entry =>
        cacheEntryIsUsable answer.now provider.settings.modelMaxStaleSecs entry.2
          && entry.2.models.any fun model => model.id = execution.model && execution.protocol ∈ model.protocols
      some (provider, .executeAccounts execution (capable.map (·.1)))
  | .executeAccounts execution capable =>
    if provider.accountsLocked then none
    else
      let accounts := provider.accounts.filter fun account => account.enabled && account.id ∉ execution.excluded
        && execution.model ∈ account.supportedModels && account.id ∈ capable
      if accounts = [] then some (provider, unanswered execution (provider.modelNotAvailable execution))
      else some (provider, .executeLimits execution accounts)
  | .executeLimits execution accounts =>
    let candidates := accounts.filter (·.id ∈ provider.accountLimits)
    if candidates = [] then
      some (provider, unanswered execution ("provider " ++ provider.id ++ " has no initialized Copilot account"))
    else candidates[answer.choice]?.map fun account =>
      let execution := { execution with
        rounds := execution.rounds - 1
        excluded := execution.excluded ++ [account.id] }
      (provider, .tokenCached account (.executePath execution false))
  | .executeSend execution account _ retriedAuth => some (provider, executeSend answer execution account retriedAuth)
  | .executeForget execution account =>
    some (provider.forget account.id, .tokenCached account (.executePath execution true))
  | .executeFailed execution id error =>
    if provider.accountsLocked then none
    else some (provider.setAccountRuntimeError id (some error), .executeNext { execution with lastError := some error })
  | .executeSettled id error =>
    if provider.accountsLocked then none else some (provider.setAccountRuntimeError id error, .done .finished)
  | .tokenCached account caller =>
    match provider.cachedToken account.id answer.now with
    | some cached => some (provider, resume account caller (.ok cached))
    | none => some (provider, .tokenWaiting account caller)
  | .tokenWaiting account caller =>
    if account.id ∈ provider.refreshLocks then none
    else some ({ provider with refreshLocks := account.id :: provider.refreshLocks }, .tokenAgain account caller)
  | .tokenAgain account caller =>
    match provider.cachedToken account.id answer.now with
    | some cached => some (provider.unlockRefresh account.id, resume account caller (.ok cached))
    | none => some (provider.tokenMissing answer account caller)
  | .tokenExchange account _ caller =>
    match answer.exchanged with
    | .error error => some (provider.unlockRefresh account.id, resume account caller (.error error))
    | .ok token => some (provider, .tokenStore account token caller)
  | .tokenStore account token caller =>
    some ({ provider with tokenCache := provider.tokenCache.insert account.id token }.unlockRefresh account.id,
      resume account caller (.ok token))
  | .tokenRefresh _ _ | .entering _ | .inside _ | .done _ => none

def advance (provider : CopilotProvider) (answer : Answer) (world : World) (phase : Phase) :
    Option (World × CopilotProvider × Phase) :=
  match phase with
  | .entering change => (provider.enter answer change).map (world, ·)
  | .inside here => some (provider.inside answer world here)
  | .tokenRefresh account caller =>
    let (events, rest) := provider.tokenRefresh answer account caller
    some ({ world with log := world.log ++ events }, rest)
  | phase => (provider.outside answer phase).map (world, ·)

end CopilotProvider

/-! ### The system -/

/-- One provider, and the operations on it; the ones that have not begun are `ready`. -/
structure Client where
  world : World
  provider : CopilotProvider
  calls : Nat → Phase

def Client.step (client : Client) (action : Nat × Answer) : Client :=
  match client.provider.advance action.2 client.world (client.calls action.1) with
  | some (world, provider, phase) => ⟨world, provider, Function.update client.calls action.1 phase⟩
  | none => client

def Phase.busy : Phase → Bool
  | .ready _ | .done _ => false
  | _ => true

end KiroProxy.Copilot

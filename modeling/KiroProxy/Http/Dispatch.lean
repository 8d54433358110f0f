import KiroProxy.Http.ContextLimit
import KiroProxy.Http.ModelAllowed
import KiroProxy.Http.ModelFallback
import KiroProxy.Http.ProviderRoute
import KiroProxy.Kiro.Endpoint
import KiroProxy.Translate.Error

/-! One request dispatched to the accounts of a service: the attempts, the account and the model of each, and
what becomes of its failure. A lease is the id of its account. -/
namespace KiroProxy.Dispatch

open Kiro ModelMapping

inductive PoolError where
  | noAvailableAccount (model : String)
  | queueFull
  | queueTimeout
  | creditsExhausted
  deriving DecidableEq

structure UpstreamAttemptLog where
  attempt : Nat
  accountId : String
  accountName : String
  model : String
  availableModels : List String := []
  endpoint : String
  status : Option Nat
  error : String
  deriving DecidableEq

structure RequestLogContext where
  providerId : String
  accountId : String
  accountName : String
  endpoint : String
  mappedModel : String
  kiroModel : String
  modelPath : List String
  modelMappingRule : Option String
  attempts : List UpstreamAttemptLog
  deriving DecidableEq

inductive ExecuteError where
  | pool (error : PoolError)
  | upstream (error : KiroError)
  | dispatch (error : KiroError) (context : RequestLogContext)
  | contextLimit (model : String) (inputTokens maximum : Nat)
  | modelNotAllowed (providerId model : String)
  | crossProviderRoute (sourceProvider targetProvider model : String)
  deriving DecidableEq

/-- An account selected for a request and its model, before anything is sent. -/
structure PreparedUpstream where
  lease : String
  mappedModel : String
  kiroModel : String
  modelPath : List String
  modelMappingRule : Option String
  attempts : List UpstreamAttemptLog
  payload : KiroPayload

structure UpstreamExecution (R : Type) where
  lease : String
  response : R
  upstreamAccessToken : String
  mappedModel : String
  kiroModel : String
  modelPath : List String
  modelMappingRule : Option String
  attempts : List UpstreamAttemptLog
  payload : KiroPayload

inductive DispatchOutcome (R : Type) where
  | prepared (upstream : PreparedUpstream)
  | generated (execution : UpstreamExecution R)

structure Account where
  displayName : String
  remainingPercent : Option Rat := none
  profileArn : Option String := none
  accessToken : String := ""
  /-- The ids of the static catalog for its subscription -/
  staticModels : List String := []

structure Runtime where
  caches : Nat → Option (List String)

structure Request where
  accountIds : List String
  model : String
  requestedModel : String
  keyId : Option String
  allowedModels : List String
  serviceId : Option String
  defaultModel : String
  lockedMappingRule : Option String
  inputTokens : Nat
  payload : KiroPayload
  prepared : Option PreparedUpstream
  preflightOnly : Bool
  /-- Whether the client wants its history truncated -/
  automaticHistoryTruncation : Bool

structure Config where
  routing : Http.ProviderRoute.Config := {}
  maxRetries : Nat := 0
  autoSwitchOnQuotaExhausted : Bool := true
  enableModelFallback : Bool := true

structure Outside where
  prepareModelRequest : KiroPayload → KiroPayload
  truncate : KiroPayload → Nat → Except String (KiroPayload × Nat)
  contextMaximum : String → Nat
  logModel : String → String

structure Answers (R : Type) where
  /-- A lease for a model, none of whose accounts is among the given ones -/
  acquire : String → List String → Except PoolError String
  exhausted : String → Bool
  acquireAgain : String → List String → Except PoolError String
  exhaustedAgain : String → Bool
  chosen : Account
  runtime : Option Runtime
  draws : MappingDraws
  leased : Account
  sending : Account
  generate : KiroPayload → Except KiroError R
  /-- Whether the token could be refreshed after the rejection -/
  recovered : Bool
  refreshed : Account
  regenerate : KiroPayload → Except KiroError R
  catalog : List String
  fallbackRuntime : Option Runtime
  generateFallback : KiroPayload → Except KiroError R

inductive Mark where
  | success (id : String)
  | banned (id : String)
  | error (id : String)
  | quotaError (id : String)
  deriving DecidableEq

/-- The variables of the loop, and what it has done so far: the leases that it took, a prepared one among them, the
models that it sent for each account, and what it told the pool. -/
structure State where
  inputTokens : Nat
  actualModel : String
  mappedModel : String
  requestPayload : KiroPayload
  modelMappingRule : Option String
  modelPath : List String
  attemptLogs : List UpstreamAttemptLog
  preparedLease : Option String
  fallbackModel : Option String := none
  attemptedAccounts : List String
  lastError : Option KiroError := none
  leased : List String := []
  sent : List (String × String) := []
  marks : List Mark := []

/-! ### Helpers -/

def pushModelPath (path : List String) (model : String) : List String :=
  if model ≠ "" ∧ path.getLast? ≠ some model then path ++ [model] else path

def buildModelPath (original mapped kiro : String) : List String :=
  pushModelPath (pushModelPath (pushModelPath [] original) mapped) kiro

def upstreamAttemptLog (attempt : Nat) (lease : String) (account : Account) (model : String) (error : KiroError) :
    UpstreamAttemptLog :=
  { attempt, accountId := lease, accountName := account.displayName, model, endpoint := error.endpoint,
    status := error.status, error := ErrorText.sanitizeErrorMessage error.message }

def State.dispatchError (state : State) (error : KiroError) : ExecuteError :=
  let (accountId, accountName) :=
    (state.attemptLogs.getLast?.map fun log => (log.accountId, log.accountName)).getD ("", "")
  .dispatch error
    { providerId := "kiro", accountId, accountName, endpoint := error.endpoint, mappedModel := state.mappedModel,
      kiroModel := state.actualModel, modelPath := state.modelPath, modelMappingRule := state.modelMappingRule,
      attempts := state.attemptLogs }

/-- Both numbers are 32 bits wide. -/
def retryAttemptCount (maxRetries accountCount : Nat) : Nat :=
  max (min (min (maxRetries + 1) (2 ^ 32 - 1)) accountCount) 1

def setPayloadModel (payload : KiroPayload) (model : String) : KiroPayload :=
  let current := payload.conversationState.currentMessage.userInputMessage
  { payload with conversationState := { payload.conversationState with
    currentMessage := ⟨{ current with modelId := model }⟩
    history := payload.conversationState.history.map fun message =>
      { message with userInputMessage := message.userInputMessage.map ({ · with modelId := model }) } } }

def configuredCrossProviderTarget (config : Config) (sourceProvider mappedModel : String) : Option (String × String) := do
  let (targetProvider, targetModel) ← Text.splitOnce mappedModel "/"
  if targetProvider ≠ sourceProvider ∧ config.routing.effectiveProviders.any (·.id = targetProvider) then
    some (targetProvider, targetModel)
  else none

def Runtime.resolveModel (runtime : Runtime) (look : Nat) (model : String) : Option String :=
  (runtime.caches look).bind (ResolveModel.resolveDynamicModel model)

def Runtime.hasModelCache (runtime : Runtime) (look : Nat) : Bool := (runtime.caches look).isSome

def Runtime.supportedModels (runtime : Runtime) (look : Nat) : List String :=
  ((runtime.caches look).getD []).mergeSort fun a b => a ≤ b

def resolveStaticModel (account : Account) (model : String) : Option String :=
  ResolveModel.resolveDynamicModel model account.staticModels

/-! ### How a part of an attempt ends -/

abbrev Result (R : Type) := Except ExecuteError (DispatchOutcome R)

/-- Either it goes through to the next part, or the attempt is over: with the next attempt, with the end of the loop or
with an answer to the request. -/
inductive Flow (R : Type) (A : Type) where
  | through (value : A)
  | next (state : State)
  | leave (state : State)
  | done (state : State) (result : Result R)

namespace Flow

variable {R A B : Type}

def bind (flow : Flow R A) (rest : A → Flow R B) : Flow R B :=
  match flow with
  | through value => rest value
  | next state => next state
  | leave state => leave state
  | done state result => done state result

instance : Monad (Flow R) where
  pure := through
  bind := bind

/-- `goes` holds of the value that goes through, `nexts` of the state of the next attempt, `overs` of the last state. -/
def Ends (goes : A → Prop) (nexts overs : State → Prop) : Flow R A → Prop
  | through value => goes value
  | next state => nexts state
  | leave state | done state _ => overs state

variable {goes : A → Prop} {goesOn : B → Prop} {nexts overs : State → Prop} {flow : Flow R A}

theorem Ends.bind {rest : A → Flow R B} (first : flow.Ends goes nexts overs)
    (then_ : ∀ value, flow = .through value → goes value → (rest value).Ends goesOn nexts overs) :
    (flow >>= rest).Ends goesOn nexts overs := by
  cases flow with
  | through value => exact then_ value rfl first
  | next state => exact first
  | leave state => exact first
  | done state result => exact first

theorem Ends.imp {goes' : A → Prop} {nexts' overs' : State → Prop} (ends : flow.Ends goes nexts overs)
    (going : ∀ value, goes value → goes' value) (nexting : ∀ state, nexts state → nexts' state)
    (ending : ∀ state, overs state → overs' state) : flow.Ends goes' nexts' overs' := by
  cases flow with
  | through value => exact going value ends
  | next state => exact nexting state ends
  | leave state => exact ending state ends
  | done state result => exact ending state ends

end Flow

namespace State

variable (state : State)

def logged (attempt : Nat) (lease : String) (account : Account) (error : KiroError) : State :=
  { state with
    attemptLogs := state.attemptLogs ++ [upstreamAttemptLog (attempt + 1) lease account state.actualModel error] }

def marked (mark : Mark) : State := { state with marks := state.marks ++ [mark] }

def failed (error : KiroError) : State := { state with lastError := some error }

def attempted (lease : String) : State := { state with attemptedAccounts := state.attemptedAccounts.insert lease }

def sending (lease : String) : State := { state with sent := state.sent ++ [(lease, state.actualModel)] }

end State

variable {R : Type} (outside : Outside) (config : Config) (request : Request) (answers : Answers R)

/-! ### The lease -/

/-- The pool's answer; without an account, the loop is left where an attempt was made before. -/
def leaseOr (state : State) (answer : Except PoolError String) (exhausted : Bool)
    (otherwise : PoolError → Flow R (State × String)) : Flow R (State × String) :=
  match answer with
  | .ok lease => .through ({ state with leased := state.leased ++ [lease] }, lease)
  | .error (.noAvailableAccount model) =>
    if state.lastError.isSome then .leave state
    else if exhausted then .done state (.error (.pool .creditsExhausted))
    else otherwise (.noAvailableAccount model)
  | .error error => .done state (.error (.pool error))

/-- A model without an account gives way to the default model, or to any account where that is the model or unset. -/
def acquire (state : State) : Flow R (State × String) :=
  leaseOr state (answers.acquire state.actualModel state.attemptedAccounts) (answers.exhausted state.actualModel) fun _ =>
    let (state, model) :=
      if Text.trim request.defaultModel ≠ "" ∧ state.actualModel ≠ request.defaultModel then
        ({ state with
            actualModel := request.defaultModel
            requestPayload := setPayloadModel state.requestPayload request.defaultModel }, request.defaultModel)
      else (state, "")
    leaseOr state (answers.acquireAgain model state.attemptedAccounts) (answers.exhaustedAgain model) fun error =>
      .done state (.error (.pool error))

/-! ### The model -/

def context (remainingPercent : Option Rat) : ModelMappingContext :=
  { providerId := "kiro", serviceId := request.serviceId, apiKeyId := request.keyId, remainingPercent }

/-- The model that the mapping rules, the rule locked for the request or an earlier fallback tell. -/
def mapped (state : State) : State :=
  match state.fallbackModel, request.lockedMappingRule with
  | some fallback, _ => { state with mappedModel := fallback }
  | none, some rule => { state with mappedModel := request.model, modelMappingRule := some rule }
  | none, none =>
    let route := mapModelForProvider request.requestedModel config.routing.modelMapping
      (context request answers.chosen.remainingPercent) "" answers.draws
    { state with mappedModel := route.mapped, modelMappingRule := route.rule }

def State.resolved (state : State) (model : String) : State :=
  { state with
    actualModel := model
    modelPath := pushModelPath state.modelPath model
    requestPayload := setPayloadModel state.requestPayload model }

def incompatible (attempt : Nat) (lease : String) (runtime : Runtime) (state : State) : State :=
  let reason :=
    if Text.trim request.defaultModel = "" then
      s!"model '{outside.logModel state.actualModel}' is not present in this account's model cache and no default model is configured"
    else s!"model '{outside.logModel state.actualModel}' and default model '{outside.logModel request.defaultModel}' " ++
      "are not present in this account's model cache"
  let log : UpstreamAttemptLog :=
    { attempt := attempt + 1, accountId := lease, accountName := answers.chosen.displayName,
      model := outside.logModel state.actualModel, availableModels := runtime.supportedModels 3,
      endpoint := "model-resolution", status := none, error := reason }
  { state with attemptLogs := state.attemptLogs ++ [log] }.attempted lease

/-- The model resolved for the account, or for want of it the default model; an account that has neither is passed
over. -/
def chooseModel (attempt : Nat) (lease : String) (state : State) : Flow R State :=
  match answers.runtime with
  | none => .through state
  | some runtime =>
    let state := mapped config request answers state
    match configuredCrossProviderTarget config "kiro" state.mappedModel with
    | some (targetProvider, targetModel) =>
      .done state (.error (.crossProviderRoute "kiro" targetProvider targetModel))
    | none =>
      let state := { state with
        modelPath := buildModelPath request.requestedModel state.mappedModel ""
        actualModel := state.mappedModel }
      match runtime.resolveModel 0 state.actualModel with
      | some resolved => .through (state.resolved resolved)
      | none =>
        if runtime.hasModelCache 1 then
          if Text.trim request.defaultModel = "" then .next (incompatible outside request answers attempt lease runtime state)
          else match runtime.resolveModel 2 request.defaultModel with
          | some resolved =>
            .through ({ state with modelPath := pushModelPath state.modelPath request.defaultModel }.resolved resolved)
          | none => .next (incompatible outside request answers attempt lease runtime state)
        else match resolveStaticModel answers.chosen state.actualModel with
        | some resolved => .through (state.resolved resolved)
        | none => .through { state with requestPayload := setPayloadModel state.requestPayload state.actualModel }

def select (attempt : Nat) (state : State) : Flow R (State × String) :=
  match state.preparedLease with
  | some lease => .through ({ state with preparedLease := none, leased := state.leased ++ [lease] }, lease)
  | none => do
    let (state, lease) ← acquire request answers state
    let state ← chooseModel outside config request answers attempt lease state
    return (state, lease)

/-! ### The request and its failures -/

def answered (lease : String) (account : Account) (response : R) (state : State) : Flow R State :=
  .done (state.marked (.success lease)) (.ok (.generated
    { lease, response, upstreamAccessToken := account.accessToken, mappedModel := state.mappedModel,
      kiroModel := state.actualModel, modelPath := state.modelPath, modelMappingRule := state.modelMappingRule,
      attempts := state.attemptLogs, payload := state.requestPayload }))

def rejected (error : KiroError) (state : State) : Flow R State := .done state (.error (state.dispatchError error))

/-- The history cut down to the limit of a model, where the client wants that. -/
def truncated (model : String) (state : State) : Flow R (State × Nat) :=
  match ContextLimit.truncateContextIfRequested outside.truncate request.automaticHistoryTruncation
      (outside.contextMaximum model) state.requestPayload state.inputTokens with
  | .error message => .done state (.error (.upstream ⟨none, "context-preparation", message⟩))
  | .ok (payload, tokens) => .through ({ state with requestPayload := payload }, tokens)

/-- A rejected token is refreshed and the request sent once more; an account that is rejected again is banned. -/
def authFailure (attempt : Nat) (lease : String) (state : State) (error : KiroError) : Flow R State :=
  let state := state.logged attempt lease answers.sending error
  if answers.recovered then
    let state := { state with requestPayload := { state.requestPayload with profileArn := answers.refreshed.profileArn } }
    let state := state.sending lease
    match answers.regenerate state.requestPayload with
    | .ok response => answered lease answers.refreshed response state
    | .error retryError =>
      let state := (state.logged attempt lease answers.refreshed retryError).failed retryError
      .through (state.marked (if retryError.isAuth then .banned lease else .error lease))
  else .through ((state.failed error).marked (.banned lease))

def quotaFailure (attempt : Nat) (lease : String) (state : State) (error : KiroError) : Flow R State :=
  let state := (state.logged attempt lease answers.sending error).marked (.quotaError lease)
  if config.autoSwitchOnQuotaExhausted then .through (state.failed error) else rejected error state

/-- The id that the account has for the model fallen back to; an account without a model cache takes any. -/
def resolveFallback (fallback : String) : Option String :=
  match answers.fallbackRuntime with
  | none => some fallback
  | some runtime =>
    let resolved := runtime.resolveModel 0 fallback
    if resolved.isNone ∧ ¬ runtime.hasModelCache 1 then some fallback else resolved

/-- The older model of its family that a model falls back to, with the account's id for it. -/
def fallbackOf (model : String) : Option (String × String) := do
  let fallback ← ModelFallback.findModelFallback model answers.catalog
  let resolved ← resolveFallback answers fallback
  some (fallback, resolved)

def sendFallback (attempt : Nat) (lease fallback resolved : String) (inputTokens : Nat) (state : State) : Flow R State :=
  let path := pushModelPath (pushModelPath state.modelPath fallback) resolved
  let state := { state with
    inputTokens := inputTokens
    fallbackModel := some fallback
    mappedModel := fallback
    actualModel := resolved
    modelPath := path
    requestPayload := outside.prepareModelRequest (setPayloadModel state.requestPayload resolved) }
  let state := state.sending lease
  match answers.generateFallback state.requestPayload with
  | .ok response => answered lease answers.sending response state
  | .error fallbackError =>
    let state := state.logged attempt lease answers.sending fallbackError
    if fallbackError.isRequestRejection then rejected fallbackError state else .through (state.failed fallbackError)

/-- A fallback outside the scope of the key is passed over, and with it the rest of the attempt. -/
def capacityFailure (attempt : Nat) (lease : String) (state : State) (error : KiroError) : Flow R State :=
  let state := state.logged attempt lease answers.sending error
  let state := if error.isModelTemporarilyUnavailable then state else state.marked (.error lease)
  let state := state.failed error
  if config.enableModelFallback ∧ state.fallbackModel = none then
    match fallbackOf answers state.actualModel with
    | none => .through state
    | some (fallback, resolved) =>
      if ModelAllowed.modelIsAllowed request.allowedModels "kiro" resolved then do
        let (state, tokens) ← truncated outside request resolved state
        if ContextLimit.checkContextLimit (outside.contextMaximum resolved) tokens then
          sendFallback outside answers attempt lease fallback resolved tokens state
        else .through state
      else .next state
  else .through state

def failure (attempt : Nat) (lease : String) (state : State) (error : KiroError) : Flow R State :=
  if error.isAuth then authFailure answers attempt lease state error
  else if error.isQuota ∧ ¬ error.isThrottle then quotaFailure config answers attempt lease state error
  else if error.isModelCapacityError then capacityFailure outside config request answers attempt lease state error
  else
    let state := state.logged attempt lease answers.sending error
    if error.isRequestRejection then rejected error state
    else if error.isRetriable then .through ((state.marked (.error lease)).failed error)
    else rejected error state

def prepare (lease : String) (state : State) : Flow R State :=
  if ModelAllowed.modelIsAllowed request.allowedModels "kiro" state.actualModel then do
    let state := { state with requestPayload := outside.prepareModelRequest state.requestPayload }
    if request.preflightOnly then
      .done state (.ok (.prepared
        { lease, mappedModel := state.mappedModel, kiroModel := state.actualModel, modelPath := state.modelPath,
          modelMappingRule := state.modelMappingRule, attempts := state.attemptLogs,
          payload := state.requestPayload }))
    else
      let (state, tokens) ← truncated outside request state.actualModel state
      let state := { state with inputTokens := tokens }
      let maximum := outside.contextMaximum state.actualModel
      if ContextLimit.checkContextLimit maximum tokens then
        .through { state with requestPayload := { state.requestPayload with profileArn := answers.leased.profileArn } }
      else .done state (.error (.contextLimit state.actualModel tokens maximum))
  else .done state (.error (.modelNotAllowed "kiro" state.actualModel))

/-- The request is sent; what goes through is a failure after which the next account is tried. -/
def send (attempt : Nat) (lease : String) (state : State) : Flow R State :=
  let state := state.sending lease
  match answers.generate state.requestPayload with
  | .ok response => answered lease answers.sending response state
  | .error error => failure outside config request answers attempt lease state error

def step (attempt : Nat) (state : State) : Flow R Empty := do
  let (state, lease) ← select outside config request answers attempt state
  let state ← prepare outside request answers lease state
  let state ← send outside config request answers attempt lease state
  .next (state.attempted lease)

/-! ### The run -/

/-- What is known before the first attempt; `draws` are those of the rule that is logged until one is chosen. -/
def start (draws : MappingDraws) : State :=
  match request.prepared with
  | some selected =>
    { inputTokens := request.inputTokens, actualModel := selected.kiroModel, mappedModel := selected.mappedModel,
      requestPayload := selected.payload, modelMappingRule := selected.modelMappingRule,
      modelPath := selected.modelPath, attemptLogs := selected.attempts, preparedLease := some selected.lease,
      attemptedAccounts := selected.attempts.map (·.accountId) }
  | none =>
    let rule := request.lockedMappingRule <|>
      (mapModelForProvider request.requestedModel config.routing.modelMapping (context request none) "" draws).rule
    { inputTokens := request.inputTokens, actualModel := request.model, mappedModel := request.model,
      requestPayload := request.payload, modelMappingRule := rule,
      modelPath := buildModelPath request.requestedModel request.model "", attemptLogs := [], preparedLease := none,
      attemptedAccounts := [] }

def exhaustedError (state : State) : ExecuteError :=
  let resolutionFailed := state.lastError.isNone ∧ state.attemptLogs ≠ [] ∧
    state.attemptLogs.all (·.endpoint = "model-resolution")
  let available := (state.attemptLogs.flatMap (·.availableModels)).dedup.length
  state.dispatchError <| state.lastError.getD
    { status := none
      endpoint := if resolutionFailed then "model-resolution" else "none"
      message :=
        if resolutionFailed then
          s!"no selected account can serve resolved model '{outside.logModel state.actualModel}' ({available} distinct " ++
            "models are available); inspect routing with 'kproxy models resolve <model-id>'"
        else "all upstream attempts failed" }

def loop (answers : Nat → Answers R) : Nat → Nat → State → State × Result R
  | 0, _, state => (state, .error (exhaustedError outside state))
  | left + 1, attempt, state =>
    match step outside config request (answers attempt) attempt state with
    | .through never => never.elim
    | .next state => loop answers left (attempt + 1) state
    | .leave state => (state, .error (exhaustedError outside state))
    | .done state result => (state, result)

def attempts : Nat := retryAttemptCount config.maxRetries (request.accountIds.length % 2 ^ 32)

/-- The attempts of a preflight count. -/
def dispatchUpstream (draws : MappingDraws) (answers : Nat → Answers R) : State × Result R :=
  let state := start config request draws
  let preflightAttempts := state.attemptLogs.length
  loop outside config request answers (attempts config request - preflightAttempts) preflightAttempts state

end KiroProxy.Dispatch

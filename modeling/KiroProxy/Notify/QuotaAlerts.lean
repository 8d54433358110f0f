import KiroProxy.Lib.Run
import KiroProxy.Notify.Incident
import KiroProxy.Pool.Account

/-! The alerts about the credits of an account: what is seen of them, and how a recovery is confirmed. -/
namespace KiroProxy.Alerts

open Notify (WebhookEventKind)
open Pool (Usage Account PoolConfig AccountCreditState effectiveCreditLimit accountCreditState)
open KiroProxy.Run (run)

def recoveryConfirmations : Nat := 2

inductive CreditObservation where
  | unknown
  | known (state : AccountCreditState) (usage : Option Usage) (generation : Option Nat)

structure AuthoritativeUsageObservation where
  usage : Usage
  generation : Nat
  deriving DecidableEq

structure PendingCreditObservation where
  generation : Nat
  state : AccountCreditState
  consecutive : Nat
  deriving DecidableEq

structure Recording where
  accountId : String
  observation : AuthoritativeUsageObservation
  deriving DecidableEq

/-- An account of the pool, and whether its health is `Exhausted`. -/
structure Runtime where
  account : Account
  upstreamExhausted : Bool := false
  deriving DecidableEq

structure AppState where
  pool : String → Option Runtime := fun _ => none
  config : PoolConfig := {}
  authoritativeUsageGeneration : Nat := 0
  recordings : List Recording := []
  authoritativeUsage : String → Option AuthoritativeUsageObservation := fun _ => none
  pendingCreditObservations : String → Option PendingCreditObservation := fun _ => none

inductive Notification where
  | resolveIncident (kind : WebhookEventKind) (accountId : String)
  | emit (kind : WebhookEventKind) (accountId : String)
  deriving DecidableEq

namespace AppState

/-! ### Observations -/

/-- `record_authoritative_usage` takes a generation first … -/
def takeGeneration (state : AppState) (accountId : String) (usage : Usage) : AppState :=
  let generation := state.authoritativeUsageGeneration + 1
  { state with
    authoritativeUsageGeneration := generation
    recordings := ⟨accountId, ⟨usage, generation⟩⟩ :: state.recordings }

/-- … and puts the observation into the map afterwards; another call may come between. -/
def insertObservation (state : AppState) (recording : Recording) : AppState :=
  if recording ∈ state.recordings then { state with
    recordings := state.recordings.erase recording
    authoritativeUsage := Function.update state.authoritativeUsage recording.accountId (some recording.observation) }
  else state

def clearCreditTransition (state : AppState) (accountId : String) : AppState :=
  { state with pendingCreditObservations := Function.update state.pendingCreditObservations accountId none }

end AppState

/-- What a sighting makes of the entry there is; a generation that is in it already does not count twice. -/
def PendingCreditObservation.observe (generation : Nat) (state : AccountCreditState) :
    Option PendingCreditObservation → PendingCreditObservation
  | none => ⟨generation, state, 1⟩
  | some observation =>
    if observation.generation = generation then observation
    else ⟨generation, state, if observation.state = state then min (observation.consecutive + 1) 255 else 1⟩

namespace AppState

def observeCreditTransition (state : AppState) (accountId : String) (generation : Nat) (observed : AccountCreditState) :
    AppState × Nat :=
  let observation := PendingCreditObservation.observe generation observed (state.pendingCreditObservations accountId)
  ({ state with
      pendingCreditObservations := Function.update state.pendingCreditObservations accountId (some observation) },
    observation.consecutive)

def transitionConfirmed (state : AppState) (accountId : String) (generation : Option Nat)
    (observed : AccountCreditState) : AppState × Bool :=
  match generation with
  | none => (state, false)
  | some generation =>
    let (state, consecutive) := state.observeCreditTransition accountId generation observed
    (state, recoveryConfirmations ≤ consecutive)

def reachesLimit (config : PoolConfig) (observation : AuthoritativeUsageObservation) : Bool :=
  let limit := effectiveCreditLimit observation.usage config
  limit > 0 ∧ observation.usage.current ≥ limit

def authoritativeCreditObservation (state : AppState) (account : Account) (config : PoolConfig)
    (upstreamExhausted : Bool) : CreditObservation :=
  let authoritative := state.authoritativeUsage account.id
  if upstreamExhausted || account.creditExhausted && !config.enableOverage then
    .known .exhausted ((authoritative.filter (reachesLimit config)).map (·.usage)) (authoritative.map (·.generation))
  else match authoritative with
  | none => .unknown
  | some authoritative =>
    .known (accountCreditState { account with usage := some authoritative.usage, creditExhausted := false } config)
      (some authoritative.usage) (some authoritative.generation)

/-! ### Reconciliation -/

def resolveAccountCreditIncidents (accountId : String) : List Notification :=
  [.resolveIncident .accountCreditProtected accountId, .resolveIncident .accountQuotaExhausted accountId]

/-- Ends in the state without a pending observation, once there is nothing to confirm any more. -/
def confirmThen (state : AppState) (accountId : String) (generation : Option Nat) (observed : AccountCreditState)
    (mustConfirm : Bool) (notifications : List Notification) : AppState × List Notification :=
  if mustConfirm then
    let (state, confirmed) := state.transitionConfirmed accountId generation observed
    if confirmed then (state.clearCreditTransition accountId, notifications) else (state, [])
  else (state.clearCreditTransition accountId, notifications)

def syncAccountCreditIncident (state : AppState) (account : Account) (config : PoolConfig) (upstreamExhausted : Bool)
    (incidentActive : WebhookEventKind → Bool) : AppState × List Notification :=
  if !account.enabled then (state.clearCreditTransition account.id, resolveAccountCreditIncidents account.id)
  else
    let exhaustedActive := incidentActive .accountQuotaExhausted
    let protectedActive := incidentActive .accountCreditProtected
    match state.authoritativeCreditObservation account config upstreamExhausted with
    | .unknown => (state, [])
    | .known .available _ generation =>
      state.confirmThen account.id generation .available (exhaustedActive || protectedActive)
        (resolveAccountCreditIncidents account.id)
    | .known .guarded (some _) generation =>
      state.confirmThen account.id generation .guarded exhaustedActive
        [.resolveIncident .accountQuotaExhausted account.id, .emit .accountCreditProtected account.id]
    | .known .guarded none _ => (state, [])
    | .known .exhausted _ _ =>
      (state.clearCreditTransition account.id,
        [.resolveIncident .accountCreditProtected account.id, .emit .accountQuotaExhausted account.id])

def syncAccountQuota (state : AppState) (accountId : String) (incidentActive : WebhookEventKind → Bool) :
    AppState × List Notification :=
  match state.pool accountId with
  | none => (state, resolveAccountCreditIncidents accountId)
  | some runtime =>
    state.syncAccountCreditIncident runtime.account state.config runtime.upstreamExhausted incidentActive

end AppState

/-! ### Runs -/

/-- What the notifier says about the incidents of an account comes with the reconciliation. -/
inductive Action where
  | takeGeneration (accountId : String) (usage : Usage)
  | insertObservation (recording : Recording)
  | changeConfig (config : PoolConfig)
  | putAccount (runtime : Runtime)
  | removeAccount (accountId : String)
  | sync (accountId : String) (incidentActive : WebhookEventKind → Bool)

def step (state : AppState) : Action → AppState
  | .takeGeneration accountId usage => state.takeGeneration accountId usage
  | .insertObservation recording => state.insertObservation recording
  | .changeConfig config => { state with config := config }
  | .putAccount runtime => { state with pool := Function.update state.pool runtime.account.id (some runtime) }
  | .removeAccount accountId => { state with pool := Function.update state.pool accountId none }
  | .sync accountId incidentActive => (state.syncAccountQuota accountId incidentActive).1

end KiroProxy.Alerts

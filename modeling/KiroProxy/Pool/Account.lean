import Mathlib.Algebra.Order.Ring.Rat

/-! One account of the pool: its credit gate, its health, and the operations on both, cut at
the atomic accesses. Credits are rationals, instants are milliseconds. -/
namespace KiroProxy.Pool

inductive AuthMethod where
  | idc | social | apiKey
  deriving DecidableEq, Repr

inductive SubscriptionKind where
  | free | pro | proPlus | power | enterprise | teams | unknown
  deriving DecidableEq, Repr

structure Usage where
  current : Rat
  limit : Rat
  overageCap : Option Rat
  percentUsed : Rat
  updatedAt : Nat
  deriving DecidableEq, Repr

structure Account where
  id : String
  enabled : Bool
  authMethod : AuthMethod
  usage : Option Usage
  subscription : Option SubscriptionKind
  creditExhausted : Bool
  deriving DecidableEq, Repr

structure CooldownConfig where
  maxErrorCount : Nat := 3
  cooldownMs : Nat := 30000
  errorCooldownMs : Nat := 5000
  quotaErrorWindowMs : Nat := 300000
  quotaErrorThreshold : Nat := 50
  deriving DecidableEq, Repr

structure PoolConfig where
  maxConcurrentPerAccount : Nat := 50
  maxQueueSize : Nat := 10
  maxQueueWaitMs : Nat := 30000
  queueFullWaitMs : Nat := 5000
  lowCreditMinRemaining : Rat := 4
  enableOverage : Bool := false
  maxOverageCreditsPerAccount : Option Rat := none
  cooldown : CooldownConfig := {}
  deriving DecidableEq, Repr

/-! ### Credits -/

inductive AccountCreditState where
  | available | guarded | exhausted
  deriving DecidableEq, Repr

def Usage.limitWithoutOverage (usage : Usage) : Rat := max (usage.limit - usage.overageCap.getD 0) 0

def effectiveCreditLimit (usage : Usage) (config : PoolConfig) : Rat :=
  if !config.enableOverage then usage.limitWithoutOverage
  else match usage.overageCap, config.maxOverageCreditsPerAccount with
  | some upstreamCap, some localCap => usage.limitWithoutOverage + min upstreamCap localCap
  | _, _ => usage.limit

def usageCreditExhausted (usage : Usage) (config : PoolConfig) : Bool :=
  let limit := effectiveCreditLimit usage config
  (0 < limit ∧ limit ≤ usage.current) ∨ (limit ≤ 0 ∧ usage.overageCap.isSome)

def accountCreditState (account : Account) (config : PoolConfig) : AccountCreditState :=
  if config.enableOverage then
    if config.maxOverageCreditsPerAccount.isSome ∧
        account.usage.any (usageCreditExhausted · config) then .exhausted
    else .available
  else if account.creditExhausted then .exhausted
  else match account.usage with
  | none => .available
  | some usage =>
    let limit := usage.limitWithoutOverage
    if limit ≤ 0 ∧ usage.overageCap.isSome then .exhausted
    else if limit ≤ 0 then .available
    else
      let remaining := max (limit - usage.current) 0
      if remaining ≤ 0 then .exhausted
      else if 0 < config.lowCreditMinRemaining ∧ remaining ≤ config.lowCreditMinRemaining then .guarded
      else .available

structure Catalog where
  canResolveDynamicModel : String → List String → Bool
  staticSubscriptionCanServe : Option SubscriptionKind → String → Bool

def canServeSubscription (catalog : Catalog) (account : Account) (model : String) : Bool :=
  account.authMethod = .apiKey || catalog.staticSubscriptionCanServe account.subscription model

/-! ### The shared state of an account -/

inductive AccountHealth where
  | available | cooling | exhausted | banned | refreshing
  deriving DecidableEq, Repr

structure AccountState where
  account : Account
  active : Nat := 0
  health : AccountHealth := .available
  consecutiveErrors : Nat := 0
  coolingUntil : Option Nat := none
  quotaErrors : List Nat := []
  supportedModels : Option (List String) := none
  deriving DecidableEq, Repr

namespace AccountState

def new (account : Account) : AccountState := { account := account }

/-- `fetch_update`: the slot is taken only below the maximum; zero stands for no maximum. -/
def tryAcquireSlot (state : AccountState) (maximum : Nat) : Option AccountState :=
  let maximum := if maximum = 0 then 2 ^ 64 - 1 else maximum
  if state.active < maximum then some { state with active := state.active + 1 } else none

/-- `fetch_sub` wraps around below zero. -/
def releaseSlot (state : AccountState) : AccountState :=
  { state with active := if state.active = 0 then 2 ^ 64 - 1 else state.active - 1 }

/-- `settle_credits` of a lease. -/
def settleCredits (state : AccountState) (actual : Rat) (nowSecs : Nat) : AccountState :=
  if actual ≤ 0 then state
  else match state.account.usage with
  | none => state
  | some usage =>
    let optimistic := usage.current + actual
    let current := if 0 < usage.limit then min optimistic usage.limit else optimistic
    let percent := if 0 < usage.limit then max 0 (min (current / usage.limit * 100) 100) else 0
    let usage := { usage with current := current, percentUsed := percent, updatedAt := nowSecs }
    { state with account := { state.account with usage := some usage } }

end AccountState

/-! ### `eligible`, access by access -/

inductive Check where
  | fresh | cooling | expired | gate | account
  deriving DecidableEq, Repr

def Check.step (catalog : Catalog) (config : PoolConfig) (now : Nat) (model : String) (state : AccountState) :
    Check → AccountState × (Check ⊕ Bool)
  | .fresh => (state, .inl (if state.health = .cooling then .cooling else .gate))
  | .cooling => (state, .inl (if state.coolingUntil.any (· ≤ now) then .expired else .gate))
  | .expired => ({ state with health := .available }, .inl .gate)
  | .gate => (state, if state.health = .available then .inl .account else .inr false)
  | .account =>
    (state, .inr (
      if !state.account.enabled then false
      else if accountCreditState state.account config ≠ .available then false
      else if model = "" then true
      else match state.supportedModels with
        | some models => catalog.canResolveDynamicModel model models
        | none => canServeSubscription catalog state.account model))

/-! ### The reports, access by access -/

inductive Report where
  | success | successCheck | successRecover
  | error | errorCount (count : Nat)
  | quota | quotaPush (now : Nat) (config : PoolConfig) | exhaust | markExhausted
  | cool (duration : Nat) | coolNow (duration : Nat) | coolUntil (instant : Nat)
  | ban
  | resetHealth | resetErrors | resetCooling | resetQuota | resetCredit
  deriving DecidableEq, Repr

def pruneQuotaErrors (now window : Nat) (errors : List Nat) : List Nat :=
  errors.dropWhile fun time => window < now - time

def Report.step (config : PoolConfig) (now : Nat) (state : AccountState) : Report → AccountState × Option Report
  | .success => ({ state with consecutiveErrors := 0 }, some .successCheck)
  | .successCheck => (state, if state.health = .cooling then some .successRecover else none)
  | .successRecover => ({ state with health := .available }, none)
  | .error =>
    let count := (state.consecutiveErrors + 1) % 2 ^ 32
    ({ state with consecutiveErrors := count }, some (.errorCount count))
  | .errorCount count =>
    (state, some (.cool (if config.cooldown.maxErrorCount ≤ count then config.cooldown.cooldownMs
      else config.cooldown.errorCooldownMs)))
  | .quota => (state, some (.quotaPush now config))
  | .quotaPush now config =>
    let errors := pruneQuotaErrors now config.cooldown.quotaErrorWindowMs state.quotaErrors ++ [now]
    ({ state with quotaErrors := errors },
      some (if config.cooldown.quotaErrorThreshold ≤ errors.length % 2 ^ 32 then .exhaust
        else .cool config.cooldown.errorCooldownMs))
  | .exhaust => ({ state with health := .exhausted }, some .markExhausted)
  | .markExhausted => ({ state with account := { state.account with creditExhausted := true } }, none)
  | .cool duration => ({ state with health := .cooling }, some (.coolNow duration))
  | .coolNow duration => (state, some (.coolUntil (now + duration)))
  | .coolUntil instant => ({ state with coolingUntil := some instant }, none)
  | .ban => ({ state with health := .banned }, none)
  | .resetHealth => ({ state with health := .available }, some .resetErrors)
  | .resetErrors => ({ state with consecutiveErrors := 0 }, some .resetCooling)
  | .resetCooling => ({ state with coolingUntil := none }, some .resetQuota)
  | .resetQuota => ({ state with quotaErrors := [] }, some .resetCredit)
  | .resetCredit => ({ state with account := { state.account with creditExhausted := false } }, none)

end KiroProxy.Pool

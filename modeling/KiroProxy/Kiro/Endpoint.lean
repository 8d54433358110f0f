import KiroProxy.Lib.Table
import KiroProxy.Lib.Text
import KiroProxy.Pool.Account

/-! The order in which endpoints are tried for an account, and the cache of the ones that
served or rejected it. Instants are milliseconds, hash maps are tables. -/
namespace KiroProxy.Kiro

inductive EndpointKey where
  | codewhisperer | amazonq | runtime
  deriving DecidableEq, Repr

inductive EndpointPurpose where
  | generation | models
  deriving DecidableEq, Repr

structure Account where
  id : String
  authMethod : Pool.AuthMethod
  region : String
  profileArn : Option String := none
  deriving DecidableEq, Repr

structure KiroError where
  status : Option Nat
  endpoint : String
  message : String
  deriving DecidableEq, Repr

/-! ### Errors -/

def containsStatus (text : String) (status : Nat) : Bool :=
  (text.toList.splitOnP (fun c => !c.isAlphanum)).contains (toString status).toList

def textIsQuotaError (message : String) : Bool :=
  let text := Text.toAsciiLowercase message
  ["quota", "credit exhausted", "credits exhausted", "insufficient credit", "usage limit"].any
    (Text.contains text) || containsStatus text 402

def textIsThrottleError (message : String) : Bool :=
  let text := Text.toAsciiLowercase message
  ["throttl", "too many requests", "rate limit", "rate exceeded"].any (Text.contains text) ||
    containsStatus text 429

def textIsAuthError (message : String) : Bool :=
  let text := Text.toAsciiLowercase message
  ["unauthorized", "unauthenticated", "invalid token", "expired token", "token expired", "access denied",
    "authentication"].any (Text.contains text) || containsStatus text 401 || containsStatus text 403

def textIsModelTemporarilyUnavailable (message : String) : Bool :=
  ["model_temporarily_unavailable", "model temporarily unavailable", "unexpectedly high load"].any
    (Text.contains (Text.toAsciiLowercase message))

def textIsContextTooLong (message : String) : Bool :=
  ["prompt is too long", "context length exceeded", "input is too long", "maximum context"].any
    (Text.contains (Text.toAsciiLowercase message))

def textIsRequestRejection (message : String) : Bool :=
  let text := Text.toAsciiLowercase message
  textIsContextTooLong text ||
    ["too many tools", "tool definitions are too large", "tool schema", "payload too large", "request too large",
      "request entity too large", "validationexception"].any (Text.contains text) ||
    containsStatus text 413 || containsStatus text 422

def isServerFailure (status : Option Nat) : Bool := status.any fun status => 500 ≤ status ∧ status ≤ 599

def KiroError.isAuth (error : KiroError) : Bool :=
  error.status = some 401 ∨ error.status = some 403 ∨ textIsAuthError error.message

def KiroError.isQuota (error : KiroError) : Bool := error.status = some 402 ∨ textIsQuotaError error.message

def KiroError.isThrottle (error : KiroError) : Bool :=
  error.status = some 429 ∨ textIsThrottleError error.message

def KiroError.isModelTemporarilyUnavailable (error : KiroError) : Bool :=
  (error.status.isNone || isServerFailure error.status) && textIsModelTemporarilyUnavailable error.message

def KiroError.isModelCapacityError (error : KiroError) : Bool :=
  error.isThrottle || error.isModelTemporarilyUnavailable

def KiroError.isRetriable (error : KiroError) : Bool :=
  error.status.isNone || error.isThrottle || isServerFailure error.status

def KiroError.isRequestRejection (error : KiroError) : Bool :=
  error.status = some 400 ∨ error.status = some 413 ∨ error.status = some 422 ∨ textIsRequestRejection error.message

/-! ### Regions -/

def isRegion (text : String) : Bool := text ≠ "" ∧ text.toList.all fun c => c.isAlphanum || c = '-'

def invalidRegion : KiroError := ⟨some 400, "region", "account has an invalid API region"⟩

def profileRegion (arn : String) : Option String :=
  match (arn.toList.splitOn ':').map String.ofList with
  | first :: partition :: service :: region :: _ :: _ :: _ =>
    if first = "arn" ∧ (partition = "aws" ∨ partition = "aws-us-gov") ∧ service = "codewhisperer" then
      some region
    else none
  | _ => none

def accountApiRegion (account : Account) : Except KiroError String :=
  let credentialRegion := Text.trim account.region
  if !isRegion credentialRegion then .error invalidRegion
  else
    -- A GovCloud account is never routed by an ARN, nor is an API key.
    let region :=
      if Text.startsWith credentialRegion "us-gov-" ∨ account.authMethod = .apiKey then credentialRegion
      else (account.profileArn.bind profileRegion).getD
        (if Text.startsWith credentialRegion "eu-" then "eu-central-1" else "us-east-1")
    if isRegion region then .ok region else .error invalidRegion

/-! ### The cache -/

def maxEndpointCacheSize : Nat := 500

abbrev PurposeKey := String × EndpointPurpose

structure EndpointCacheState where
  preferred : Table PurposeKey EndpointKey := ∅
  preferredOrder : List PurposeKey := []
  disabled : Table PurposeKey (Table EndpointKey Nat) := ∅
  disabledOrder : List PurposeKey := []
  revisions : Table String Nat := ∅
  revisionOrder : List String := []
  deriving DecidableEq

namespace EndpointCacheState

variable (state : EndpointCacheState)

def evictOldestPreferredIfFull : EndpointCacheState :=
  if state.preferred.size < maxEndpointCacheSize then state
  else match state.preferredOrder with
  | [] => state
  | oldest :: rest => { state with preferred := state.preferred.erase oldest, preferredOrder := rest }

def evictOldestDisabledIfFull : EndpointCacheState :=
  if state.disabled.size < maxEndpointCacheSize then state
  else match state.disabledOrder with
  | [] => state
  | oldest :: rest => { state with disabled := state.disabled.erase oldest, disabledOrder := rest }

def evictOldestRevisionIfFull : EndpointCacheState :=
  if state.revisions.size < maxEndpointCacheSize then state
  else match state.revisionOrder with
  | [] => state
  | oldest :: rest => { state with revisions := state.revisions.erase oldest, revisionOrder := rest }

def clearEndpointFailure (cacheKey : PurposeKey) (endpoint : EndpointKey) : EndpointCacheState :=
  match state.disabled.get? cacheKey with
  | none => state
  | some failures =>
    let left := failures.erase endpoint
    if left.size = 0 then
      { state with
        disabled := state.disabled.erase cacheKey
        disabledOrder := state.disabledOrder.filter (· ≠ cacheKey) }
    else { state with disabled := state.disabled.insert cacheKey left }

def disabledUntil (cacheKey : PurposeKey) (endpoint : EndpointKey) : Option Nat :=
  (state.disabled.get? cacheKey).bind (·.get? endpoint)

/-- An entry that has run out is removed by the look at it. -/
def isDisabled (now : Nat) (cacheKey : PurposeKey) (endpoint : EndpointKey) : EndpointCacheState × Bool :=
  match state.disabledUntil cacheKey endpoint with
  | none => (state, false)
  | some until_ =>
    if now < until_ then (state, true) else (state.clearEndpointFailure cacheKey endpoint, false)

def endpointForAuth : Pool.AuthMethod → EndpointKey
  | .idc => .amazonq
  | .social => .codewhisperer
  | .apiKey => .runtime

def other : EndpointKey → EndpointKey
  | .codewhisperer => .amazonq
  | .amazonq => .codewhisperer
  | .runtime => .amazonq

def pushEnabled (now : Nat) (cacheKey : PurposeKey) (found : EndpointCacheState × List EndpointKey)
    (candidate : EndpointKey) : EndpointCacheState × List EndpointKey :=
  if found.2.contains candidate then found
  else
    let (state, disabled) := found.1.isDisabled now cacheKey candidate
    (state, if disabled then found.2 else found.2 ++ [candidate])

def order (now : Nat) (account : Account) (explicit : Option EndpointKey) (purpose : EndpointPurpose) :
    EndpointCacheState × List EndpointKey :=
  let inferred := endpointForAuth account.authMethod
  let cacheKey := (account.id, purpose)
  if account.authMethod = .apiKey ∨ (accountApiRegion account).toOption.any (Text.startsWith · "us-gov-") then
    pushEnabled now cacheKey (state, []) .runtime
  else
    let cached := if explicit.isNone then state.preferred.get? cacheKey else none
    [explicit, cached, some inferred, some (other inferred)].reduceOption.foldl (pushEnabled now cacheKey) (state, [])

def markSuccess (accountId : String) (purpose : EndpointPurpose) (endpoint : EndpointKey) : EndpointCacheState :=
  let cacheKey := (accountId, purpose)
  let state := state.clearEndpointFailure cacheKey endpoint
  let state := if (state.preferred.get? cacheKey).isNone then state.evictOldestPreferredIfFull else state
  { state with
    preferred := state.preferred.insert cacheKey endpoint
    preferredOrder := state.preferredOrder.filter (· ≠ cacheKey) ++ [cacheKey] }

def markDisabled (ttl now : Nat) (accountId : String) (purpose : EndpointPurpose) (endpoint : EndpointKey) :
    EndpointCacheState :=
  let cacheKey := (accountId, purpose)
  let state := if (state.disabled.get? cacheKey).isNone then state.evictOldestDisabledIfFull else state
  let failures := (state.disabled.get? cacheKey).getD ∅
  let state := { state with
    disabled := state.disabled.insert cacheKey (failures.insert endpoint (now + ttl))
    disabledOrder := state.disabledOrder.filter (· ≠ cacheKey) ++ [cacheKey] }
  if state.preferred.get? cacheKey = some endpoint then
    { state with
      preferred := state.preferred.erase cacheKey
      preferredOrder := state.preferredOrder.filter (· ≠ cacheKey) }
  else state

def revision (accountId : String) : Nat := (state.revisions.get? accountId).getD 0

def markSuccessIfRevision (accountId : String) (purpose : EndpointPurpose) (endpoint : EndpointKey)
    (expectedRevision : Nat) : EndpointCacheState :=
  if state.revision accountId ≠ expectedRevision then state else state.markSuccess accountId purpose endpoint

def markDisabledIfRevision (ttl now : Nat) (accountId : String) (purpose : EndpointPurpose) (endpoint : EndpointKey)
    (expectedRevision : Nat) : EndpointCacheState :=
  if state.revision accountId ≠ expectedRevision then state
  else state.markDisabled ttl now accountId purpose endpoint

/-- A revision that has been evicted starts again at zero, and so at one here. -/
def bumpRevision (accountId : String) : EndpointCacheState :=
  let state :=
    if (state.revisions.get? accountId).isSome then state
    else
      let state := state.evictOldestRevisionIfFull
      { state with revisionOrder := state.revisionOrder ++ [accountId] }
  { state with revisions := state.revisions.insert accountId ((state.revision accountId + 1) % 2 ^ 64) }

def removeFailures (accountId : String) : EndpointCacheState :=
  { state with
    disabled := state.disabled.retain (·.1 ≠ accountId)
    disabledOrder := state.disabledOrder.filter (·.1 ≠ accountId) }

def clearFailures (accountId : String) : EndpointCacheState :=
  (state.bumpRevision accountId).removeFailures accountId

def clearAccount (accountId : String) : EndpointCacheState :=
  let state := state.bumpRevision accountId
  { state with
    preferred := state.preferred.retain (·.1 ≠ accountId)
    preferredOrder := state.preferredOrder.filter (·.1 ≠ accountId) }.removeFailures accountId

/-! ### What each operation leaves disabled -/

/-- Nothing is disabled in the first cache that is not disabled in the second as long. -/
def Within (first second : EndpointCacheState) : Prop :=
  ∀ cacheKey endpoint until_, first.disabledUntil cacheKey endpoint = some until_ →
    second.disabledUntil cacheKey endpoint = some until_

section Disabled

variable {state : EndpointCacheState} {cacheKey key : PurposeKey} {endpoint failed : EndpointKey} {until_ : Nat}

theorem Within.refl (state : EndpointCacheState) : Within state state := fun _ _ _ here => here

theorem Within.trans {first second third : EndpointCacheState} (one : Within first second)
    (two : Within second third) : Within first third :=
  fun _ _ _ here => two _ _ _ (one _ _ _ here)

theorem evictOldestDisabled_within (state : EndpointCacheState) : Within state.evictOldestDisabledIfFull state := by
  intro key endpoint until_ here
  unfold evictOldestDisabledIfFull at here
  split at here
  · exact here
  · split at here
    · exact here
    · simp only [disabledUntil, Table.get?_erase] at here
      split at here
      · simp at here
      · exact here

theorem clearEndpointFailure_within (state : EndpointCacheState) (cacheKey : PurposeKey) (failed : EndpointKey) :
    Within (state.clearEndpointFailure cacheKey failed) state := by
  intro key endpoint until_ here
  unfold clearEndpointFailure at here
  split at here
  · exact here
  case h_2 failures found =>
    dsimp only at here
    by_cases same : key = cacheKey
    · subst same
      split at here
      · simp [disabledUntil] at here
      · simp only [disabledUntil, Table.get?_insert, if_pos, Option.bind_some, Table.get?_erase] at here
        split at here
        · cases here
        · rw [disabledUntil, found]
          exact here
    · split at here <;> simpa [disabledUntil, same] using here

theorem isDisabled_within (state : EndpointCacheState) (now : Nat) (cacheKey : PurposeKey)
    (endpoint : EndpointKey) : Within (state.isDisabled now cacheKey endpoint).1 state := by
  unfold isDisabled
  split
  · exact .refl state
  · split
    · exact .refl state
    · exact clearEndpointFailure_within state cacheKey endpoint

theorem foldl_pushEnabled_within (now : Nat) (cacheKey : PurposeKey) (candidates : List EndpointKey)
    (found : EndpointCacheState × List EndpointKey) :
    Within (candidates.foldl (pushEnabled now cacheKey) found).1 found.1 := by
  induction candidates generalizing found with
  | nil => exact .refl found.1
  | cons candidate rest ih =>
    refine (ih _).trans ?_
    unfold pushEnabled
    split
    · exact .refl found.1
    · exact isDisabled_within found.1 now cacheKey candidate

theorem order_within (state : EndpointCacheState) (now : Nat) (account : Account) (explicit : Option EndpointKey)
    (purpose : EndpointPurpose) : Within (state.order now account explicit purpose).1 state := by
  unfold order
  split
  · exact foldl_pushEnabled_within now _ [.runtime] (state, [])
  · exact foldl_pushEnabled_within now _ _ (state, [])

theorem markSuccess_within (state : EndpointCacheState) (accountId : String) (purpose : EndpointPurpose)
    (endpoint : EndpointKey) : Within (state.markSuccess accountId purpose endpoint) state := by
  refine Within.trans ?_ (clearEndpointFailure_within state (accountId, purpose) endpoint)
  intro key failed until_ here
  unfold markSuccess evictOldestPreferredIfFull at here
  dsimp only at here
  split at here
  · split at here
    · exact here
    · split at here <;> exact here
  · exact here

variable {accountId : String}

theorem markDisabled_cases {ttl now : Nat} {purpose : EndpointPurpose}
    (here : (state.markDisabled ttl now accountId purpose failed).disabledUntil key endpoint = some until_) :
    key = (accountId, purpose) ∧ endpoint = failed ∨ state.disabledUntil key endpoint = some until_ := by
  have within : ∀ base : EndpointCacheState, Within base state →
      ((base.disabled.insert (accountId, purpose)
        (((base.disabled.get? (accountId, purpose)).getD ∅).insert failed (now + ttl))).get? key).bind
          (·.get? endpoint) = some until_ →
      key = (accountId, purpose) ∧ endpoint = failed ∨ state.disabledUntil key endpoint = some until_ := by
    intro base within found
    rw [Table.get?_insert] at found
    by_cases same : key = (accountId, purpose)
    · rw [if_pos same, Option.bind_some, Table.get?_insert] at found
      by_cases marked : endpoint = failed
      · exact .inl ⟨same, marked⟩
      · rw [if_neg marked] at found
        refine .inr (within key endpoint until_ ?_)
        rw [disabledUntil, same]
        cases failures : base.disabled.get? (accountId, purpose) with
        | none => simp [failures] at found
        | some table => simpa [failures] using found
    · rw [if_neg same] at found
      exact .inr (within key endpoint until_ found)
  unfold markDisabled at here
  dsimp only at here
  split at here <;> split at here
  all_goals first
    | exact within _ (evictOldestDisabled_within state) here
    | exact within _ (.refl state) here

theorem removeFailures_cases (here : (state.removeFailures accountId).disabledUntil key endpoint = some until_) :
    key.1 ≠ accountId ∧ state.disabledUntil key endpoint = some until_ := by
  simp only [removeFailures, disabledUntil, Table.get?_retain] at here
  split at here
  case isTrue kept => exact ⟨by simpa using kept, here⟩
  case isFalse => simp at here

@[simp] theorem bumpRevision_disabledUntil (accountId : String) :
    (state.bumpRevision accountId).disabledUntil key endpoint = state.disabledUntil key endpoint := by
  unfold bumpRevision evictOldestRevisionIfFull
  dsimp only
  split
  · rfl
  · split
    · rfl
    · split <;> rfl

theorem clearFailures_cases (here : (state.clearFailures accountId).disabledUntil key endpoint = some until_) :
    key.1 ≠ accountId ∧ state.disabledUntil key endpoint = some until_ := by
  obtain ⟨other, found⟩ := removeFailures_cases here
  exact ⟨other, by simpa using found⟩

theorem clearAccount_cases (here : (state.clearAccount accountId).disabledUntil key endpoint = some until_) :
    key.1 ≠ accountId ∧ state.disabledUntil key endpoint = some until_ := by
  obtain ⟨other, found⟩ := removeFailures_cases here
  refine ⟨other, ?_⟩
  rwa [← bumpRevision_disabledUntil accountId]

end Disabled

end EndpointCacheState
end KiroProxy.Kiro

import KiroProxy.Kiro.Endpoint
import KiroProxy.Lib.Run

/-! Attempts that report to the endpoint cache while the credentials of their accounts
change. A model listing reports against the revision it read first; a generation does not. -/
namespace KiroProxy.Kiro

open Run

/-! ### Attempts -/

structure Progress where
  attemptCount : Nat := 0
  authRejections : Nat := 0
  forbiddenRejections : Nat := 0
  lastError : Option KiroError := none
  deriving DecidableEq

inductive Stage where
  | revised (revision : Nat)
  | sending (revision : Nat) (left : List EndpointKey) (progress : Progress)
  | done (result : Except KiroError Unit)
  deriving DecidableEq

/-- An attempt knows how often its account had been cleared when it started; no step reads it. -/
structure Attempt where
  account : Account
  purpose : EndpointPurpose
  since : Nat
  stage : Stage
  deriving DecidableEq

inductive Reply where
  | success (filled : Bool)
  | failed (error : KiroError)
  deriving DecidableEq

def EndpointKey.name : EndpointKey → String
  | .codewhisperer => "CodeWhisperer"
  | .amazonq => "AmazonQ"
  | .runtime => "KiroRuntime"

def Reply.forbids : Reply → Bool
  | .success _ => false
  | .failed error => error.status = some 403 ∧ !error.isQuota ∧ !error.isThrottle

namespace Attempt

variable (attempt : Attempt)

def exhausted (progress : Progress) : KiroError :=
  match attempt.purpose with
  | .generation =>
    if progress.authRejections = progress.attemptCount then
      ⟨some 403, "all",
        if attempt.account.authMethod = .apiKey then "Kiro rejected the API key; replace or reissue the key"
        else if progress.forbiddenRejections = progress.attemptCount then
          "All Kiro endpoints returned 403; token refresh required"
        else "All Kiro endpoints returned 401/403; token refresh required"⟩
    else ⟨none, "none", "no usable upstream endpoint"⟩
  | .models => progress.lastError.getD ⟨none, "models", "upstream returned no models"⟩

/-- On to the next endpoint, whose definition needs the region of the account. -/
def proceed (revision : Nat) (left : List EndpointKey) (progress : Progress) : Attempt :=
  { attempt with
    stage :=
      match left with
      | [] => .done (.error (attempt.exhausted progress))
      | _ :: _ =>
        match accountApiRegion attempt.account with
        | .error error => .done (.error error)
        | .ok _ => .sending revision left progress }

def finish (result : Except KiroError Unit) : Attempt := { attempt with stage := .done result }

def ordered (revision : Nat) (order : List EndpointKey) : Attempt :=
  if attempt.purpose = .generation ∧ order = [] then
    attempt.finish (.error ⟨some 403, "all",
      "All Kiro endpoints previously returned 403; token refresh required"⟩)
  else attempt.proceed revision order { attemptCount := order.length }

def answerGeneration (ttl now : Nat) (cache : EndpointCacheState) (key : EndpointKey) (rest : List EndpointKey)
    (progress : Progress) : Reply → EndpointCacheState × Attempt
  | .success _ => (cache.markSuccess attempt.account.id .generation key, attempt.finish (.ok ()))
  | .failed error =>
    let rejected := { progress with authRejections := progress.authRejections + 1 }
    if error.status = some 401 then (cache, attempt.proceed 0 rest rejected)
    else if error.status = some 403 then
      if error.isQuota ∨ error.isThrottle then (cache, attempt.finish (.error { error with status := some 429 }))
      else (cache.markDisabled ttl now attempt.account.id .generation key,
        attempt.proceed 0 rest { rejected with forbiddenRejections := progress.forbiddenRejections + 1 })
    else (cache, attempt.finish (.error error))

def answerModels (ttl now : Nat) (cache : EndpointCacheState) (revision : Nat) (key : EndpointKey)
    (rest : List EndpointKey) (progress : Progress) : Reply → EndpointCacheState × Attempt
  | .success true =>
    (cache.markSuccessIfRevision attempt.account.id .models key revision, attempt.finish (.ok ()))
  | .success false =>
    let error := ⟨none, key.name, "upstream returned an empty model list"⟩
    (cache, attempt.proceed revision rest { progress with lastError := some error })
  | .failed error =>
    let failed := { progress with lastError := some error }
    if error.status = some 401 then (cache, attempt.proceed revision rest failed)
    else if error.status = some 403 then
      if error.isQuota ∨ error.isThrottle then (cache, attempt.finish (.error { error with status := some 429 }))
      else (cache.markDisabledIfRevision ttl now attempt.account.id .models key revision,
        attempt.proceed revision rest failed)
    else (cache, attempt.finish (.error error))

def answer (ttl now : Nat) (cache : EndpointCacheState) (reply : Reply) : EndpointCacheState × Attempt :=
  match attempt.stage with
  | .sending revision (key :: rest) progress =>
    match attempt.purpose with
    | .generation => attempt.answerGeneration ttl now cache key rest progress reply
    | .models => attempt.answerModels ttl now cache revision key rest progress reply
  | _ => (cache, attempt)

end Attempt

/-! ### The client -/

/-- A 403 received for an endpoint, with the age of the credentials it was sent with. -/
structure Rejection where
  accountId : String
  purpose : EndpointPurpose
  endpoint : EndpointKey
  since : Nat
  deriving DecidableEq

structure Client where
  cache : EndpointCacheState := {}
  now : Nat := 0
  attempts : List Attempt := []
  clears : String → Nat := fun _ => 0
  received : List Rejection := []

inductive Action where
  | generate (account : Account) (explicit : Option EndpointKey)
  | fetchModels (account : Account)
  | readOrder (i : Nat) (explicit : Option EndpointKey)
  | answer (i : Nat) (reply : Reply)
  | clearFailures (accountId : String)
  | clearAccount (accountId : String)
  | elapse (duration : Nat)
  deriving DecidableEq

def Attempt.rejection (attempt : Attempt) (reply : Reply) : Option Rejection :=
  match attempt.stage with
  | .sending _ (key :: _) _ =>
    if reply.forbids then some ⟨attempt.account.id, attempt.purpose, key, attempt.since⟩ else none
  | _ => none

def Client.counted (client : Client) (accountId : String) : String → Nat :=
  Function.update client.clears accountId (client.clears accountId + 1)

def Client.readOrder (client : Client) (i : Nat) (explicit : Option EndpointKey) : Client :=
  match client.attempts[i]? with
  | none => client
  | some attempt =>
    match attempt.stage with
    | .revised revision =>
      let (cache, order) := client.cache.order client.now attempt.account explicit .models
      { client with cache := cache, attempts := client.attempts.set i (attempt.ordered revision order) }
    | _ => client

def Client.answer (ttl : Nat) (client : Client) (i : Nat) (reply : Reply) : Client :=
  match client.attempts[i]? with
  | none => client
  | some attempt =>
    let (cache, next) := attempt.answer ttl client.now client.cache reply
    { client with
      cache := cache
      attempts := client.attempts.set i next
      received := (attempt.rejection reply).toList ++ client.received }

def step (ttl : Nat) (client : Client) : Action → Client
  | .generate account explicit =>
    let (cache, order) := client.cache.order client.now account explicit .generation
    let attempt : Attempt := ⟨account, .generation, client.clears account.id, .revised 0⟩
    { client with cache := cache, attempts := client.attempts ++ [attempt.ordered 0 order] }
  | .fetchModels account =>
    let revision := client.cache.revision account.id
    { client with
      attempts := client.attempts ++ [⟨account, .models, client.clears account.id, .revised revision⟩] }
  | .readOrder i explicit => client.readOrder i explicit
  | .answer i reply => client.answer ttl i reply
  | .clearFailures accountId =>
    { client with cache := client.cache.clearFailures accountId, clears := client.counted accountId }
  | .clearAccount accountId =>
    { client with cache := client.cache.clearAccount accountId, clears := client.counted accountId }
  | .elapse duration => { client with now := client.now + duration }

/-! ### Rejections of the current credentials -/

def Client.disables (client : Client) (accountId : String) (purpose : EndpointPurpose) (endpoint : EndpointKey) :
    Bool :=
  (client.cache.disabledUntil (accountId, purpose) endpoint).any (client.now < ·)

/-- Whatever is disabled has answered 403 to an attempt that started after the last clear. -/
def Client.Current (client : Client) : Prop :=
  ∀ accountId purpose endpoint, client.disables accountId purpose endpoint = true →
    ⟨accountId, purpose, endpoint, client.clears accountId⟩ ∈ client.received

def Attempt.revision (attempt : Attempt) : Nat :=
  match attempt.stage with
  | .revised revision | .sending revision _ _ => revision
  | .done _ => 0

/-- No generation reports a 403 once its account has been cleared, and no listing does under
a revision that has come back. -/
def Client.timely (client : Client) : Action → Bool
  | .answer i reply => client.attempts[i]?.all fun attempt =>
      (attempt.rejection reply).isNone ∨ attempt.since = client.clears attempt.account.id ∨
        attempt.purpose = .models ∧ client.cache.revision attempt.account.id ≠ attempt.revision
  | _ => true

section Reports

variable {ttl now : Nat} {cache : EndpointCacheState} {attempt : Attempt} {reply : Reply} {key : PurposeKey}
  {endpoint : EndpointKey} {until_ : Nat}

theorem answer_cases (here : (attempt.answer ttl now cache reply).1.disabledUntil key endpoint = some until_) :
    cache.disabledUntil key endpoint = some until_ ∨
      attempt.rejection reply = some ⟨key.1, key.2, endpoint, attempt.since⟩ ∧ key.1 = attempt.account.id ∧
        (attempt.purpose = .generation ∨ cache.revision attempt.account.id = attempt.revision) := by
  unfold Attempt.answer at here
  split at here
  case h_2 => exact .inl here
  case h_1 revision failed rest progress stage =>
    have marked : key = (attempt.account.id, attempt.purpose) ∧ endpoint = failed → reply.forbids = true →
        attempt.rejection reply = some ⟨key.1, key.2, endpoint, attempt.since⟩ ∧ key.1 = attempt.account.id := by
      rintro ⟨rfl, rfl⟩ forbids
      simp [Attempt.rejection, stage, forbids]
    split at here
    case h_1 purpose =>
      unfold Attempt.answerGeneration at here
      split at here
      · exact .inl (EndpointCacheState.markSuccess_within _ _ _ _ _ _ _ here)
      case h_2 error =>
        dsimp only at here
        split at here
        · exact .inl here
        · split at here
          case isFalse => exact .inl here
          case isTrue status =>
            split at here
            · exact .inl here
            case isFalse plain =>
              refine (EndpointCacheState.markDisabled_cases here).symm.imp_right fun same => ?_
              have found := marked (by rwa [purpose]) (by simpa [Reply.forbids, status] using plain)
              exact ⟨found.1, found.2, .inl purpose⟩
    case h_2 purpose =>
      unfold Attempt.answerModels at here
      split at here
      · unfold EndpointCacheState.markSuccessIfRevision at here
        split at here
        · exact .inl here
        · exact .inl (EndpointCacheState.markSuccess_within _ _ _ _ _ _ _ here)
      · exact .inl here
      case h_3 error =>
        dsimp only at here
        split at here
        · exact .inl here
        · split at here
          case isFalse => exact .inl here
          case isTrue status =>
            split at here
            · exact .inl here
            case isFalse plain =>
              unfold EndpointCacheState.markDisabledIfRevision at here
              split at here
              · exact .inl here
              case isFalse guard =>
                refine (EndpointCacheState.markDisabled_cases here).symm.imp_right fun same => ?_
                have found := marked (by rwa [purpose]) (by simpa [Reply.forbids, status] using plain)
                refine ⟨found.1, found.2, .inr ?_⟩
                rw [Attempt.revision, stage]
                exact not_ne_iff.1 guard

def Client.Grounded (client : Client) : Prop :=
  ∀ key endpoint until_, client.cache.disabledUntil key endpoint = some until_ →
    ⟨key.1, key.2, endpoint, client.clears key.1⟩ ∈ client.received

variable {client : Client}

theorem Client.Grounded.current (grounded : client.Grounded) : client.Current := by
  intro accountId purpose endpoint disables
  obtain ⟨until_, here, -⟩ := (Option.any_eq_true _ _).1 disables
  exact grounded _ _ _ here

theorem grounded_within (grounded : client.Grounded) (within : EndpointCacheState.Within cache client.cache)
    {attempts : List Attempt} :
    Client.Grounded { client with cache := cache, attempts := attempts } :=
  fun key endpoint until_ here => grounded key endpoint until_ (within key endpoint until_ here)

theorem grounded_clear {accountId : String} (grounded : client.Grounded)
    (cleared : ∀ key endpoint until_, cache.disabledUntil key endpoint = some until_ →
      key.1 ≠ accountId ∧ client.cache.disabledUntil key endpoint = some until_) :
    Client.Grounded { client with cache := cache, clears := client.counted accountId } := by
  intro key endpoint until_ here
  obtain ⟨other, before⟩ := cleared key endpoint until_ here
  have same : client.counted accountId key.1 = client.clears key.1 := Function.update_of_ne other _ _
  simp only [same]
  exact grounded key endpoint until_ before

theorem grounded_readOrder (grounded : client.Grounded) (i : Nat) (explicit : Option EndpointKey) :
    (client.readOrder i explicit).Grounded := by
  unfold Client.readOrder
  split
  · exact grounded
  · split
    · exact grounded_within grounded (EndpointCacheState.order_within _ _ _ _ _)
    · exact grounded

theorem grounded_answer {i : Nat} (grounded : client.Grounded) (timely : client.timely (.answer i reply) = true) :
    (client.answer ttl i reply).Grounded := by
  unfold Client.answer
  split
  · exact grounded
  case h_2 attempt found =>
    intro key endpoint until_ here
    simp only [Client.timely, found, Option.all_some, decide_eq_true_eq] at timely
    rcases answer_cases here with before | ⟨rejected, account, unguarded⟩
    · exact List.mem_append_right _ (grounded key endpoint until_ before)
    · have fresh : attempt.since = client.clears attempt.account.id := by
        rcases timely with silent | same | ⟨models, moved⟩
        · simp [rejected] at silent
        · exact same
        · rcases unguarded with generation | revision
          · rw [generation] at models
            cases models
          · exact absurd revision moved
      refine List.mem_append_left _ ?_
      simp [rejected, account, fresh]

theorem step_grounded (client : Client) (action : Action) (grounded : client.Grounded)
    (timely : client.timely action = true) : (step ttl client action).Grounded := by
  cases action with
  | generate account explicit => exact grounded_within grounded (EndpointCacheState.order_within _ _ _ _ _)
  | fetchModels account => exact grounded
  | readOrder i explicit => exact grounded_readOrder grounded i explicit
  | answer i reply => exact grounded_answer grounded timely
  | clearFailures accountId => exact grounded_clear grounded fun _ _ _ => EndpointCacheState.clearFailures_cases
  | clearAccount accountId => exact grounded_clear grounded fun _ _ _ => EndpointCacheState.clearAccount_cases
  | elapse duration => exact grounded

end Reports

def idcAccount : Account := ⟨"a", .idc, "us-east-1", none⟩

def forbidden : Reply := .failed ⟨some 403, "AmazonQ", "bearer token rejected"⟩

/-- A generation is rejected, the token refreshed, a late listing ignored, and a generation
with the new token rejected as well. -/
def renewedRun : List Action :=
  [.generate idcAccount none, .answer 0 forbidden, .fetchModels idcAccount, .readOrder 1 none,
    .clearFailures "a", .answer 1 forbidden, .generate idcAccount none, .answer 2 forbidden]

def lateRun : List Action := [.generate idcAccount none, .clearFailures "a", .answer 0 forbidden]

end KiroProxy.Kiro

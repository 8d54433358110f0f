import KiroProxy.Lib.Run
import KiroProxy.Lib.Table
import KiroProxy.Lib.Text
import KiroProxy.Translate.ToolName

/-! Webhook notifications: which incidents are active, and the steps of the calls that mark,
queue and roll back. There is no incident file here; a queue is what it answers to a send. -/
namespace KiroProxy.Notify

inductive WebhookEventKind where
  | accountCreditProtected | accountQuotaExhausted | serviceQuotaExhausted | tokenRefreshFailed | test
  deriving DecidableEq, Repr

def WebhookEventKind.asStr : WebhookEventKind → String
  | .accountCreditProtected => "account-credit-protected"
  | .accountQuotaExhausted => "account-quota-exhausted"
  | .serviceQuotaExhausted => "service-quota-exhausted"
  | .tokenRefreshFailed => "token-refresh-failed"
  | .test => "test"

def WebhookEventKind.matchesSubscription (kind : WebhookEventKind) (configured : String) : Bool :=
  configured == kind.asStr ||
    match kind with
    | .accountCreditProtected => configured == "low-credit"
    | .accountQuotaExhausted => configured == "quota-exhausted"
    | .serviceQuotaExhausted => configured == "quota-exhausted" || configured == "service-degraded"
    | .tokenRefreshFailed => configured == "token-expired" || configured == "account-banned"
    | .test => false

structure WebhookConfig where
  name : String
  kind : String
  url : String
  enabled : Bool := true
  events : List String := []
  telegramChatId : Option String := none
  deriving DecidableEq, Repr

structure WebhookEvent where
  kind : WebhookEventKind
  accountId : Option String := none
  deriving DecidableEq, Repr

def accountName (accountId : Option String) : String := accountId.getD "global"

variable (sha : Sha256)

def targetIncidentIdentity (target : WebhookConfig) : String :=
  String.ofList <| digestSuffix sha
    (Text.toAsciiLowercase (Text.trim target.kind) ++ "\x00" ++ Text.trim target.url ++ "\x00" ++
      (target.telegramChatId.map Text.trim).getD "") 16

/-! ### Marks -/

def incidentKey (identity : String) (kind : WebhookEventKind) (account : String) : String :=
  identity ++ ":" ++ kind.asStr ++ ":" ++ account

def resolveSuffix (kind : WebhookEventKind) (account : String) : String := ":" ++ kind.asStr ++ ":" ++ account

/-- A mark knows how often its incident had been resolved when it was set; no step reads it. -/
structure Mark where
  identity : String
  kind : WebhookEventKind
  account : String
  timestamp : Int
  since : Nat
  deriving DecidableEq, Repr

def Mark.key (mark : Mark) : String := incidentKey mark.identity mark.kind mark.account

abbrev Incidents := Table String Int

def markSend (incidents : Incidents) (target : WebhookConfig) (event : WebhookEvent) (now : Int) (since : Nat) :
    Incidents × Option Mark :=
  let mark : Mark := ⟨targetIncidentIdentity sha target, event.kind, accountName event.accountId, now, since⟩
  if (incidents.get? mark.key).isSome then (incidents, none) else (incidents.insert mark.key now, some mark)

def rollbackMark (incidents : Incidents) (mark : Mark) : Incidents :=
  if incidents.get? mark.key = some mark.timestamp then incidents.erase mark.key else incidents

def resolveIncident (incidents : Incidents) (kind : WebhookEventKind) (accountId : Option String) : Incidents :=
  incidents.retain fun key => !Text.endsWith key (resolveSuffix kind (accountName accountId))

def incidentActive (incidents : Incidents) (kind : WebhookEventKind) (accountId : Option String) : Bool :=
  incidents.entries.any fun entry => Text.endsWith entry.1 (resolveSuffix kind (accountName accountId))

/-! ### Calls -/

inductive Stage where
  | visiting (left : List WebhookConfig)
  | sending (mark : Option Mark) (left : List WebhookConfig)
  | refused (mark : Option Mark) (left : List WebhookConfig)
  deriving DecidableEq

structure Emit where
  event : WebhookEvent
  isTest : Bool
  stage : Stage
  queued : Nat := 0
  deriving DecidableEq

def wants (name : Option String) (event : WebhookEvent) (isTest : Bool) (target : WebhookConfig) : Bool :=
  name.all (target.name = ·) && target.enabled && (isTest || target.events.any event.kind.matchesSubscription)

def Emit.start (targets : List WebhookConfig) (name : Option String) (event : WebhookEvent) (isTest : Bool) : Emit :=
  { event := event, isTest := isTest, stage := .visiting (targets.filter (wants name event isTest)) }

def Emit.done (emit : Emit) : Bool := emit.stage = .visiting []

def Emit.mark (emit : Emit) : Option Mark :=
  match emit.stage with
  | .visiting _ => none
  | .sending mark _ | .refused mark _ => mark

structure Notifier where
  activeIncidents : Incidents := ∅
  emits : List Emit := []
  resolves : WebhookEventKind → String → Nat := fun _ _ => 0
  queued : List Mark := []

inductive Action where
  | emit (targets : List WebhookConfig) (name : Option String) (event : WebhookEvent) (isTest : Bool)
  | advance (i : Nat) (now : Int) (accepted : Bool)
  | resolve (kind : WebhookEventKind) (accountId : Option String)
  deriving DecidableEq

namespace Notifier

variable (s : Notifier)

def visit (i : Nat) (emit : Emit) (now : Int) (target : WebhookConfig) (left : List WebhookConfig) : Notifier :=
  if emit.isTest then { s with emits := s.emits.set i { emit with stage := .sending none left } }
  else
    let since := s.resolves emit.event.kind (accountName emit.event.accountId)
    let (incidents, mark) := markSend sha s.activeIncidents target emit.event now since
    let stage := match mark with
      | none => .visiting left
      | some mark => .sending (some mark) left
    { s with activeIncidents := incidents, emits := s.emits.set i { emit with stage := stage } }

def trySend (i : Nat) (emit : Emit) (mark : Option Mark) (left : List WebhookConfig) (accepted : Bool) : Notifier :=
  if accepted then
    { s with
      emits := s.emits.set i { emit with stage := .visiting left, queued := emit.queued + 1 }
      queued := mark.toList ++ s.queued }
  else { s with emits := s.emits.set i { emit with stage := .refused mark left } }

def rollback (i : Nat) (emit : Emit) (mark : Option Mark) (left : List WebhookConfig) : Notifier :=
  let incidents := match mark with
    | none => s.activeIncidents
    | some mark => rollbackMark s.activeIncidents mark
  { s with activeIncidents := incidents, emits := s.emits.set i { emit with stage := .visiting left } }

def advance (i : Nat) (now : Int) (accepted : Bool) : Notifier :=
  match s.emits[i]? with
  | none => s
  | some emit =>
    match emit.stage with
    | .visiting [] => s
    | .visiting (target :: left) => s.visit sha i emit now target left
    | .sending mark left => s.trySend i emit mark left accepted
    | .refused mark left => s.rollback i emit mark left

def resolve (kind : WebhookEventKind) (accountId : Option String) : Notifier :=
  { s with
    activeIncidents := resolveIncident s.activeIncidents kind accountId
    resolves := fun k account =>
      s.resolves k account + if k = kind ∧ account = accountName accountId then 1 else 0 }

end Notifier

def step (s : Notifier) : Action → Notifier
  | .emit targets name event isTest => { s with emits := s.emits ++ [.start targets name event isTest] }
  | .advance i now accepted => s.advance sha i now accepted
  | .resolve kind accountId => s.resolve kind accountId

end KiroProxy.Notify

import KiroProxy.Json

/-! The Kiro side of the wire models: what a generation request carries upstream. -/
namespace KiroProxy

structure KiroImageSource where
  bytes : String
  deriving DecidableEq, Repr

structure KiroImage where
  format : String
  source : KiroImageSource
  deriving DecidableEq, Repr

structure KiroDocumentSource where
  bytes : String
  deriving DecidableEq, Repr

structure KiroCitationsConfig where
  enabled : Bool
  deriving DecidableEq, Repr

structure KiroDocument where
  format : String
  name : String
  source : KiroDocumentSource
  citations : Option KiroCitationsConfig
  deriving DecidableEq, Repr

structure KiroCachePoint where
  type : String := "default"
  deriving DecidableEq, Repr

structure KiroText where
  text : String
  deriving DecidableEq, Repr

structure KiroToolResult where
  content : List KiroText
  status : String
  toolUseId : String
  deriving DecidableEq, Repr

structure KiroInputSchema where
  json : Value
  deriving Repr

structure KiroToolSpecification where
  name : String
  description : String
  inputSchema : KiroInputSchema
  deriving Repr

inductive KiroTool where
  | specification (toolSpecification : KiroToolSpecification)
  | cachePoint (cachePoint : KiroCachePoint)
  deriving Repr

def KiroTool.specification? : KiroTool → Option KiroToolSpecification
  | .specification spec => some spec
  | .cachePoint _ => none

structure KiroEnvState where
  currentWorkingDirectory : Option String
  operatingSystem : Option String
  deriving DecidableEq, Repr

structure KiroMessageContext where
  toolResults : List KiroToolResult := []
  tools : List KiroTool := []
  envState : Option KiroEnvState := none
  deriving Repr

structure KiroUserInputMessage where
  content : String
  modelId : String
  origin : String
  images : List KiroImage
  documents : List KiroDocument
  cachePoint : Option KiroCachePoint
  clientCacheConfig : Option Value
  userInputMessageContext : Option KiroMessageContext
  deriving Repr

structure KiroToolUse where
  toolUseId : String
  name : String
  input : Value
  deriving Repr

structure KiroAssistantMessage where
  content : String
  cachePoint : Option KiroCachePoint
  toolUses : List KiroToolUse
  deriving Repr

structure KiroHistoryMessage where
  userInputMessage : Option KiroUserInputMessage
  assistantResponseMessage : Option KiroAssistantMessage
  deriving Repr

structure KiroCurrentMessage where
  userInputMessage : KiroUserInputMessage
  deriving Repr

structure KiroConversationState where
  agentContinuationId : Option String
  agentTaskType : Option String
  chatTriggerType : String
  conversationId : String
  currentMessage : KiroCurrentMessage
  history : List KiroHistoryMessage
  deriving Repr

structure KiroPayload where
  conversationState : KiroConversationState
  profileArn : Option String
  additionalModelRequestFields : Option Value
  protectedHistoryMessages : Nat
  deriving Repr

def protectedHistoryLen (payload : KiroPayload) : Nat :=
  min payload.protectedHistoryMessages payload.conversationState.history.length

def KiroUserInputMessage.toolResults (user : KiroUserInputMessage) : List KiroToolResult :=
  (user.userInputMessageContext.map (·.toolResults)).getD []

def KiroUserInputMessage.tools (user : KiroUserInputMessage) : List KiroTool :=
  (user.userInputMessageContext.map (·.tools)).getD []

def userTurn (user : KiroUserInputMessage) : KiroHistoryMessage :=
  { userInputMessage := some user, assistantResponseMessage := none }

def assistantTurn (assistant : KiroAssistantMessage) : KiroHistoryMessage :=
  { userInputMessage := none, assistantResponseMessage := some assistant }

/-! What the turns of a payload hold, in the order in which Kiro reads them. -/

def turns (payload : KiroPayload) : List KiroHistoryMessage :=
  payload.conversationState.history ++ [userTurn payload.conversationState.currentMessage.userInputMessage]

def turnResults (turn : KiroHistoryMessage) : List KiroToolResult :=
  (turn.userInputMessage.map (·.toolResults)).getD []

def turnImages (turn : KiroHistoryMessage) : List KiroImage := (turn.userInputMessage.map (·.images)).getD []

def turnDocuments (turn : KiroHistoryMessage) : List KiroDocument := (turn.userInputMessage.map (·.documents)).getD []

@[simp] theorem turnImages_userTurn (user : KiroUserInputMessage) : turnImages (userTurn user) = user.images := rfl

@[simp] theorem turnDocuments_userTurn (user : KiroUserInputMessage) :
    turnDocuments (userTurn user) = user.documents := rfl

def turnUses (turn : KiroHistoryMessage) : List KiroToolUse := (turn.assistantResponseMessage.map (·.toolUses)).getD []

end KiroProxy

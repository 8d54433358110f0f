import KiroProxy.Translate.Content

/-! `openai_to_kiro`: a chat request becomes Kiro's history and current message. -/
namespace KiroProxy

structure OpenAiMessage where
  role : String
  content : Option Value := none
  toolCalls : List Value := []
  toolCallId : Option String := none
  refusal : Option String := none
  cacheControl : Option Value := none

structure OpenAiTool where
  type : String
  body : Value

structure ThinkingConfig where
  type : String
  budgetTokens : Option Nat := none
  display : Option String := none

structure OpenAiRequest where
  model : String := ""
  messages : List OpenAiMessage
  temperature : Option Number := none
  topP : Option Number := none
  maxTokens : Option Nat := none
  maxCompletionTokens : Option Nat := none
  stream : Bool := false
  stop : Option Value := none
  n : Option Nat := none
  legacyFunctions : Bool := false
  streamOptions : Option Value := none
  tools : List OpenAiTool := []
  toolChoice : Option Value := none
  parallelToolCalls : Bool := true
  thinking : Option ThinkingConfig := none
  reasoningEffort : Option String := none
  conversationId : Option String := none
  metadata : Option Value := none
  responseFormat : Option Value := none

/-- The current limit goes before the legacy one. -/
def OpenAiRequest.outputTokenLimit (request : OpenAiRequest) : Option Nat :=
  request.maxCompletionTokens.or request.maxTokens

/-- One replayed search result; `decrypt` of the codec gives it. -/
structure WebSearchReplay where
  title : String
  url : String
  snippet : String

structure TranslationOptions where
  modelId : String
  origin : String
  profileArn : Option String := none
  enhanceSystemPrompt : Bool := true
  separateCompactionInstruction : Bool := false
  webSearchReplay : Option (String → Option WebSearchReplay) := none
  conversationId : Option String := none
  enablePromptCache : Bool := false

/-- What a translation draws or is given at its end: the random identifiers, and what the
thinking controls leave in the additional fields. -/
structure Draws where
  continuationId : String
  conversationId : String
  modelFields : Option Value

def systemPromptAcknowledgement : String := "I will follow these instructions."

def maxKiroDescription : Nat := 1024

def kiroToolNamed (originalName kiroName description : String) (schema : Value) : KiroTool × Option String :=
  let (description, documentation) :=
    if maxKiroDescription < description.length then
      ("[Full documentation in system prompt under '## Tool: " ++ originalName ++ "']",
        some ("## Tool: " ++ originalName ++ "\n\n" ++ description))
    else if blank description then ("Tool " ++ originalName ++ ".", none)
    else (description, none)
  (.specification { name := kiroName, description, inputSchema := { json := schema } }, documentation)

def messageContext (tools : List KiroTool) (toolResults : List KiroToolResult) : Option KiroMessageContext :=
  if !tools.isEmpty || !toolResults.isEmpty then some { tools, toolResults } else none

def needsChunkedWriteHint (name : String) : Bool :=
  ["write", "edit", "multiedit", "notebookedit"].contains (Text.toAsciiLowercase name)

def enhanceSystem (system : String) (chunkedWriteHint : Bool) : String :=
  let rich := Text.contains (Text.toAsciiLowercase system) "claude code"
  let system := if rich then system
    else system ++ "\n\nExecute the user's request directly and use provided tools when needed."
  let system :=
    if chunkedWriteHint && !Text.contains system "Write/create/edit tool arguments must stay small" then
      system ++ "\n\nWrite/create/edit tool arguments must stay small; split large writes into chunks."
    else system
  Text.trim system

namespace OpenAi

variable (crates : Crates) (options : TranslationOptions)

def definition (tool : OpenAiTool) : Option Value := tool.body.get tool.type

def definedName (tool : OpenAiTool) : Option String := (definition tool).bind fun body => body.getStr "name"

def customSchema : Value := .object
  [("additionalProperties", .bool false),
   ("properties", .object [("input", .object
     [("description", .string "The complete raw tool input text. Do not wrap or escape it again."),
      ("type", .string "string")])]),
   ("required", .array [.string "input"]),
   ("type", .string "object")]

def customDescription (body : Value) (description : String) : String :=
  match ((body.get "format").filter fun format => format.kind == some "grammar").bind (·.get "grammar") with
  | some grammar =>
    let style := (grammar.getStr "syntax").getD "grammar"
    match grammar.getStr "definition" with
    | some value => join description ("Input format (" ++ style ++ " grammar):\n" ++ value)
    | none => description
  | none => description

def toolEntry (registry : ToolNameRegistry) (tool : OpenAiTool) : Option (List KiroTool × Option String) := do
  let cachePoint := if options.enablePromptCache then kiroCachePoint (tool.body.get "cache_control") else none
  let body ← definition tool
  let name ← body.getStr "name"
  let description := (body.getStr "description").getD ""
  let (description, schema) :=
    if tool.type = "custom" then (customDescription body description, customSchema)
    else (description, (body.get "parameters").getD (.object [("properties", .object []), ("type", .string "object")]))
  let (translated, documentation) := kiroToolNamed name (registry.kiroName crates.sha256 name) description schema
  return (translated :: cachePoint.toList.map .cachePoint, documentation)

def allowedTool (choice : Value) (tool : OpenAiTool) : Bool :=
  let allowed := (((choice.pointer ["allowed_tools", "tools"]).map Value.blocks).getD []).filterMap fun reference =>
    reference.kind.bind fun kind => (reference.pointerStr [kind, "name"]).map fun name => (kind, name)
  ((definedName tool).map fun name => allowed.any fun (kind, other) => kind == tool.type && other == name).getD false

def selectedTools (request : OpenAiRequest) : List OpenAiTool :=
  match request.toolChoice with
  | none => request.tools
  | some choice =>
    if choice.asStr == some "none" then []
    else if choice.kind == some "allowed_tools" then request.tools.filter (allowedTool choice)
    else match ((choice.get "function").or (choice.get "custom")).bind fun body => body.getStr "name" with
      | some name => request.tools.filter fun tool => definedName tool == some name
      | none => request.tools

def choiceDirective (request : OpenAiRequest) : String :=
  let required := (request.toolChoice.map fun choice => choice.asStr == some "required" ||
    (choice.get "function").isSome || (choice.get "custom").isSome ||
    choice.pointerStr ["allowed_tools", "mode"] == some "required").getD false
  lines ((if required then ["You must call at least one of the provided tools."] else []) ++
    if !request.parallelToolCalls && !request.tools.isEmpty then
      [if required then "Make exactly one tool call." else "Make at most one tool call."]
    else [])

def messageCachePoint (message : OpenAiMessage) : Option KiroCachePoint :=
  mergedCachePoint (kiroCachePoint message.cacheControl) (message.content.bind contentCachePoint)

def makeUser (text : String) (images : List KiroImage) (documents : List KiroDocument)
    (results : List KiroToolResult) (cachePoint : Option KiroCachePoint) : KiroUserInputMessage :=
  { content := if blank text then "Continue" else text
    modelId := options.modelId
    origin := options.origin
    images, documents, cachePoint
    clientCacheConfig := none
    userInputMessageContext := messageContext [] results }

/-- A function call carries its arguments as a text, a custom call carries a plain input. -/
def toolUse (registry : ToolNameRegistry) (call : Value) : Option KiroToolUse := do
  let id ← call.getStr "id"
  match call.get "function" with
  | some function =>
    let arguments := ((← function.get "arguments").asStr).getD "\x7b\x7d"
    let name ← function.getStr "name"
    let input := (crates.fromStr arguments).getD (.object [("raw", .string arguments)])
    return { toolUseId := id, name := registry.kiroName crates.sha256 name, input }
  | none =>
    let custom ← call.get "custom"
    let name ← custom.getStr "name"
    let input := .object [("input", .string ((custom.getStr "input").getD ""))]
    return { toolUseId := id, name := registry.kiroName crates.sha256 name, input }

def messageText (message : OpenAiMessage) : String := (message.content.map contentText).getD ""

def messageImages (message : OpenAiMessage) : List KiroImage :=
  (message.content.map (extractOpenaiImages crates)).getD []

def messageDocuments (message : OpenAiMessage) : List KiroDocument :=
  (message.content.map (extractDocuments crates)).getD []

def assistantText (message : OpenAiMessage) : String :=
  match message.refusal with
  | some refusal => join (messageText message) refusal
  | none => messageText message

def assistantMessage (registry : ToolNameRegistry) (message : OpenAiMessage) : KiroAssistantMessage :=
  let content := assistantText message
  let toolUses := message.toolCalls.filterMap (toolUse crates registry)
  { content := if blank content && toolUses.isEmpty then "I understand." else content
    cachePoint := if options.enablePromptCache then messageCachePoint message else none
    toolUses }

structure Pending where
  history : List KiroHistoryMessage := []
  text : String := ""
  results : List KiroToolResult := []
  images : List KiroImage := []
  documents : List KiroDocument := []
  cachePoint : Option KiroCachePoint := none
  resultCachePoint : Option KiroCachePoint := none

/-- One message of the loop; `rest` holds the messages behind it. -/
def step (registry : ToolNameRegistry) (s : Pending) (message : OpenAiMessage) (rest : List OpenAiMessage) : Pending :=
  match message.role with
  | "user" =>
    let cachePoint := messageCachePoint message
    if rest.isEmpty then
      { s with
        text := messageText message
        images := messageImages crates message
        documents := messageDocuments crates message
        cachePoint }
    else
      { s with
        history := s.history ++ [userTurn (makeUser options (messageText message) (messageImages crates message)
          (messageDocuments crates message) [] cachePoint)]
        cachePoint := none }
  | "assistant" => { s with history := s.history ++ [assistantTurn (assistantMessage crates options registry message)] }
  | "tool" =>
    let images := s.images ++ messageImages crates message
    let documents := s.documents ++ messageDocuments crates message
    let resultCachePoint := mergedCachePoint s.resultCachePoint (messageCachePoint message)
    let results := s.results ++ (message.toolCallId.map fun id =>
      { content := [{ text := messageText message }], status := "success", toolUseId := id }).toList
    let nextIsTool := rest.head?.any fun next => next.role == "tool"
    if !rest.isEmpty && !nextIsTool then
      { s with
        history := s.history ++ [userTurn (makeUser options "Tool results provided." images documents results
          resultCachePoint)]
        images := []
        documents := []
        results := []
        resultCachePoint := none }
    else { s with images, documents, results, resultCachePoint }
  | _ => s

def loop (registry : ToolNameRegistry) : List OpenAiMessage → Pending → Pending
  | [], s => s
  | message :: rest, s => loop registry rest (step crates options registry s message rest)

def isSystem (message : OpenAiMessage) : Bool := message.role == "system" || message.role == "developer"

def current (tools : List KiroTool) (s : Pending) : KiroUserInputMessage :=
  { content := if blank s.text then
      if s.results.isEmpty then "Continue." else "Tool results provided."
    else s.text
    modelId := options.modelId
    origin := options.origin
    images := s.images
    documents := s.documents
    cachePoint := mergedCachePoint s.cachePoint s.resultCachePoint
    clientCacheConfig := none
    userInputMessageContext := messageContext tools s.results }

def systemPrompt (request : OpenAiRequest) (entries : List (List KiroTool × Option String)) : String :=
  let system := lines (((request.messages.filter isSystem).filterMap (·.content)).map contentText)
  let system := if options.enhanceSystemPrompt then
    enhanceSystem system ((entries.flatMap (·.1)).any fun tool =>
      (tool.specification?.map fun spec => needsChunkedWriteHint spec.name).getD false)
  else system
  let documentation := entries.filterMap (·.2)
  let system := if documentation.isEmpty then system else join system ("\n\n".intercalate documentation)
  join system (choiceDirective request)

def systemCachePoint (request : OpenAiRequest) : Option KiroCachePoint :=
  if options.enablePromptCache then
    (request.messages.filter isSystem).foldl (fun mark message => mergedCachePoint mark (messageCachePoint message)) none
  else none

/-- The system prompt goes before the history as an accepted exchange. -/
def protectedPair (system : String) (cachePoint : Option KiroCachePoint) : List KiroHistoryMessage :=
  if blank system then []
  else [userTurn (makeUser options (Text.trim system) [] [] [] cachePoint),
    assistantTurn { content := systemPromptAcknowledgement, cachePoint := none, toolUses := [] }]

def catalogue (request : OpenAiRequest) : List String := request.tools.filterMap definedName

/-- A search for tool names that never ends gives no payload. -/
def openaiToKiro (draws : Draws) (request : OpenAiRequest) : Option KiroPayload :=
  (ToolNameRegistry.new crates.sha256 (catalogue request)).map fun registry =>
    let entries := (selectedTools request).filterMap (toolEntry crates options registry)
    let system := systemPrompt options request entries
    let s := loop crates options registry (request.messages.filter fun message => !isSystem message) {}
    let pair := protectedPair options system (systemCachePoint options request)
    { conversationState := {
        agentContinuationId := some draws.continuationId
        agentTaskType := some "vibe"
        chatTriggerType := "MANUAL"
        conversationId := options.conversationId.getD draws.conversationId
        currentMessage := { userInputMessage := current options (entries.flatMap (·.1)) s }
        history := pair ++ s.history }
      profileArn := options.profileArn
      additionalModelRequestFields := draws.modelFields
      protectedHistoryMessages := pair.length }

end OpenAi

end KiroProxy

import KiroProxy.Http.ResponsesStore
import KiroProxy.Translate.Responses

/-! The encoder of a Responses stream: chunks of an internal chat stream become numbered events.
An item's random id is drawn when the item is added, and under its place in the output. -/
namespace KiroProxy

namespace Value

def index (value : Value) (key : String) : Value := (value.get key).getD .null

end Value

namespace Responses

inductive Status where
  | inProgress
  | completed
  | incomplete
  | failed
  deriving DecidableEq, Repr

def Status.text : Status → String
  | inProgress => "in_progress"
  | completed => "completed"
  | incomplete => "incomplete"
  | failed => "failed"

inductive ItemContent where
  | message (text : String)
  | reasoning (text : String)
  | tool (custom : Bool) (callId name : String) (space : Option String) (input : String)

def ItemContent.push (added : String) : ItemContent → ItemContent
  | .message text => .message (text ++ added)
  | .reasoning text => .reasoning text
  | .tool custom callId name space input => .tool custom callId name space (input ++ added)

structure OutputItem where
  id : String
  content : ItemContent
  status : Status

def OutputItem.new (draw : String) (content : ItemContent) : OutputItem :=
  let kind := match content with
    | .message _ => "msg"
    | .reasoning _ => "rs"
    | .tool true .. => "ctc"
    | .tool false .. => "fc"
  { id := kind ++ "_" ++ draw, content, status := .inProgress }

def textPart (text : String) : Value :=
  .object [("annotations", .array []), ("logprobs", .array []), ("text", .string text), ("type", .string "output_text")]

def summaryPart (text : String) : Value := .object [("text", .string text), ("type", .string "summary_text")]

def OutputItem.json (item : OutputItem) (status : Status) : Value :=
  match item.content with
  | .message text => .object
      [("content", .array (if status = .inProgress ∧ text = "" then [] else [textPart text])), ("id", .string item.id),
        ("role", .string "assistant"), ("status", .string status.text), ("type", .string "message")]
  | .reasoning text => .object
      [("id", .string item.id), ("summary", .array (if text = "" then [] else [summaryPart text])),
        ("type", .string "reasoning")]
  | .tool custom callId name space input =>
    let fields := setField (if custom then "input" else "arguments") (.string input)
      [("call_id", .string callId), ("id", .string item.id), ("name", .string name), ("status", .string status.text),
        ("type", .string (if custom then "custom_tool_call" else "function_call"))]
    .object (match space with
      | some space => setField "namespace" (.string space) fields
      | none => fields)

/-- Kiro can send empty summary markers; only a text with a visible meaning is published. -/
def hasSubstantiveReasoningSummary (text : String) : Bool :=
  let withoutEmptyComments := (Text.splitChars "<!-- -->".toList (by decide) text.toList).flatten
  let compact := withoutEmptyComments.filter fun c => !Text.isWhitespace c
  !compact.isEmpty && !compact.all fun c => c = '.' ∨ c = '…'

/-- The counts of a chat's usage under the names of this protocol. -/
def usage (chat : Value) : Value :=
  let input := (chat.index "prompt_tokens").asU64.getD 0
  let output := (chat.index "completion_tokens").asU64.getD 0
  let count := fun n : Nat => Value.number (.posInt n)
  .object
    [("input_tokens", count input),
      ("input_tokens_details", .object [("cached_tokens",
        count (((chat.index "prompt_tokens_details").index "cached_tokens").asU64.getD 0))]),
      ("output_tokens", count output),
      ("output_tokens_details", .object [("reasoning_tokens",
        count (((chat.index "completion_tokens_details").index "reasoning_tokens").asU64.getD 0))]),
      ("total_tokens", count (Entries.saturatingAdd input output))]

def storeFailed : String := "unable to store response state within the configured in-memory limit"

structure ResponsesOptions where
  template : List (String × Value)
  toolNames : List (String × ResponsesToolName)
  emitReasoningSummary : Bool
  session : Option StoredSession

namespace ResponsesOptions

def id (options : ResponsesOptions) : String := ((options.template.lookup "id").bind Value.asStr).getD ""

def envelope (options : ResponsesOptions) (output : List Value) (status : Status) (usage error : Value) : Value :=
  let response := if status = .failed ∧ options.session.isSome then setField "store" (.bool false) options.template
    else options.template
  let response := setField "error" error (setField "usage" usage (setField "status" (.string status.text)
    (setField "output" (.array output) response)))
  .object (if status = .incomplete then
      setField "incomplete_details" (.object [("reason", .string "max_output_tokens")]) response
    else response)

/-- What the store of sessions answers when a session is inserted under an id with an output. -/
abbrev Insert := String → StoredSession → List Value → Bool

def finalize (options : ResponsesOptions) (insert : Insert) (output : List Value) (status : Status) (usage : Value) :
    Except String Value :=
  match options.session with
  | some session =>
    if session.conversationId.isNone || !insert options.id session output then .error storeFailed
    else .ok (options.envelope output status usage .null)
  | none => .ok (options.envelope output status usage .null)

def tool (options : ResponsesOptions) (call : Value) : ItemContent :=
  let custom := (call.index "type").asStr = some "custom"
  let body := call.index (if custom then "custom" else "function")
  let name := (body.index "name").asStr.getD ""
  let identity := options.toolNames.lookup name
  .tool custom ((call.index "id").asStr.getD "") ((identity.map (·.name)).getD name) (identity.bind (·.space))
    ((body.index (if custom then "input" else "arguments")).asStr.getD "")

end ResponsesOptions

inductive ResponseKind where
  | created
  | inProgress
  | completed
  | incomplete
  | failed
  deriving DecidableEq, Repr

inductive ResponsesEvent where
  | response (kind : ResponseKind) (response : Value)
  | itemAdded (outputIndex : Nat) (item : Value)
  | itemDone (outputIndex : Nat) (item : Value)
  | contentPartAdded (itemId : String) (outputIndex : Nat) (text : String)
  | textDelta (itemId : String) (outputIndex : Nat) (delta : String)
  | textDone (itemId : String) (outputIndex : Nat) (text : String)
  | contentPartDone (itemId : String) (outputIndex : Nat) (text : String)
  | summaryPartAdded (itemId : String) (outputIndex : Nat) (text : String)
  | summaryTextDone (itemId : String) (outputIndex : Nat) (text : String)
  | summaryPartDone (itemId : String) (outputIndex : Nat) (text : String)
  | toolDelta (custom : Bool) (itemId : String) (outputIndex : Nat) (callId delta : String)
  | customInputDone (itemId : String) (outputIndex : Nat) (input : String)
  | functionArgumentsDone (itemId : String) (outputIndex : Nat) (name arguments : String)

namespace ResponsesEvent

def type : ResponsesEvent → String
  | response .created _ => "response.created"
  | response .inProgress _ => "response.in_progress"
  | response .completed _ => "response.completed"
  | response .incomplete _ => "response.incomplete"
  | response .failed _ => "response.failed"
  | itemAdded .. => "response.output_item.added"
  | itemDone .. => "response.output_item.done"
  | contentPartAdded .. => "response.content_part.added"
  | textDelta .. => "response.output_text.delta"
  | textDone .. => "response.output_text.done"
  | contentPartDone .. => "response.content_part.done"
  | summaryPartAdded .. => "response.reasoning_summary_part.added"
  | summaryTextDone .. => "response.reasoning_summary_text.done"
  | summaryPartDone .. => "response.reasoning_summary_part.done"
  | toolDelta true .. => "response.custom_tool_call_input.delta"
  | toolDelta false .. => "response.function_call_arguments.delta"
  | customInputDone .. => "response.custom_tool_call_input.done"
  | functionArgumentsDone .. => "response.function_call_arguments.done"

def fields : ResponsesEvent → List (String × Value)
  | response _ body => [("response", body)]
  | itemAdded index item | itemDone index item => [("item", item), ("output_index", .number (.posInt index))]
  | contentPartAdded id index text | contentPartDone id index text =>
    [("content_index", .number (.posInt 0)), ("item_id", .string id), ("output_index", .number (.posInt index)),
      ("part", textPart text)]
  | textDelta id index delta =>
    [("content_index", .number (.posInt 0)), ("delta", .string delta), ("item_id", .string id), ("logprobs", .array []),
      ("output_index", .number (.posInt index))]
  | textDone id index text =>
    [("content_index", .number (.posInt 0)), ("item_id", .string id), ("logprobs", .array []),
      ("output_index", .number (.posInt index)), ("text", .string text)]
  | summaryPartAdded id index text | summaryPartDone id index text =>
    [("item_id", .string id), ("output_index", .number (.posInt index)), ("part", summaryPart text),
      ("summary_index", .number (.posInt 0))]
  | summaryTextDone id index text =>
    [("item_id", .string id), ("output_index", .number (.posInt index)), ("summary_index", .number (.posInt 0)),
      ("text", .string text)]
  | toolDelta _ id index callId delta =>
    [("call_id", .string callId), ("delta", .string delta), ("item_id", .string id),
      ("output_index", .number (.posInt index))]
  | customInputDone id index input =>
    [("input", .string input), ("item_id", .string id), ("output_index", .number (.posInt index))]
  | functionArgumentsDone id index name arguments =>
    [("arguments", .string arguments), ("item_id", .string id), ("name", .string name),
      ("output_index", .number (.posInt index))]

end ResponsesEvent

structure SentEvent where
  sequence : Nat
  event : ResponsesEvent

def SentEvent.json (sent : SentEvent) : Value :=
  .object (setField "sequence_number" (.number (.posInt sent.sequence))
    (setField "type" (.string sent.event.type) sent.event.fields))

def SentEvent.frame (sent : SentEvent) : String :=
  "event: " ++ sent.event.type ++ "\ndata: " ++ sent.json.render ++ "\n\n"

structure ResponsesStream where
  options : ResponsesOptions
  items : List OutputItem := []
  activeText : Option Nat := none
  pendingReasoning : String := ""
  toolIndices : List (Nat × Nat) := []
  sequence : Nat := 0
  usage : Value := .null
  finishReason : Option String := none
  terminal : Bool := false

/-- The random ids, by the place of the item they are drawn for, and the cleaning of error texts. -/
structure Outside where
  draw : Nat → String
  sanitizeErrorMessage : String → String

structure Sending where
  stream : ResponsesStream
  events : List SentEvent := []

namespace Sending

def event (event : ResponsesEvent) (s : Sending) : Sending :=
  { stream := { s.stream with sequence := s.stream.sequence + 1 }
    events := s.events ++ [{ sequence := s.stream.sequence, event }] }

def sendAll (events : List ResponsesEvent) (s : Sending) : Sending := events.foldl (fun s event => s.event event) s

variable (outside : Outside)

def add (content : ItemContent) (s : Sending) : Sending :=
  let index := s.stream.items.length
  let item := OutputItem.new (outside.draw index) content
  let s := s.event (.itemAdded index (item.json .inProgress))
  { s with stream := { s.stream with items := s.stream.items ++ [item] } }

def closingValues (index : Nat) (item : OutputItem) : List ResponsesEvent :=
  match item.content with
  | .message text => [.textDone item.id index text, .contentPartDone item.id index text]
  | .reasoning text => [.summaryTextDone item.id index text, .summaryPartDone item.id index text]
  | .tool custom _ name _ input =>
    if custom then [.customInputDone item.id index input] else [.functionArgumentsDone item.id index name input]

/-- A place without an item is none that the source asks for. -/
def close (index : Nat) (status : Status) (s : Sending) : Sending :=
  match s.stream.items[index]? with
  | none => s
  | some item =>
    if item.status ≠ .inProgress then s
    else
      let stream := { s.stream with items := s.stream.items.set index { item with status } }
      sendAll (closingValues index item ++ [ResponsesEvent.itemDone index (item.json status)]) { s with stream }

def closeText (s : Sending) : Sending :=
  match s.stream.activeText with
  | none => s
  | some index => close index .completed { s with stream := { s.stream with activeText := none } }

def reasoning (text : String) (s : Sending) : Sending :=
  if !s.stream.options.emitReasoningSummary || text = "" then s
  else if s.stream.pendingReasoning = "" && !hasSubstantiveReasoningSummary text then s
  else { s with stream := { s.stream with pendingReasoning := s.stream.pendingReasoning ++ text } }

def itemId (s : Sending) (index : Nat) : String := (s.stream.items[index]?.map (·.id)).getD ""

def flushReasoning (s : Sending) : Sending :=
  let text := s.stream.pendingReasoning
  let s := { s with stream := { s.stream with pendingReasoning := "" } }
  if !hasSubstantiveReasoningSummary text then s
  else
    let s := s.closeText
    let index := s.stream.items.length
    let s := s.add outside (.reasoning text)
    (s.event (.summaryPartAdded (s.itemId index) index text)).close index .completed

def push (index : Nat) (added : String) (s : Sending) : Sending :=
  { s with stream := { s.stream with items := s.stream.items.modify index fun item =>
      { item with content := item.content.push added } } }

/-- The place of the message that takes the text: the active one or a new one. -/
def openText (s : Sending) : Sending × Nat :=
  match s.stream.activeText with
  | some index => (s, index)
  | none =>
    let s := s.closeText
    let index := s.stream.items.length
    let s := s.add outside (.message "")
    let s := { s with stream := { s.stream with activeText := some index } }
    (s.event (.contentPartAdded (s.itemId index) index ""), index)

def text (text : String) (s : Sending) : Sending :=
  if text = "" then s
  else
    let (s, index) := (s.flushReasoning outside).openText outside
    let s := s.push index text
    s.event (.textDelta (s.itemId index) index text)

def fail (code message : String) (s : Sending) : Sending :=
  if s.stream.terminal then s
  else
    let stream := { s.stream with pendingReasoning := "", terminal := true }
    let output := stream.items.map fun item => item.json (if item.status = .inProgress then .incomplete else item.status)
    let error := Value.object
      [("code", .string code), ("message", .string (outside.sanitizeErrorMessage message))]
    { s with stream }.event (.response .failed (stream.options.envelope output .failed stream.usage error))

def addTool (toolIndex : Nat) (call : Value) (s : Sending) : Except Sending (Sending × Nat) :=
  match s.stream.options.tool call with
  | .tool custom callId name space _ =>
    if callId = "" ∨ name = "" then
      .error (s.fail outside "invalid_stream" "tool delta is missing its call id or name")
    else
      let index := s.stream.items.length
      let s := s.add outside (.tool custom callId name space "")
      .ok ({ s with stream := { s.stream with toolIndices := (toolIndex, index) :: s.stream.toolIndices } }, index)
  -- The source panics here; a call is always made into a tool item.
  | _ => .ok (s, s.stream.items.length)

def toolInput (index : Nat) (call : Value) (s : Sending) : Sending :=
  match s.stream.items[index]?.map OutputItem.content with
  | some (.tool custom callId _ _ _) =>
    let body := call.index (if custom then "custom" else "function")
    let added := (body.index (if custom then "input" else "arguments")).asStr.getD ""
    let s := s.push index added
    if added = "" then s else s.event (.toolDelta custom (s.itemId index) index callId added)
  -- The source panics here as well; the places of tools hold tools.
  | _ => s

def toolDelta (s : Sending) (call : Value) : Except Sending Sending :=
  match (call.index "index").asU64 with
  | none => .error (s.fail outside "invalid_stream" "tool delta is missing its index")
  | some toolIndex =>
    match s.stream.toolIndices.lookup toolIndex with
    | some index => .ok (s.toolInput index call)
    | none => (s.addTool outside toolIndex call).map fun (s, index) => s.toolInput index call

def setFinishReason (choice : Value) (s : Sending) : Sending :=
  match (choice.index "finish_reason").asStr with
  | some reason => { s with stream := { s.stream with finishReason := some reason } }
  | none => s

def choice (s : Sending) (choice : Value) : Except Sending Sending :=
  let s := s.setFinishReason choice
  let delta := choice.index "delta"
  let s := (delta.index "reasoning_content").asStr.elim s fun text => s.reasoning text
  let s := (delta.index "content").asStr.elim s fun text => s.text outside text
  match (delta.index "tool_calls").asArray with
  | some calls => calls.foldlM (toolDelta outside) (s.flushReasoning outside).closeText
  | none => .ok s

def takeUsage (chat : Value) (s : Sending) : Sending :=
  if (chat.get "usage").any Value.isObject then
    { s with stream := { s.stream with usage := Responses.usage (chat.index "usage") } }
  else s

def chunk (chat : Value) (s : Sending) : Sending :=
  if s.stream.terminal then s
  else match chat.get "error" with
    | some error =>
      s.fail outside ((error.index "code").asStr.getD "upstream_error")
        ((error.index "message").asStr.getD "upstream stream failed")
    | none =>
      let s := s.takeUsage chat
      match (chat.index "choices").asArray with
      | none => s.fail outside "invalid_stream" "invalid internal OpenAI stream"
      | some choices =>
        match choices.foldlM (choice outside) s with
        | .ok s => s
        | .error s => s

def addEmptyMessage (s : Sending) : Sending :=
  if s.stream.items.isEmpty then
    let index := s.stream.items.length
    let s := s.add outside (.message "")
    s.event (.contentPartAdded (s.itemId index) index "")
  else s

def closeAll (status : Status) (s : Sending) : Sending :=
  (List.range s.stream.items.length).foldl (fun s index => s.close index status) s

def finish (insert : ResponsesOptions.Insert) (s : Sending) : Sending :=
  if s.stream.terminal then s
  else if s.stream.finishReason.isNone || s.stream.usage.isNull then
    s.fail outside "incomplete_stream" "upstream stream ended without a finish reason and usage"
  else
    let status : Status := if s.stream.finishReason = some "length" then .incomplete else .completed
    let s := (s.flushReasoning outside).addEmptyMessage outside
    let output := s.stream.items.map fun item => item.json (if item.status = .inProgress then status else item.status)
    match s.stream.options.finalize insert output status s.stream.usage with
    | .error message => s.fail outside "response_store_failed" message
    | .ok response =>
      let s := (s.closeAll status).event
        (.response (if status = .incomplete then .incomplete else .completed) response)
      { s with stream := { s.stream with terminal := true } }

def start (s : Sending) : Sending :=
  s.sendAll [.response .created (.object s.stream.options.template), .response .inProgress (.object s.stream.options.template)]

end Sending

inductive StreamCall where
  | chunk (chat : Value)
  | finish (insert : ResponsesOptions.Insert)
  | fail (code message : String)

def ResponsesStream.call (outside : Outside) (stream : ResponsesStream) : StreamCall → Sending
  | .chunk chat => Sending.chunk outside chat { stream }
  | .finish insert => Sending.finish outside insert { stream }
  | .fail code message => Sending.fail outside code message { stream }

def Sending.call (outside : Outside) (s : Sending) (call : StreamCall) : Sending :=
  let next := s.stream.call outside call
  { next with events := s.events ++ next.events }

def streamed (outside : Outside) (options : ResponsesOptions) (calls : List StreamCall) : Sending :=
  Run.run (Sending.call outside) (Sending.start { stream := { options } }) calls

end Responses

end KiroProxy

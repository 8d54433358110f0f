import KiroProxy.Http.Rounds

/-! An answer of one round, streamed and not, and what a Claude client makes of either.

Tool calls are not held back, and the proxy runs no tools of its own. -/
namespace KiroProxy.Http

open Kiro

/-- Kiro may name a call in its first fragment only: later ones are named after it. -/
def restoreToolEventName (names : List (String × String)) : KiroEvent → KiroEvent × List (String × String)
  | .toolUse id name inputDelta stop =>
    if name = "" then (.toolUse id ((names.lookup id).getD name) inputDelta stop, names)
    else (.toolUse id name inputDelta stop, if (names.lookup id).isSome then names else (id, name) :: names)
  | event => (event, names)

def restoreWebToolName (names : List (String × String)) : KiroEvent → KiroEvent
  | .toolUse id name inputDelta stop => .toolUse id ((names.lookup name).getD name) inputDelta stop
  | event => event

/-- Text goes through the stop filter, and is no event while the filter keeps all of it. -/
def clientVisibleEvent (filter : StopSequenceFilter) : KiroEvent → StopSequenceFilter × Option KiroEvent
  | .assistantResponse content =>
    let (filter, content) := filter.push content
    (filter, if content = "" then none else some (.assistantResponse content))
  | event => (filter, some event)

/-- The variables of the streaming loop within a round, with all that has been sent. -/
structure Streaming where
  claude : ClaudeState
  decoded : DecodedResponse := {}
  stopFilter : StopSequenceFilter
  upstreamToolNames : List (String × String) := []
  sent : List SseEvent := []

namespace Streaming

def send (s : Streaming) (event : KiroEvent) : Streaming :=
  let e := s.claude.event event
  { s with claude := e.state, sent := s.sent ++ e.output }

def sendText (s : Streaming) (text : String) : Streaming :=
  if text = "" then s else s.send (.assistantResponse text)

def push (outside : Outside) (webToolNames : List (String × String)) (s : Streaming) (event : KiroEvent) :
    Except String (Streaming × Bool) := do
  let (event, upstreamToolNames) := restoreToolEventName s.upstreamToolNames event
  let event := restoreWebToolName webToolNames event
  let (stopFilter, flushed) := s.stopFilter.flushBefore event
  let s := { s with upstreamToolNames := upstreamToolNames, stopFilter := stopFilter }.sendText flushed
  let (stopFilter, visible) := clientVisibleEvent s.stopFilter event
  let s := { s with stopFilter := stopFilter }
  let s := match visible with
    | none => s
    | some visible => s.send visible
  let decoded ← s.decoded.push outside event
  return ({ s with decoded := decoded }, s.stopFilter.matched.isSome)

def pushAll (outside : Outside) (webToolNames : List (String × String)) (s : Streaming) :
    List KiroEvent → Except String Streaming
  | [] => .ok s
  | event :: rest => do
    let (s, stopped) ← s.push outside webToolNames event
    if stopped then return s else s.pushAll outside webToolNames rest

end Streaming

def firstBytes : Nat → List Char → Option (List Char)
  | 0, _ => some []
  | _ + 1, [] => none
  | n + 1, c :: rest => if c.utf8Size ≤ n + 1 then (firstBytes (n + 1 - c.utf8Size) rest).map (c :: ·) else none

def applyStreamStop (decoded : DecodedResponse) (filter : StopSequenceFilter) : DecodedResponse :=
  match filter.matched with
  | none => decoded
  | some sequence =>
    decoded.stopAtSequence (((firstBytes filter.visibleBytes decoded.text.toList).map String.ofList).getD decoded.text)
      sequence

structure Request where
  context : StreamContext
  stopSequences : List String
  maxTokens : Nat
  webToolNames : List (String × String)
  tokenizer : Tokenizer

/-- The record at the end of a streamed round: an answer cut off by its length says so. -/
def Streaming.complete (outside : Outside) (request : Request) (s : Streaming) : Except String DecodedResponse := do
  let decoded ← if s.stopFilter.matched = none then s.decoded.finalizeToolInputs outside else pure s.decoded
  let decoded := fillMissingUsage outside request.tokenizer decoded
  if s.stopFilter.matched.isSome then return decoded
  return stopFor decoded (if request.maxTokens ≤ saturatingAdd 0 decoded.usage.outputTokens then some "max_tokens" else none)

def streamResponse (outside : Outside) (request : Request) (events : List KiroEvent) : Except String (List SseEvent) := do
  let s : Streaming := { claude := buildClaudeState request.context, stopFilter := .new request.stopSequences }
  let s ← s.pushAll outside request.webToolNames events
  let decoded ← s.complete outside request
  let (stopFilter, trailing) := s.stopFilter.finish
  let s := s.sendText trailing
  let decoded := applyStreamStop { decoded with usage := mergeRoundUsage decoded.usage {} } stopFilter
  return s.sent ++ (streamFinish s.claude decoded (some request.maxTokens) decoded.usage.outputTokens).output

/-- The request as one of rounds: the proxy runs no tools, and nothing is continued. -/
def Request.config (request : Request) : RoundsConfig :=
  { maxOutputTokens := some request.maxTokens, stopSequences := request.stopSequences }

def Request.round (request : Request) (events : List KiroEvent) : Round where
  events := events
  toolResults := false
  tokenizer := request.tokenizer
  toolSearch _ := .error ""
  webSearch _ := .ok []
  serverId _ := ""
  continues := false

def nonstreamClaude (outside : Outside) (tryEncrypt : Encrypt) (request : Request) (events : List KiroEvent) :
    Option Value := do
  let decoded ← (Rounds.new {}).collect outside request.config [request.round events]
  claudeJson outside tryEncrypt (decoded.restoreToolNames request.webToolNames) request.context request.maxTokens
    decoded.usage.outputTokens none

/-- A content block as a client keeps it: the partial JSON of a call is parsed in the end. -/
inductive Content where
  | text (text : String)
  | toolUse (id name : String) (input : Value) (partialJson : String)
  | other

namespace Content

def ofBlock (block : Value) : Content :=
  match block.getStr "type" with
  | some "text" => text ((block.getStr "text").getD "")
  | some "tool_use" => toolUse ((block.getStr "id").getD "") ((block.getStr "name").getD "")
      ((block.get "input").getD .null) ""
  | _ => other

def add (delta : Value) : Content → Content
  | text shown => text (shown ++
      if delta.getStr "type" = some "text_delta" then (delta.getStr "text").getD "" else "")
  | toolUse id name input partialJson => toolUse id name input (partialJson ++
      if delta.getStr "type" = some "input_json_delta" then (delta.getStr "partial_json").getD "" else "")
  | other => other

def written : Content → String
  | text shown => shown
  | _ => ""

end Content

@[ext] structure ToolCall where
  id : String
  name : String
  input : Option Value

/-- Without any partial JSON the input stays what the block began with. -/
def Content.call (outside : Outside) : Content → Option ToolCall
  | toolUse id name input partialJson =>
    some ⟨id, name, if partialJson = "" then some input else outside.fromStr partialJson⟩
  | _ => none

/-- The parts of a message that the two ways of answering have to agree on. -/
structure Answer where
  text : String
  calls : List ToolCall
  stopReason : Option String
  stopSequence : Option String

def Answer.ofContents (outside : Outside) (contents : List Content) (stop : Value) : Answer where
  text := String.join (contents.map (·.written))
  calls := contents.filterMap (·.call outside)
  stopReason := stop.getStr "stop_reason"
  stopSequence := stop.getStr "stop_sequence"

structure Client where
  contents : List Content := []
  stop : Value := .null

def Client.read (client : Client) : SseEvent → Client
  | .messageStart _ => {}
  | .contentBlock (.start _ block) => { client with contents := client.contents ++ [.ofBlock block] }
  | .contentBlock (.delta index delta) => { client with contents := client.contents.modify index (·.add delta) }
  | .contentBlock (.stop _) => client
  | .messageDelta delta _ _ => { client with stop := delta }
  | .messageStop => client

def Client.answer (outside : Outside) (events : List SseEvent) : Answer :=
  let client := events.foldl Client.read {}
  .ofContents outside client.contents client.stop

def Answer.ofMessage (outside : Outside) (message : Value) : Answer :=
  .ofContents outside ((((message.get "content").bind Value.asArray).getD []).map .ofBlock) message

end KiroProxy.Http

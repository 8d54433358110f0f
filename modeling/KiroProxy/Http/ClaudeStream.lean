import KiroProxy.Http.Response
import KiroProxy.Lib.Blocks

/-! The Claude stream encoder: which server-sent events an answer becomes. -/
namespace KiroProxy.Http

open Kiro

/-- The events of a Claude message; the three that belong to a content block carry its index. -/
inductive SseEvent where
  | messageStart (message : Value)
  | contentBlock (token : Blocks.Token Value Value)
  | messageDelta (delta usage : Value) (contextManagement : Option Value)
  | messageStop

def natural (n : Nat) : Value := .number (.posInt n)

def optional (text : Option String) : Value := (text.map Value.string).getD .null

def SseEvent.json : SseEvent → Value
  | messageStart message => .object [("message", message), ("type", .string "message_start")]
  | contentBlock (.start index initial) =>
    .object [("content_block", initial), ("index", natural index), ("type", .string "content_block_start")]
  | contentBlock (.delta index delta) =>
    .object [("delta", delta), ("index", natural index), ("type", .string "content_block_delta")]
  | contentBlock (.stop index) => .object [("index", natural index), ("type", .string "content_block_stop")]
  | messageDelta delta usage contextManagement =>
    .object ((contextManagement.map fun management => ("context_management", management)).toList ++
      [("delta", delta), ("type", .string "message_delta"), ("usage", usage)])
  | messageStop => .object [("type", .string "message_stop")]

def sse (event : SseEvent) : String :=
  "event: " ++ (event.json.getStr "type").getD "message" ++ "\ndata: " ++ event.json.render ++ "\n\n"

inductive BlockKind where
  | text
  | thinking
  | redactedThinking
  | toolUse
  | compaction
  | serverToolUse
  | toolSearchToolResult
  | webSearchToolResult
  deriving DecidableEq

structure CompactionIterationUsage where
  inputTokens : Nat
  outputTokens : Nat

structure ClaudeContextEditStats where
  clearedToolResults : Nat := 0
  clearedToolInputTokens : Nat := 0
  clearedThinkingTurns : Nat := 0
  clearedThinkingInputTokens : Nat := 0
  toolEditType : Option String := none
  thinkingEditType : Option String := none

def ClaudeContextEditStats.appliedEdits (stats : ClaudeContextEditStats) : List Value :=
  (if stats.clearedThinkingTurns > 0 then
    [.object [("cleared_input_tokens", natural stats.clearedThinkingInputTokens),
      ("cleared_thinking_turns", natural stats.clearedThinkingTurns),
      ("type", .string (stats.thinkingEditType.getD "clear_thinking_20251015"))]]
  else []) ++
  (if stats.clearedToolResults > 0 then
    [.object [("cleared_input_tokens", natural stats.clearedToolInputTokens),
      ("cleared_tool_uses", natural stats.clearedToolResults),
      ("type", .string (stats.toolEditType.getD "clear_tool_uses_20250919"))]]
  else [])

structure ClaudeState where
  requestId : String
  model : String
  inputTokens : Nat
  autoCompactionOriginalInputTokens : Option Nat := none
  compactionIteration : Option CompactionIterationUsage := none
  compactionInStart : Bool := false
  contextEditStats : ClaudeContextEditStats := {}
  messageStarted : Bool := false
  block : Option (Nat × BlockKind) := none
  nextIndex : Nat := 0
  toolIndices : List (String × Nat) := []
  toolsWithInput : List String := []
  cacheCreationInputTokens : Nat := 0
  cacheReadInputTokens : Nat := 0
  visibleText : String := ""
  emittedCitationLinks : List String := []

/-- What is fixed for a whole answer before its first event. -/
structure StreamContext where
  requestId : String
  model : String
  inputTokens : Nat
  autoCompactionOriginalInputTokens : Option Nat := none
  compactionIteration : Option CompactionIterationUsage := none
  compactionInStart : Bool := false
  contextEditStats : ClaudeContextEditStats := {}

/-- The cache counters start at nothing: the last event carries the real ones. -/
def buildClaudeState (context : StreamContext) : ClaudeState where
  requestId := context.requestId
  model := context.model
  inputTokens := context.inputTokens
  autoCompactionOriginalInputTokens := context.autoCompactionOriginalInputTokens
  compactionIteration := context.compactionIteration
  compactionInStart := context.compactionInStart
  contextEditStats := context.contextEditStats

/-- The encoder inside one operation: its state and what the operation has put out so far. -/
structure Encoder where
  state : ClaudeState
  output : List SseEvent

namespace Encoder

def push (e : Encoder) (event : SseEvent) : Encoder := { e with output := e.output ++ [event] }

def delta (e : Encoder) (index : Nat) (piece : Value) : Encoder := e.push (.contentBlock (.delta index piece))

def stop (e : Encoder) (index : Nat) : Encoder := e.push (.contentBlock (.stop index))

def ensureMessage (e : Encoder) : Encoder :=
  if e.state.messageStarted then e
  else
    let s := e.state
    let uncached := s.inputTokens - s.cacheCreationInputTokens - s.cacheReadInputTokens
    let message := Value.object [("content", .array []), ("id", .string s.requestId), ("model", .string s.model),
      ("role", .string "assistant"), ("stop_reason", .null), ("stop_sequence", .null), ("type", .string "message"),
      ("usage", .object [("cache_creation_input_tokens", natural s.cacheCreationInputTokens),
        ("cache_read_input_tokens", natural s.cacheReadInputTokens), ("input_tokens", natural uncached),
        ("output_tokens", natural 0)])]
    { state := { s with messageStarted := true }, output := e.output ++ [.messageStart message] }

def openBlock (e : Encoder) (kind : BlockKind) (initial : Value) : Encoder × Nat :=
  let index := e.state.nextIndex
  ({ state := { e.state with nextIndex := index + 1, block := some (index, kind) },
     output := e.output ++ [.contentBlock (.start index initial)] }, index)

/-- A block of the wanted kind goes on, save that every tool call has a block of its own. -/
def switchBlock (e : Encoder) (kind : BlockKind) (initial : Value) : Encoder × Nat :=
  let e := e.ensureMessage
  match e.state.block with
  | some (index, current) =>
    if current = kind ∧ kind ≠ .toolUse then (e, index) else (e.stop index).openBlock kind initial
  | none => e.openBlock kind initial

def closeBlock (e : Encoder) (index : Nat) : Encoder :=
  let e := e.stop index
  { e with state := { e.state with block := none } }

def wholeBlock (e : Encoder) (kind : BlockKind) (initial : Value) (pieces : List Value) : Encoder :=
  let (e, index) := e.switchBlock kind initial
  (pieces.foldl (fun e piece => e.delta index piece) e).closeBlock index

def textBlock (e : Encoder) (text : String) : Encoder :=
  let (e, index) := e.switchBlock .text (.object [("text", .string ""), ("type", .string "text")])
  e.delta index (.object [("text", .string text), ("type", .string "text_delta")])

end Encoder

namespace ClaudeState

def begin (s : ClaudeState) : Encoder := ⟨s, []⟩

def thinking (e : Encoder) (content : String) (signature : Option String) : Encoder :=
  if content = "" ∧ signature = none then e
  else
    let (e, index) := e.switchBlock .thinking
      (.object [("signature", .string ""), ("thinking", .string ""), ("type", .string "thinking")])
    let e := if content = "" then e
      else e.delta index (.object [("thinking", .string content), ("type", .string "thinking_delta")])
    match signature with
    | none => e
    | some signature =>
      e.delta index (.object [("signature", .string signature), ("type", .string "signature_delta")])

/-- A fragment of a known call goes to the block that the call was given, whichever is open now. -/
def toolBlock (e : Encoder) (id name : String) : Encoder × Nat :=
  match e.state.toolIndices.lookup id with
  | some index => (e, index)
  | none =>
    let (e, index) := e.switchBlock .toolUse (.object [("id", .string id), ("input", .object []),
      ("name", .string name), ("type", .string "tool_use")])
    ({ e with state := { e.state with toolIndices := (id, index) :: e.state.toolIndices } }, index)

/-- Blanks before the first argument count as no arguments; later ones are part of the JSON. -/
def toolInput (e : Encoder) (index : Nat) (id inputDelta : String) (stop : Bool) : Encoder :=
  let e := if Text.trim inputDelta = "" then e
    else { e with state := { e.state with toolsWithInput := id :: e.state.toolsWithInput } }
  let e := if inputDelta ≠ "" ∧ id ∈ e.state.toolsWithInput then
      e.delta index (.object [("partial_json", .string inputDelta), ("type", .string "input_json_delta")])
    else e
  if stop ∧ e.state.block = some (index, .toolUse) then e.closeBlock index else e

def toolUse (e : Encoder) (id name inputDelta : String) (stop : Bool) : Encoder :=
  let (e, index) := toolBlock e id name
  toolInput e index id inputDelta stop

def event (s : ClaudeState) : KiroEvent → Encoder
  | .assistantResponse content =>
    { s with visibleText := s.visibleText ++ content }.begin.textBlock content
  | .reasoning content signature redactedContent =>
    let e := thinking s.begin content signature
    match redactedContent with
    | none => e
    | some data =>
      e.wholeBlock .redactedThinking (.object [("data", .string data), ("type", .string "redacted_thinking")]) []
  | .citations citations =>
    let (seen, fresh) := insertFresh kiroCitationKey s.emittedCitationLinks citations
    let s := { s with emittedCitationLinks := seen }
    let fallback := kiroVisibleReferences fresh
    if fallback = "" then s.begin
    else { s with visibleText := s.visibleText ++ fallback }.begin.textBlock fallback
  | .toolUse id name inputDelta stop => toolUse s.begin id name inputDelta stop
  | _ => s.begin

def compaction (s : ClaudeState) (content : String) : Encoder :=
  if s.compactionInStart then
    s.begin.wholeBlock .compaction (.object [("content", .string content), ("type", .string "compaction")]) []
  else
    s.begin.wholeBlock .compaction (.object [("content", .null), ("type", .string "compaction")])
      [.object [("content", .string content), ("type", .string "compaction_delta")]]

def serverToolUse (s : ClaudeState) (emission : ClaudeServerToolEmission) (id name : String) (input : Value) :
    Encoder :=
  if emission = .resultOnly then s.begin
  else s.begin.wholeBlock .serverToolUse
    (.object [("id", .string id), ("input", .object []), ("name", .string name), ("type", .string "server_tool_use")])
    [.object [("partial_json", .string input.render), ("type", .string "input_json_delta")]]

def toolSearchResult (search : ClaudeToolSearchTrace) : Value :=
  match search.error with
  | some error => .object [("error_code", .string error.code), ("error_message", .string error.message),
      ("type", .string "tool_search_tool_result_error")]
  | none => .object [("tool_references", .array (search.references.map fun name =>
        .object [("tool_name", .string name), ("type", .string "tool_reference")])),
      ("type", .string "tool_search_tool_search_result")]

def toolSearch (s : ClaudeState) (search : ClaudeToolSearchTrace) : Encoder :=
  let e := s.serverToolUse search.emission search.id search.name search.input
  if search.emission = .pending then e
  else e.wholeBlock .toolSearchToolResult (.object [("content", toolSearchResult search),
    ("tool_use_id", .string search.id), ("type", .string "tool_search_tool_result")]) []

def webSearchResult (tryEncrypt : Encrypt) (result : WebSearchResult) : Option Value := do
  let encryptedContent ← tryEncrypt result
  return .object [("encrypted_content", .string encryptedContent), ("page_age", .null), ("title", .string result.title),
    ("type", .string "web_search_result"), ("url", .string result.url)]

def webSearchContent (tryEncrypt : Encrypt) (search : ClaudeWebSearchTrace) : Option Value :=
  match search.error with
  | some error => some (.object [("error_code", .string error.code), ("type", .string "web_search_tool_result_error")])
  | none => (search.results.mapM (webSearchResult tryEncrypt)).map .array

/-- A result that cannot be sealed fails the operation; the state keeps the call's block as sent. -/
def webSearch (s : ClaudeState) (tryEncrypt : Encrypt) (search : ClaudeWebSearchTrace) : ClaudeState × Option Encoder :=
  let e := s.serverToolUse search.emission search.id "web_search" search.input
  if search.emission = .pending then (e.state, some e)
  else match webSearchContent tryEncrypt search with
    | none => (e.state, none)
    | some content =>
      let e := e.wholeBlock .webSearchToolResult (.object [("caller", .object [("type", .string "direct")]),
        ("content", content), ("tool_use_id", .string search.id), ("type", .string "web_search_tool_result")]) []
      (e.state, some e)

/-- Citations are deltas of the text block that is open; without one there is nothing to cite. -/
def citations (s : ClaudeState) (tryEncrypt : Encrypt) (searches : List ClaudeWebSearchTrace) (answerText : String) :
    Option Encoder :=
  match s.block with
  | some (_, .text) => do
    let citations ← webSearchCitations searches answerText tryEncrypt
    if citations.isEmpty then return s.begin
    let (e, index) := s.begin.switchBlock .text
      (.object [("citations", .array []), ("text", .string ""), ("type", .string "text")])
    return citations.foldl (fun e citation => e.delta index
      (.object [("citation", citation), ("type", .string "citations_delta")])) e
  | _ => some s.begin

end ClaudeState

def claudeStop (decoded : DecodedResponse) (maxTokens : Option Nat) (currentRoundOutputTokens : Nat) : String :=
  match decoded.stopReason with
  | some reason => reason
  | none =>
    if !decoded.tools.isEmpty then "tool_use"
    else if maxTokens.any (· ≤ currentRoundOutputTokens) then "max_tokens"
    else "end_turn"

def claudeUsage (compactionIteration : Option CompactionIterationUsage) (decoded : DecodedResponse) : Value :=
  let usage := decoded.usage
  let uncached := usage.inputTokens - usage.cacheReadTokens - usage.cacheWriteTokens
  let iterations := compactionIteration.map fun compaction =>
    ("iterations", Value.array [.object [("input_tokens", natural compaction.inputTokens),
      ("output_tokens", natural compaction.outputTokens), ("type", .string "compaction")],
      .object [("input_tokens", natural usage.inputTokens), ("output_tokens", natural usage.outputTokens),
        ("type", .string "message")]])
  let serverToolUse := if decoded.webSearches.isEmpty then []
    else [("server_tool_use", Value.object [("web_search_requests",
      natural (decoded.webSearches.countP (·.executed)))])]
  .object ([("cache_creation_input_tokens", natural usage.cacheWriteTokens),
    ("cache_read_input_tokens", natural usage.cacheReadTokens), ("input_tokens", natural uncached)] ++
    iterations.toList ++ [("output_tokens", natural usage.outputTokens)] ++ serverToolUse)

def contextManagement (stats : ClaudeContextEditStats) (originalInputTokens : Option Nat) (inputTokens : Nat) :
    Option Value :=
  let compacted := originalInputTokens.map fun original =>
    Value.object [("compacted_input_tokens", natural inputTokens), ("original_input_tokens", natural original),
      ("reason", .string "model_mapping_overflow"), ("type", .string "compact_20260112")]
  let appliedEdits := stats.appliedEdits ++ compacted.toList
  if appliedEdits.isEmpty then none else some (.object [("applied_edits", .array appliedEdits)])

/-- `stream_finish` for the Claude protocol. -/
def streamFinish (s : ClaudeState) (decoded : DecodedResponse) (maxTokens : Option Nat)
    (currentRoundOutputTokens : Nat) : Encoder :=
  let e := s.begin.ensureMessage
  let e := match e.state.block with
    | some (index, _) => e.closeBlock index
    | none => e
  let delta := Value.object [("stop_reason", .string (claudeStop decoded maxTokens currentRoundOutputTokens)),
    ("stop_sequence", optional decoded.stopSequence)]
  let management := contextManagement s.contextEditStats s.autoCompactionOriginalInputTokens s.inputTokens
  (e.push (.messageDelta delta (claudeUsage s.compactionIteration decoded) management)).push .messageStop

end KiroProxy.Http

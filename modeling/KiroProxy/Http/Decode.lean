import KiroProxy.Http.ClaudeStream
import KiroProxy.Http.StopSequence
import KiroProxy.Lib.SortedMap
import KiroProxy.Translate.Protocol
import Mathlib.Algebra.GroupWithZero.Nat
import Mathlib.Data.String.Basic

/-! How the events of an answer are gathered, and the Claude message made of them. -/
namespace KiroProxy.Http

open Kiro

/-- What decoding takes from elsewhere: the JSON parser, and the reading of a usage report,
whose numbers may be doubles. -/
structure Outside where
  fromStr : String → Option Value
  mergeUsage : UsageInfo → Value → UsageInfo

def maxCumulativeToolInputBytes : Nat := 16 * 1024 * 1024

/-- A fragment joins the call of its id; the first name that is not empty stays. -/
def ToolBuffer.absorb (id name inputDelta : String) (stop : Bool) : Option ToolBuffer → ToolBuffer
  | none => { id := id, name := name, input := inputDelta, complete := stop }
  | some tool => { tool with
      name := if tool.name = "" then name else tool.name
      input := tool.input ++ inputDelta
      complete := tool.complete || stop }

namespace DecodedResponse

def toolBytes (decoded : DecodedResponse) : Nat := (decoded.tools.map (·.2.input.utf8ByteSize)).sum

def push (outside : Outside) (decoded : DecodedResponse) : KiroEvent → Except String DecodedResponse
  | .assistantResponse content => .ok { decoded with text := decoded.text ++ content }
  | .reasoning content signature redactedContent => .ok { decoded with
      reasoning := decoded.reasoning ++ content
      reasoningSignature := match signature with
        | none => decoded.reasoningSignature
        | some signature => some (decoded.reasoningSignature.getD "" ++ signature)
      redactedThinking := decoded.redactedThinking ++ redactedContent.getD "" }
  | .citations citations => .ok { decoded with citations := decoded.citations ++ citations }
  | .toolUse id name inputDelta stop =>
    if decoded.toolBytes + inputDelta.utf8ByteSize > maxCumulativeToolInputBytes then
      .error "tool input exceeded the 16 MiB response limit"
    else .ok { decoded with tools := SortedMap.alter id (ToolBuffer.absorb id name inputDelta stop) decoded.tools }
  | .messageMetadata usage | .usage usage => .ok { decoded with usage := outside.mergeUsage decoded.usage usage }
  | .error _ message => .error message
  | .other _ _ => .ok decoded

def stopAtSequence (decoded : DecodedResponse) (visibleText sequence : String) : DecodedResponse := { decoded with
  text := visibleText
  tools := []
  stopReason := some "stop_sequence"
  stopSequence := some sequence }

def restoreToolNames (decoded : DecodedResponse) (names : List (String × String)) : DecodedResponse := { decoded with
  tools := decoded.tools.map fun (key, tool) => (key, { tool with name := (names.lookup tool.name).getD tool.name }) }

/-- An input must be JSON as it stands: it may have been sent already. Blanks mean no arguments. -/
def finalizeToolInputs (outside : Outside) (decoded : DecodedResponse) : Except String DecodedResponse :=
  match decoded.tools.find? fun (_, tool) => Text.trim tool.input ≠ "" ∧ (outside.fromStr tool.input).isNone with
  | some (_, tool) => .error ("tool " ++ tool.name ++ " produced invalid JSON input")
  | none => .ok { decoded with tools := decoded.tools.map fun (key, tool) =>
      (key, if Text.trim tool.input = "" then { tool with input := "\x7b\x7d" } else tool) }

end DecodedResponse

/-- Line breaks inside strings are escaped, and a comma before a closing bracket is dropped. -/
def normalizePartialJson (inString escaped : Bool) : List Char → List Char
  | [] => []
  | c :: rest =>
    if inString then
      (if c = '\n' then ['\\', 'n'] else if c = '\r' then ['\\', 'r'] else if c = '\t' then ['\\', 't'] else [c]) ++
        normalizePartialJson (escaped || c ≠ '"') (!escaped && c = '\\') rest
    else if c = '"' then c :: normalizePartialJson true escaped rest
    else
      let next := rest.find? fun c => !Text.isWhitespace c
      if c = ',' ∧ (next = some '\x7d' ∨ next = some ']') then normalizePartialJson false escaped rest
      else c :: normalizePartialJson false escaped rest

def openBrackets : List Char → Bool → Bool → List Char → List Char × Bool
  | stack, inString, _, [] => (stack, inString)
  | stack, true, escaped, c :: rest =>
    if escaped then openBrackets stack true false rest
    else if c = '\\' then openBrackets stack true true rest
    else openBrackets stack (c ≠ '"') false rest
  | stack, false, escaped, c :: rest =>
    if c = '"' then openBrackets stack true escaped rest
    else if c = '\x7b' then openBrackets ('\x7d' :: stack) false escaped rest
    else if c = '[' then openBrackets (']' :: stack) false escaped rest
    else if (c = '\x7d' ∨ c = ']') ∧ stack.head? = some c then openBrackets stack.tail false escaped rest
    else openBrackets stack false escaped rest

def repairJson (outside : Outside) (input : String) : Value :=
  let trimmed := Text.trim input
  if trimmed = "" then .object []
  else match outside.fromStr trimmed with
    | some value => value
    | none =>
      let repaired := normalizePartialJson false false trimmed.toList
      let (stack, inString) := openBrackets [] false false repaired
      let closed := (if inString then repaired ++ ['"'] else repaired).rdropWhile Text.isWhitespace
      let closed := if closed.getLast? = some ',' then closed.dropLast else closed
      (outside.fromStr (String.ofList (closed ++ stack))).getD (.object [("raw", .string trimmed)])

def ToolBuffer.toolUse (outside : Outside) (tool : ToolBuffer) : KiroToolUse where
  toolUseId := tool.id
  name := tool.name
  input := repairJson outside tool.input

/-- The calls that meet the predicate are taken out, in the order of the map. -/
def DecodedResponse.takeToolUsesWhere (outside : Outside) (decoded : DecodedResponse) (predicate : ToolBuffer → Bool) :
    DecodedResponse × List KiroToolUse :=
  ({ decoded with tools := decoded.tools.filter fun entry => !predicate entry.2 },
    ((decoded.tools.filter fun entry => predicate entry.2).map (·.2)).map (·.toolUse outside))

def endsText : KiroEvent → Bool
  | .reasoning .. | .citations _ | .toolUse .. => true
  | _ => false

def StopSequenceFilter.flushBefore (filter : StopSequenceFilter) (event : KiroEvent) : StopSequenceFilter × String :=
  if endsText event then filter.finish else (filter, "")

/-- Decoding without a stream: the record, the filter, and what has been visible. -/
structure Collecting where
  decoded : DecodedResponse := {}
  stopFilter : StopSequenceFilter
  visibleText : String := ""

def pushNonstreamEvent (outside : Outside) (c : Collecting) (event : KiroEvent) : Except String (Collecting × Bool) := do
  let (stopFilter, flushed) := c.stopFilter.flushBefore event
  let (stopFilter, shown) := match event with
    | .assistantResponse content => stopFilter.push content
    | _ => (stopFilter, "")
  let visibleText := c.visibleText ++ flushed ++ shown
  let decoded ← c.decoded.push outside event
  match stopFilter.matched with
  | none => return (⟨decoded, stopFilter, visibleText⟩, false)
  | some sequence => return (⟨decoded.stopAtSequence visibleText sequence, stopFilter, ""⟩, true)

def collectEvents (outside : Outside) (c : Collecting) : List KiroEvent → Except String Collecting
  | [] => .ok c
  | event :: rest => do
    let (c, stopped) ← pushNonstreamEvent outside c event
    if stopped then return c else collectEvents outside c rest

structure Tokenizer where
  estimateKiroPayload : Option Nat
  count : String → Option Nat

def producedOutput (decoded : DecodedResponse) : Bool :=
  decoded.text ≠ "" ∨ decoded.reasoning ≠ "" ∨ decoded.tools ≠ [] ∨ decoded.usage.outputTokens > 0 ∨
    decoded.usage.credits > 0

def countedTokens (tokenizer : Tokenizer) (text : String) : Nat :=
  max ((tokenizer.count text).getD (text.length / 4)) 1

def outputProjection (outside : Outside) (decoded : DecodedResponse) : Value :=
  let tools := decoded.tools.map fun (_, tool) => Value.object [("id", .string tool.id),
    ("input", repairJson outside tool.input), ("name", .string tool.name)]
  .object [("reasoning", .string decoded.reasoning), ("text", .string decoded.text), ("tool_uses", .array tools)]

def fillMissingUsage (outside : Outside) (tokenizer : Tokenizer) (decoded : DecodedResponse) : DecodedResponse :=
  let usage := decoded.usage
  let usage := if usage.inputTokens = 0 then
      { usage with inputTokens := tokenizer.estimateKiroPayload.getD 0 } else usage
  let usage := if usage.reasoningTokens = 0 ∧ decoded.reasoning ≠ "" then
      { usage with reasoningTokens := countedTokens tokenizer decoded.reasoning } else usage
  let usage := if usage.outputTokens = 0 ∧ producedOutput { decoded with usage := usage } then
      { usage with outputTokens := countedTokens tokenizer (outputProjection outside decoded).render } else usage
  { decoded with usage := usage }

def serverToolUseBlock (emission : ClaudeServerToolEmission) (id name : String) (input : Value) : List Value :=
  if emission = .resultOnly then []
  else [.object [("id", .string id), ("input", input), ("name", .string name), ("type", .string "server_tool_use")]]

def toolSearchBlocks (search : ClaudeToolSearchTrace) : List Value :=
  serverToolUseBlock search.emission search.id search.name search.input ++
    (if search.emission = .pending then []
    else [.object [("content", ClaudeState.toolSearchResult search), ("tool_use_id", .string search.id),
      ("type", .string "tool_search_tool_result")]])

def webSearchBlocks (tryEncrypt : Encrypt) (search : ClaudeWebSearchTrace) : Option (List Value) := do
  let use := serverToolUseBlock search.emission search.id "web_search" search.input
  if search.emission = .pending then return use
  let content ← ClaudeState.webSearchContent tryEncrypt search
  return use ++ [.object [("caller", .object [("type", .string "direct")]), ("content", content),
    ("tool_use_id", .string search.id), ("type", .string "web_search_tool_result")]]

def textBlocks (text : String) : List Value :=
  if text = "" then [] else [.object [("text", .string text), ("type", .string "text")]]

/-- A server tool of the timeline, after the text that was produced before it. -/
def serverEventBlocks (tryEncrypt : Encrypt) (decoded : DecodedResponse) : ClaudeServerEvent → Option (List Value)
  | .toolSearch index precedingText =>
    some (textBlocks precedingText ++ ((decoded.toolSearches[index]?).map toolSearchBlocks).getD [])
  | .webSearch index precedingText =>
    match decoded.webSearches[index]? with
    | none => some (textBlocks precedingText)
    | some search => (webSearchBlocks tryEncrypt search).map (textBlocks precedingText ++ ·)

def reasoningBlocks (decoded : DecodedResponse) : List Value :=
  match decoded.reasoningSignature with
  | some signature => [.object [("signature", .string signature), ("thinking", .string decoded.reasoning),
      ("type", .string "thinking")]]
  | none =>
    if decoded.reasoning = "" then []
    else textBlocks ("<thinking>" ++ decoded.reasoning ++ "</thinking>")

def answerBlocks (decoded : DecodedResponse) (citations : List Value) : List Value :=
  let answerText := decoded.text ++ kiroVisibleReferences decoded.citations
  if answerText = "" then []
  else if citations.isEmpty then textBlocks answerText
  else [.object [("citations", .array citations), ("text", .string answerText), ("type", .string "text")]]

def toolUseBlocks (outside : Outside) (decoded : DecodedResponse) : List Value :=
  decoded.tools.map fun (_, tool) => .object [("id", .string tool.id), ("input", repairJson outside tool.input),
    ("name", .string tool.name), ("type", .string "tool_use")]

/-- The content array of `claude_json`. -/
def claudeContent (outside : Outside) (tryEncrypt : Encrypt) (decoded : DecodedResponse)
    (compactionSummary : Option String) : Option (List Value) := do
  let compaction := compactionSummary.toList.map fun summary =>
    Value.object [("content", .string summary), ("type", .string "compaction")]
  let redacted := if decoded.redactedThinking = "" then []
    else [Value.object [("data", .string decoded.redactedThinking), ("type", .string "redacted_thinking")]]
  let server ← if decoded.claudeServerEvents.isEmpty then do
      let web ← decoded.webSearches.mapM (webSearchBlocks tryEncrypt)
      some (decoded.toolSearches.flatMap toolSearchBlocks ++ web.flatten)
    else (decoded.claudeServerEvents.mapM (serverEventBlocks tryEncrypt decoded)).map List.flatten
  let citations ← webSearchCitations decoded.webSearches decoded.text tryEncrypt
  return compaction ++ reasoningBlocks decoded ++ redacted ++ server ++ answerBlocks decoded citations ++
    toolUseBlocks outside decoded

/-- `claude_json_with_context_management`: the whole message. -/
def claudeJson (outside : Outside) (tryEncrypt : Encrypt) (decoded : DecodedResponse) (context : StreamContext)
    (maxTokens currentRoundOutputTokens : Nat) (compactionSummary : Option String) : Option Value := do
  let content ← claudeContent outside tryEncrypt decoded compactionSummary
  let management := contextManagement context.contextEditStats context.autoCompactionOriginalInputTokens
    context.inputTokens
  return .object ([("content", .array content)] ++
    (management.map fun management => ("context_management", management)).toList ++
    [("id", .string context.requestId), ("model", .string context.model), ("role", .string "assistant"),
      ("stop_reason", .string (claudeStop decoded (some maxTokens) currentRoundOutputTokens)),
      ("stop_sequence", optional decoded.stopSequence), ("type", .string "message"),
      ("usage", claudeUsage context.compactionIteration decoded)])

def saturatingAdd (a b : Nat) : Nat := min (a + b) (2 ^ 64 - 1)

end KiroProxy.Http

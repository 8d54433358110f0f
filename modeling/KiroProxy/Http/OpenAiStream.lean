import KiroProxy.Http.ClaudeStreamOrder
import KiroProxy.Http.Decode

/-! The frames of a streamed answer in either protocol. -/
namespace KiroProxy.Http

open Kiro

inductive StreamProtocol where
  | claude
  | openAi
  deriving DecidableEq

inductive ThinkingOutputFormat where
  | claude
  | openai
  deriving DecidableEq

structure OpenAiToolIdentity where
  kind : String
  name : String

/-- What a client receives as data: a Claude event, a chat completion chunk, or the mark of the end. -/
inductive Frame where
  | claude (event : SseEvent)
  | chunk (value : Value)
  | done

/-- The encoder state of the response loop, with the parts that only chat completions use. -/
structure StreamState extends ClaudeState where
  openaiThinkingOpen : Bool := false
  openaiIncludeUsage : Bool := false

structure StreamFormat where
  protocol : StreamProtocol
  created : Nat
  model : String
  thinkingFormat : ThinkingOutputFormat
  openaiTools : List (String × OpenAiToolIdentity)

def customToolInput (outside : Outside) (input : String) : String :=
  match repairJson outside input with
  | .object fields =>
    let single := match fields with
      | [(_, value)] => value.asStr
      | _ => none
    (((fields.lookup "input").bind Value.asStr).or single).getD input
  | .string value => value
  | _ => input

def openaiChunk (s : StreamState) (format : StreamFormat) (includeUsage : Bool) (delta finishReason : Value) : Frame :=
  .chunk (.object ([("choices", .array [.object [("delta", delta), ("finish_reason", finishReason), ("index", natural 0)]]),
    ("created", natural format.created), ("id", .string s.requestId), ("model", .string format.model),
    ("object", .string "chat.completion.chunk")] ++ if includeUsage then [("usage", .null)] else []))

def openaiText (s : StreamState) (text : String) : StreamState × Value :=
  let opener := if s.openaiThinkingOpen then "</thinking>" else ""
  ({ s with visibleText := s.visibleText ++ text, openaiThinkingOpen := false },
    .object [("content", .string (opener ++ text))])

def openaiReasoning (s : StreamState) (format : ThinkingOutputFormat) (content : String) : StreamState × Value :=
  match format with
  | .openai => (s, .object (if content = "" then [] else [("reasoning_content", .string content)]))
  | .claude =>
    let opener := if s.openaiThinkingOpen then "" else "<thinking>"
    ({ s with openaiThinkingOpen := true }, .object [("content", .string (opener ++ content))])

def openaiToolUse (outside : Outside) (s : StreamState) (identities : List (String × OpenAiToolIdentity))
    (id name inputDelta : String) (stop : Bool) : StreamState × Value :=
  let next := s.toolIndices.length
  let index := (s.toolIndices.lookup id).getD next
  let s := if (s.toolIndices.lookup id).isSome then s else { s with toolIndices := (id, next) :: s.toolIndices }
  let identity := identities.lookup name
  let originalName := (identity.map (·.name)).getD name
  let call := fun kind fields => Value.object [("tool_calls", .array [.object
    [(kind, .object fields), ("id", .string id), ("index", natural index), ("type", .string kind)]])]
  if identity.any (·.kind = "custom") then
    ({ s with toolsWithInput := id :: s.toolsWithInput },
      call "custom" [("input", .string (if stop then customToolInput outside inputDelta else inputDelta)),
        ("name", .string originalName)])
  else
    let arguments := if Text.trim inputDelta = "" ∧ id ∉ s.toolsWithInput then
        (if stop then "\x7b\x7d" else "")
      else inputDelta
    let s := if Text.trim arguments = "" then s else { s with toolsWithInput := id :: s.toolsWithInput }
    (s, call "function" [("arguments", .string arguments), ("name", .string originalName)])

def openaiEvent (outside : Outside) (format : StreamFormat) (s : StreamState) (event : KiroEvent) :
    StreamState × List Frame :=
  let send := fun (next : StreamState × Value) =>
    (next.1, [openaiChunk next.1 format next.1.openaiIncludeUsage next.2 .null])
  match event with
  | .assistantResponse content => send (openaiText s content)
  | .reasoning content _ _ => send (openaiReasoning s format.thinkingFormat content)
  | .citations citations =>
    let (seen, fresh) := insertFresh kiroCitationKey s.emittedCitationLinks citations
    let s := { s with emittedCitationLinks := seen }
    let references := kiroVisibleReferences fresh
    if references = "" then (s, []) else send (openaiText s references)
  | .toolUse id name inputDelta stop => send (openaiToolUse outside s format.openaiTools id name inputDelta stop)
  | _ => (s, [])

def streamEvent (outside : Outside) (format : StreamFormat) (s : StreamState) (event : KiroEvent) :
    StreamState × List Frame :=
  match format.protocol with
  | .claude =>
    let e := s.toClaudeState.event event
    ({ s with toClaudeState := e.state }, e.output.map .claude)
  | .openAi => openaiEvent outside format s event

/-- `stream_finish` for chat completions: calls without arguments and open thinking are completed. -/
def openaiFinish (format : StreamFormat) (s : StreamState) (decoded : DecodedResponse) (maxTokens : Option Nat)
    (currentRoundOutputTokens : Nat) (includeUsage : Bool) : List Frame :=
  let emptyCalls := decoded.tools.filterMap fun (_, tool) =>
    if tool.input ≠ "\x7b\x7d" ∨ tool.id ∈ s.toolsWithInput then none
    else (s.toolIndices.lookup tool.id).map fun index =>
      Value.object [("function", .object [("arguments", .string "\x7b\x7d")]), ("index", natural index)]
  let chunk := openaiChunk s format includeUsage
  let completed := if emptyCalls.isEmpty then [] else [chunk (.object [("tool_calls", .array emptyCalls)]) .null]
  let closed := if format.thinkingFormat = .claude ∧ s.openaiThinkingOpen then
      [chunk (.object [("content", .string "</thinking>")]) .null]
    else []
  let finishReason := if !decoded.tools.isEmpty then "tool_calls"
    else if decoded.stopReason = some "max_tokens" ∨ maxTokens.any (· ≤ currentRoundOutputTokens) then "length"
    else "stop"
  let usage := decoded.usage
  let usageChunk := if includeUsage then
      [Frame.chunk (.object [("choices", .array []), ("created", natural format.created), ("id", .string s.requestId),
        ("model", .string format.model), ("object", .string "chat.completion.chunk"),
        ("usage", .object [("completion_tokens", natural usage.outputTokens),
          ("completion_tokens_details", .object [("reasoning_tokens", natural usage.reasoningTokens)]),
          ("prompt_tokens", natural usage.inputTokens),
          ("prompt_tokens_details", .object [("cached_tokens", natural usage.cacheReadTokens)]),
          ("total_tokens", natural (usage.inputTokens + usage.outputTokens))])])]
    else []
  completed ++ closed ++ [chunk (.object []) (.string finishReason)] ++ usageChunk ++ [.done]

def finishFrames (format : StreamFormat) (s : StreamState) (decoded : DecodedResponse) (maxTokens : Option Nat)
    (currentRoundOutputTokens : Nat) (includeUsage : Bool) : List Frame :=
  match format.protocol with
  | .claude => (streamFinish s.toClaudeState decoded maxTokens currentRoundOutputTokens).output.map .claude
  | .openAi => openaiFinish format s decoded maxTokens currentRoundOutputTokens includeUsage

/-! ### Operations -/

def encode (outside : Outside) (format : StreamFormat) (s : StreamState) (operation : Operation) :
    StreamState × List Frame :=
  match format.protocol, operation with
  | _, .event event => streamEvent outside format s event
  | .claude, operation =>
    let e := operation.apply s.toClaudeState
    ({ s with toClaudeState := e.state }, e.output.map .claude)
  | .openAi, _ => (s, [])

def encodeAll (outside : Outside) (format : StreamFormat) (s : StreamState) : List Operation → StreamState × List Frame
  | [] => (s, [])
  | operation :: rest =>
    let (s, first) := encode outside format s operation
    let (s, later) := encodeAll outside format s rest
    (s, first ++ later)

end KiroProxy.Http

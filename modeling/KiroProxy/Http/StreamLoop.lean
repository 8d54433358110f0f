import KiroProxy.Http.OpenAiStream
import KiroProxy.Http.StreamRound

/-! The response loop of a stream: what is heard of upstream, what is held back of it, and what a
failed or an empty answer is followed by. -/
namespace KiroProxy.Http

open Kiro

structure StreamRequest where
  context : StreamContext
  format : StreamFormat
  config : RoundsConfig
  includeUsageChunk : Bool := false
  webToolNames : List (String × String) := []
  bufferToolCalls : Bool := false
  compactionSummary : Option String := none
  resumed : Resumed := {}

/-- What the loop does after a failure, as far as it may: with a new token, with another model, on
another account, or nothing. The first two keep the encoder; the prompt may be counted anew. -/
inductive Recovery where
  | refreshed
  | fellBack (inputTokens : Nat)
  | switched (inputTokens : Nat)
  | failed

/-- One answer of upstream, and what the outside decides on its way: the events before its end and
those that the content filters flush, a failure in between, the sealing of search results, the
limits and checks of the next request and its size, and what the prompt cache makes of the usage. -/
structure Attempt where
  round : Round
  flush : List KiroEvent := []
  failure : Option String := none
  tryEncrypt : Encrypt
  retryLimit : Nat := 0
  recovery : Recovery := .failed
  budgetKnown : Bool := true
  nextInputTokens : Nat := 0
  commit : UsageInfo → UsageInfo := id

/-! ### What is heard -/

def eventIsToolSearch (catalog : Option ClaudeToolSearchCatalog) : KiroEvent → Bool
  | .toolUse _ name _ _ => catalog.any (·.isSearchTool name)
  | _ => false

def eventIsWebSearch (maxRounds : Nat) : KiroEvent → Bool
  | .toolUse _ name _ _ => 0 < maxRounds ∧ name = "web_search"
  | _ => false

def shouldBufferToolEvent (configured : Bool) (identities : List (String × OpenAiToolIdentity)) : KiroEvent → Bool
  | .toolUse _ name _ _ => configured || (identities.lookup name).any (·.kind = "custom")
  | _ => false

structure Hearing where
  stopFilter : StopSequenceFilter
  decoded : DecodedResponse := {}
  upstreamToolNames : List (String × String) := []

section Loop

variable (outside : Outside) (request : StreamRequest)

/-- One event, with the events it lets the client see: calls of the proxy's own tools are not among them, nor
calls that are held back until they are complete. -/
def Hearing.push (buffers : Bool) (h : Hearing) (event : KiroEvent) : Hearing × List KiroEvent × Option String :=
  let (event, upstreamToolNames) := restoreToolEventName h.upstreamToolNames event
  let internal := eventIsToolSearch request.config.toolSearch event ||
    eventIsWebSearch request.config.webSearchMaxRounds event
  let event := if internal then event else restoreWebToolName request.webToolNames event
  let (stopFilter, flushed) := h.stopFilter.flushBefore event
  let (stopFilter, visible) := clientVisibleEvent stopFilter event
  let shown := visible.filter fun event =>
    !internal && !shouldBufferToolEvent buffers request.format.openaiTools event
  let shown := (if flushed = "" then [] else [.assistantResponse flushed]) ++ shown.toList
  match h.decoded.push outside event with
  | .ok decoded => (⟨stopFilter, decoded, upstreamToolNames⟩, shown, none)
  | .error message => (⟨stopFilter, h.decoded, upstreamToolNames⟩, shown, some message)

def Hearing.pushAll (buffers : Bool) : Hearing → List KiroEvent → Hearing × List KiroEvent × Option String
  | h, [] => (h, [], none)
  | h, event :: rest =>
    let (h, shown, failed) := h.push outside request buffers event
    if failed.isSome ∨ h.stopFilter.matched.isSome then (h, shown, failed)
    else
      let (h, later, failed) := Hearing.pushAll buffers h rest
      (h, shown ++ later, failed)

def Hearing.listen (buffers : Bool) (h : Hearing) (attempt : Attempt) : Hearing × List KiroEvent × Option String :=
  let (h, shown, failed) := h.pushAll outside request buffers attempt.round.events
  if h.stopFilter.matched.isSome then (h, shown, failed)
  else
    let (h, flushed, error) := h.pushAll outside request buffers attempt.flush
    (h, shown ++ flushed, error.or (failed.or attempt.failure))

def Hearing.read (buffers : Bool) (h : Hearing) (attempt : Attempt) : Hearing × List KiroEvent × Option String :=
  let (h, shown, failed) := h.listen outside request buffers attempt
  if failed.isNone ∧ h.stopFilter.matched.isNone then
    match h.decoded.finalizeToolInputs outside with
    | .ok decoded => ({ h with decoded := decoded }, shown, none)
    | .error message => (h, shown, some message)
  else (h, shown, failed)

/-! ### What is sent -/

/-- The encoder, the frames that wait for the first data, those that wait for the end of the round,
and those that the client has. -/
structure Channel where
  claude : StreamState
  pendingInitial : List Frame
  guardedOutput : List Frame := []
  dataStarted : Bool := false
  sent : List Frame := []

namespace Channel

def prependPendingInitial (pending output : List Frame) : List Frame × List Frame :=
  if output.isEmpty then (pending, []) else ([], pending ++ output)

def send (channel : Channel) (output : List Frame) : Channel :=
  { channel with dataStarted := channel.dataStarted || !output.isEmpty, sent := channel.sent ++ output }

def put (guards : Bool) (channel : Channel) (output : List Frame) : Channel :=
  let (pending, output) := prependPendingInitial channel.pendingInitial output
  let channel := { channel with pendingInitial := pending }
  if guards then { channel with guardedOutput := channel.guardedOutput ++ output } else channel.send output

def emit (guards : Bool) (channel : Channel) (event : KiroEvent) : Channel :=
  let (claude, output) := streamEvent outside request.format channel.claude event
  { channel with claude := claude }.put guards output

def flushInitial (guards : Bool) (channel : Channel) : Channel :=
  let output := channel.pendingInitial
  let channel := { channel with pendingInitial := [] }
  if guards then { channel with guardedOutput := channel.guardedOutput ++ output } else channel.send output

def flushGuarded (channel : Channel) : Channel := { channel.send channel.guardedOutput with guardedOutput := [] }

def restore (checkpoint channel : Channel) : Channel :=
  { channel with claude := checkpoint.claude, pendingInitial := checkpoint.pendingInitial, guardedOutput := [] }

def perform (channel : Channel) (operations : List Operation) : Channel :=
  let (claude, output) := encodeAll outside request.format channel.claude operations
  { channel with claude := claude }.send output

end Channel

def Operation.sealed : Operation → Bool
  | .webSearch tryEncrypt search => search.emission = .pending ∨ (ClaudeState.webSearchContent tryEncrypt search).isSome
  | _ => true

def buildState (inputTokens : Nat) : StreamState where
  toClaudeState := buildClaudeState { request.context with inputTokens := inputTokens }
  openaiIncludeUsage := request.includeUsageChunk

/-- `claude_initial_events`: a compaction, and the searches that earlier turns left open. -/
def initialOperations (tryEncrypt : Encrypt) (searches : List ClaudeToolSearchTrace) (webSearches : List ClaudeWebSearchTrace) :
    List Operation :=
  match request.format.protocol with
  | .openAi => []
  | .claude => (request.compactionSummary.map .compaction).toList ++ request.resumed.serverEvents.filterMap fun
    | .toolSearch index _ => searches[index]?.map .toolSearch
    | .webSearch index _ => webSearches[index]?.map (.webSearch tryEncrypt)

/-! ### After a round -/

structure StreamRecord where
  accumulatedUsage : UsageInfo := {}
  accumulatedText : String := ""
  accumulatedSearches : List ClaudeToolSearchTrace
  accumulatedWebSearches : List ClaudeWebSearchTrace
  autoRound : Nat := 0
  searchRound : Nat := 0
  toolSearchOperations : Nat
  webSearchRound : Nat

def StreamRecord.new : StreamRecord where
  accumulatedSearches := request.resumed.toolSearches
  accumulatedWebSearches := request.resumed.webSearches
  toolSearchOperations := request.resumed.toolSearchOperations
  webSearchRound := request.resumed.webSearches.countP (·.executed)

def StreamRecord.add (record : StreamRecord) (calls : List SearchCall) : StreamRecord :=
  { record with
    accumulatedSearches := record.accumulatedSearches ++ calls.filterMap fun
      | .tool _ trace => some trace
      | .web _ _ => none
    accumulatedWebSearches := record.accumulatedWebSearches ++ calls.filterMap fun
      | .tool _ _ => none
      | .web _ trace => some trace }

def StreamRecord.close (record : StreamRecord) (decoded : DecodedResponse) : StreamRecord :=
  { record with
    accumulatedText := record.accumulatedText ++ decoded.text
    accumulatedUsage := mergeRoundUsage record.accumulatedUsage decoded.usage }

structure StreamEnding where
  stopFilter : StopSequenceFilter
  record : StreamRecord
  decoded : DecodedResponse
  tryEncrypt : Encrypt
  commit : UsageInfo → UsageInfo

inductive Conclusion where
  | another (record : StreamRecord) (decoded : DecodedResponse)
  | ends (record : StreamRecord) (decoded : DecodedResponse)
  | fails

/-- The searches of an accepted round, which are sent first, and what comes then. -/
def StreamRecord.conclude (record : StreamRecord) (attempt : Attempt) (outputExhausted : Bool)
    (decoded : DecodedResponse) : List SearchCall × Conclusion :=
  let config := request.config
  let round := attempt.round
  let goOn := fun record decoded => if round.continues then Conclusion.another record decoded else .fails
  let catalog := config.toolSearch.getD []
  let webUsesOf := fun decoded : DecodedResponse =>
    if config.webSearchMaxRounds > 0 then decoded.takeToolUsesWhere outside fun tool => tool.name = "web_search"
    else (decoded, [])
  let (decoded, toolUses) := decoded.takeToolUsesWhere outside fun tool => catalog.isSearchTool tool.name
  let (decoded, webUses) := webUsesOf decoded
  if toolUses ≠ [] then
    let pending := pendingCalls catalog round toolUses webUses
    if record.searchRound ≥ max 1 (min config.toolSearchMaxRounds 8) then
      (pending, .ends (record.add pending)
        (stopFor decoded (some (if outputExhausted then "max_tokens" else "pause_turn"))))
    else if decoded.tools ≠ [] ∨ outputExhausted then
      (pending, .ends (record.add pending) (stopFor decoded (if outputExhausted then some "max_tokens" else none)))
    else if attempt.budgetKnown then
      let (tools, operations) := runToolSearches config catalog round record.toolSearchOperations 0 toolUses
      let (webs, searches) := runWebSearches config round (parallelLimitMessage config) record.webSearchRound
        toolUses.length webUses
      (tools ++ webs, goOn { (record.add (tools ++ webs)).close decoded with
        toolSearchOperations := operations, webSearchRound := searches, searchRound := record.searchRound + 1 } {})
    else ([], .fails)
  else if webUses ≠ [] then
    if decoded.tools ≠ [] ∨ outputExhausted then
      let pending := pendingCalls [] round [] webUses
      (pending, .ends (record.add pending) (stopFor decoded (if outputExhausted then some "max_tokens" else none)))
    else
      let (webs, searches) := runWebSearches config round (webLimitMessage config) record.webSearchRound 0 webUses
      (webs, goOn { (record.add webs).close decoded with webSearchRound := searches } {})
  else if config.clientHasTools ∨ decoded.tools = [] ∨ outputExhausted ∨ record.autoRound ≥ config.autoContinueRounds then
    ([], .ends record (stopFor decoded (if outputExhausted then some "max_tokens" else none)))
  else
    -- signature, redacted thinking and citations stay in the record of the next round
    ([], goOn { record.close decoded with autoRound := record.autoRound + 1 }
      { decoded with text := "", reasoning := "", tools := [], usage := {} })

def callOperations (tryEncrypt : Encrypt) (calls : List SearchCall) : List Operation :=
  match request.format.protocol with
  | .openAi => []
  | .claude => calls.map fun
    | .tool _ trace => .toolSearch trace
    | .web _ trace => .webSearch tryEncrypt trace

/-- The frames up to the first search that cannot be sealed, which fails the stream. -/
def StreamRecord.proceed (record : StreamRecord) (attempt : Attempt) (outputExhausted : Bool) (decoded : DecodedResponse) :
    List Operation × Conclusion :=
  let (calls, conclusion) := record.conclude outside request attempt outputExhausted decoded
  let operations := callOperations request attempt.tryEncrypt calls
  if operations.all Operation.sealed then (operations, conclusion) else (operations.takeWhile Operation.sealed, .fails)

/-- The end of a stream: the text held back, citations, the calls held back, and the finish. -/
def closingFrames (buffers : Bool) (claude : StreamState) (ending : StreamEnding) : List Frame :=
  let format := request.format
  let (stopFilter, trailing) := ending.stopFilter.finish
  let (claude, text) := encodeAll outside format claude
    (if trailing = "" then [] else [.event (.assistantResponse trailing)])
  let decoded := applyStreamStop { ending.decoded with
    text := ending.record.accumulatedText ++ ending.decoded.text
    toolSearches := ending.record.accumulatedSearches
    webSearches := ending.record.accumulatedWebSearches
    usage := mergeRoundUsage ending.decoded.usage ending.record.accumulatedUsage } stopFilter
  let currentRoundOutputTokens := decoded.usage.outputTokens
  let decoded := { decoded with usage := ending.commit decoded.usage }
  let cited := if format.protocol = .claude ∧ decoded.text ≠ "" then
      claude.toClaudeState.citations ending.tryEncrypt decoded.webSearches decoded.text
    else some claude.toClaudeState.begin
  match cited with
  | none => text
  | some e =>
    let claude := { claude with toClaudeState := e.state }
    let calls := decoded.tools.map fun (_, tool) => KiroEvent.toolUse tool.id tool.name tool.input true
    let (claude, called) := encodeAll outside format claude
      ((calls.filter (shouldBufferToolEvent buffers format.openaiTools)).map .event)
    text ++ e.output.map .claude ++ called ++ finishFrames format claude decoded request.config.maxOutputTokens
      currentRoundOutputTokens request.includeUsageChunk

/-! ### The loop -/

structure StreamLoop where
  channel : Channel
  stopFilter : StopSequenceFilter
  decoded : DecodedResponse := {}
  record : StreamRecord
  inputTokens : Nat
  buffers : Bool
  preDataRetries : Nat := 0
  emptyToolResultRetries : Nat := 0
  ended : Bool := false

namespace StreamLoop

/-- Calls are held back when the proxy runs tools of its own, and while a prelude waits for data. -/
def start (tryEncrypt : Encrypt) : StreamLoop :=
  let operations := initialOperations request tryEncrypt request.resumed.toolSearches request.resumed.webSearches
  let (claude, pending) := encodeAll outside request.format (buildState request request.context.inputTokens) operations
  { channel := { claude := claude, pendingInitial := pending }
    stopFilter := .new request.config.stopSequences
    record := .new request
    inputTokens := request.context.inputTokens
    buffers := request.bufferToolCalls || request.config.toolSearch.isSome || 0 < request.config.webSearchMaxRounds ||
      !pending.isEmpty
    ended := !operations.all Operation.sealed }

def again (loop : StreamLoop) : StreamLoop :=
  { loop with decoded := {}, stopFilter := .new request.config.stopSequences }

def fail (loop : StreamLoop) : StreamLoop := { loop with ended := true }

/-- No failure is retried once the client has data. -/
def recover (attempt : Attempt) (loop : StreamLoop) : StreamLoop :=
  if loop.channel.dataStarted ∨ attempt.retryLimit ≤ loop.preDataRetries then loop.fail
  else
    let retried := { loop.again request with preDataRetries := loop.preDataRetries + 1 }
    match attempt.recovery with
    | .refreshed => retried
    | .fellBack inputTokens => { retried with inputTokens := inputTokens }
    | .switched inputTokens =>
      let operations := initialOperations request attempt.tryEncrypt loop.record.accumulatedSearches
        loop.record.accumulatedWebSearches
      if operations.all Operation.sealed then
        let (claude, pending) := encodeAll outside request.format (buildState request inputTokens) operations
        { retried with
          inputTokens := inputTokens
          channel := { loop.channel with claude := claude, pendingInitial := pending } }
      else loop.fail
    | .failed => loop.fail

def finish (loop : StreamLoop) (attempt : Attempt) (record : StreamRecord) (decoded : DecodedResponse) : StreamLoop :=
  { loop with
    channel := loop.channel.send (closingFrames outside request loop.buffers loop.channel.claude
      ⟨loop.stopFilter, record, decoded, attempt.tryEncrypt, attempt.commit⟩)
    ended := true }

def accept (loop : StreamLoop) (attempt : Attempt) (outputExhausted : Bool) (decoded : DecodedResponse) : StreamLoop :=
  let (operations, conclusion) := loop.record.proceed outside request attempt outputExhausted decoded
  let loop := { loop with channel := loop.channel.flushGuarded.perform outside request operations }
  match conclusion with
  | .another record decoded =>
    { loop with
      record := record, decoded := decoded, inputTokens := attempt.nextInputTokens, emptyToolResultRetries := 0 }
  | .ends record decoded => loop.finish outside request attempt record decoded
  | .fails => loop.fail

def outputExhausted (record : StreamRecord) (decoded : DecodedResponse) : Bool :=
  request.config.maxOutputTokens.any
    (· ≤ saturatingAdd record.accumulatedUsage.outputTokens decoded.usage.outputTokens)

/-- A round that was heard without a failure. After tool results an answer has to say something. -/
def complete (checkpoint : Channel) (attempt : Attempt) (loop : StreamLoop) : StreamLoop :=
  let decoded := fillMissingUsage outside attempt.round.tokenizer loop.decoded
  let loop := { loop with preDataRetries := 0, channel := loop.channel.flushInitial attempt.round.toolResults }
  if loop.stopFilter.matched.isSome then
    { loop with channel := loop.channel.flushGuarded }.finish outside request attempt loop.record decoded
  else
    let exhausted := outputExhausted request loop.record decoded
    match emptyToolResultDisposition attempt.round.toolResults decoded exhausted loop.emptyToolResultRetries with
    | .accept => loop.accept outside request attempt exhausted decoded
    | .retry =>
      let loop := { loop.again request with
        channel := checkpoint.restore loop.channel
        record := { loop.record with accumulatedUsage := mergeRoundUsage loop.record.accumulatedUsage decoded.usage }
        inputTokens := attempt.nextInputTokens
        emptyToolResultRetries := loop.emptyToolResultRetries + 1 }
      if attempt.round.continues then loop else loop.fail
    | .fail => { loop with channel := checkpoint.restore loop.channel }.fail

def heard (loop : StreamLoop) (attempt : Attempt) : Hearing × List KiroEvent × Option String :=
  ({ stopFilter := loop.stopFilter, decoded := loop.decoded } : Hearing).read outside request loop.buffers attempt

def step (loop : StreamLoop) (attempt : Attempt) : StreamLoop :=
  if loop.ended then loop
  else
    let (hearing, shown, failed) := loop.heard outside request attempt
    let guards := attempt.round.toolResults
    let next := { loop with
      channel := shown.foldl (Channel.emit outside request guards) loop.channel
      stopFilter := hearing.stopFilter
      decoded := hearing.decoded }
    if failed.isSome then
      { next with channel := if guards then loop.channel.restore next.channel else next.channel }.recover outside request
        attempt
    else next.complete outside request loop.channel attempt

end StreamLoop
end Loop
end KiroProxy.Http

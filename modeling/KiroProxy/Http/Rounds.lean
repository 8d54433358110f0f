import KiroProxy.Http.Decode

/-! The rounds of an answer that is not streamed: searches the proxy runs itself, automatic
continuations and retries of empty answers, put together into one response. -/
namespace KiroProxy.Http

open Kiro

abbrev ClaudeToolSearchCatalog := List (String × String)

namespace ClaudeToolSearchCatalog

def isSearchTool (catalog : ClaudeToolSearchCatalog) (name : String) : Bool := (catalog.lookup name).isSome

def responseName (catalog : ClaudeToolSearchCatalog) (toolUse : KiroToolUse) : String :=
  (catalog.lookup toolUse.name).getD toolUse.name

def pendingTrace (catalog : ClaudeToolSearchCatalog) (toolUse : KiroToolUse) : ClaudeToolSearchTrace where
  id := toolUse.toolUseId
  name := catalog.responseName toolUse
  input := toolUse.input
  references := []
  error := none
  emission := .pending

def unavailableTrace (catalog : ClaudeToolSearchCatalog) (toolUse : KiroToolUse) (message : String) :
    ClaudeToolSearchTrace where
  id := toolUse.toolUseId
  name := catalog.responseName toolUse
  input := toolUse.input
  references := []
  error := some ⟨"unavailable", message⟩
  emission := .complete

end ClaudeToolSearchCatalog

namespace ClaudeWebSearchTrace

def ofQuery (id query : String) (results : List WebSearchResult) (error : Option ClaudeWebSearchError)
    (executed : Bool) : ClaudeWebSearchTrace where
  id := id
  input := .object [("query", .string query)]
  results := results
  error := error
  emission := .complete
  executed := executed

def pending (id : String) (input : Value) : ClaudeWebSearchTrace where
  id := id
  input := input
  results := []
  error := none
  emission := .pending
  executed := false

end ClaudeWebSearchTrace

structure RoundsConfig where
  toolSearch : Option ClaudeToolSearchCatalog := none
  toolSearchMaxRounds : Nat := 1
  maxToolSearchOperations : Nat := 0
  webSearchMaxRounds : Nat := 0
  webSearchClientLimit : Bool := false
  maxOutputTokens : Option Nat := none
  stopSequences : List String := []
  clientHasTools : Bool := false
  autoContinueRounds : Nat := 0

/-- One answer of upstream and what the outside decides while it is handled: the events after the
two content filters, their flush included; whether the message it answers brought tool results;
the outcomes of searches; fresh ids; and whether the next request could be sent. -/
structure Round where
  events : List KiroEvent
  toolResults : Bool
  tokenizer : Tokenizer
  toolSearch : KiroToolUse → Except String ClaudeToolSearchTrace
  webSearch : String → Except ClaudeWebSearchError (List WebSearchResult)
  serverId : Nat → String
  continues : Bool

inductive SearchCall where
  | tool (toolUse : KiroToolUse) (trace : ClaudeToolSearchTrace)
  | web (toolUse : KiroToolUse) (trace : ClaudeWebSearchTrace)

def mergeRoundUsage (total addition : UsageInfo) : UsageInfo where
  inputTokens := saturatingAdd total.inputTokens addition.inputTokens
  outputTokens := saturatingAdd total.outputTokens addition.outputTokens
  credits := total.credits + addition.credits
  cacheReadTokens := saturatingAdd total.cacheReadTokens addition.cacheReadTokens
  cacheWriteTokens := saturatingAdd total.cacheWriteTokens addition.cacheWriteTokens
  reasoningTokens := saturatingAdd total.reasoningTokens addition.reasoningTokens

structure Rounds where
  decoded : DecodedResponse := {}
  accumulatedUsage : UsageInfo := {}
  accumulatedText : String := ""
  accumulatedReasoning : String := ""
  accumulatedSearches : List ClaudeToolSearchTrace
  accumulatedWebSearches : List ClaudeWebSearchTrace
  accumulatedServerEvents : List ClaudeServerEvent
  round : Nat := 0
  searchRound : Nat := 0
  emptyToolResultRetries : Nat := 0
  toolSearchOperations : Nat
  webSearchRound : Nat

structure Resumed where
  toolSearches : List ClaudeToolSearchTrace := []
  webSearches : List ClaudeWebSearchTrace := []
  serverEvents : List ClaudeServerEvent := []
  toolSearchOperations : Nat := 0

def Rounds.new (resumed : Resumed) : Rounds where
  accumulatedSearches := resumed.toolSearches
  accumulatedWebSearches := resumed.webSearches
  accumulatedServerEvents := resumed.serverEvents
  toolSearchOperations := resumed.toolSearchOperations
  webSearchRound := resumed.webSearches.countP (·.executed)

inductive Outcome where
  | failed
  | retried (next : Rounds)
  | searched (calls : List SearchCall) (next : Rounds)
  | continued (next : Rounds)
  | finished (calls : List SearchCall) (decoded : DecodedResponse)

def maxEmptyToolResultRetries : Nat := 1

inductive EmptyToolResultDisposition where
  | accept
  | retry
  | fail
  deriving DecidableEq

def emptyToolResultDisposition (toolResults : Bool) (decoded : DecodedResponse) (outputExhausted : Bool)
    (retries : Nat) : EmptyToolResultDisposition :=
  if toolResults ∧ Text.trim decoded.text = "" ∧ decoded.tools = [] ∧ decoded.stopReason = none ∧
      decoded.stopSequence = none ∧ outputExhausted = false then
    if retries < maxEmptyToolResultRetries then .retry else .fail
  else .accept

/-- Every call gets a server event that points at its trace; the first takes the text before it. -/
def Rounds.record (s : Rounds) (precedingText : String) : List SearchCall → Rounds
  | [] => s
  | .tool _ trace :: rest => Rounds.record { s with
      accumulatedServerEvents := s.accumulatedServerEvents ++ [.toolSearch s.accumulatedSearches.length precedingText]
      accumulatedSearches := s.accumulatedSearches ++ [trace] } "" rest
  | .web _ trace :: rest => Rounds.record { s with
      accumulatedServerEvents := s.accumulatedServerEvents ++ [.webSearch s.accumulatedWebSearches.length precedingText]
      accumulatedWebSearches := s.accumulatedWebSearches ++ [trace] } "" rest

def pendingCalls (catalog : ClaudeToolSearchCatalog) (round : Round) (toolUses webUses : List KiroToolUse) :
    List SearchCall :=
  toolUses.mapIdx (fun i use => .tool use { catalog.pendingTrace use with id := round.serverId i }) ++
    webUses.mapIdx fun i use => .web use (.pending (round.serverId (toolUses.length + i)) use.input)

def toolSearchTrace (config : RoundsConfig) (catalog : ClaudeToolSearchCatalog) (round : Round) (operations : Nat)
    (use : KiroToolUse) : ClaudeToolSearchTrace × Nat :=
  if operations ≥ config.maxToolSearchOperations then
    (catalog.unavailableTrace use
      ("Tool Search operation limit of " ++ toString config.maxToolSearchOperations ++ " was reached"), operations)
  else match round.toolSearch use with
    | .ok trace => (trace, operations + 1)
    | .error message => (catalog.unavailableTrace use message, operations + 1)

/-- The searches of the catalogue, one after the other, while operations are left. -/
def runToolSearches (config : RoundsConfig) (catalog : ClaudeToolSearchCatalog) (round : Round) :
    Nat → Nat → List KiroToolUse → List SearchCall × Nat
  | operations, _, [] => ([], operations)
  | operations, i, use :: rest =>
    let (trace, operations) := toolSearchTrace config catalog round operations use
    let (calls, operations) := runToolSearches config catalog round operations (i + 1) rest
    (.tool use { trace with id := round.serverId i } :: calls, operations)

def webSearchTrace (config : RoundsConfig) (round : Round) (limitMessage id : String) (searches : Nat)
    (use : KiroToolUse) : ClaudeWebSearchTrace × Nat :=
  let query := Text.trim ((use.input.getStr "query").getD "")
  if searches ≥ config.webSearchMaxRounds then
    (.ofQuery id query [] (some ⟨if config.webSearchClientLimit then "max_uses_exceeded" else "unavailable",
      limitMessage⟩) false, searches)
  else if query = "" then
    (.ofQuery id query [] (some ⟨"invalid_tool_input", "web search query must not be empty"⟩) false, searches)
  else match round.webSearch query with
    | .ok results => (.ofQuery id query results none true, searches + 1)
    | .error error => (.ofQuery id query [] (some error) true, searches + 1)

def runWebSearches (config : RoundsConfig) (round : Round) (limitMessage : String) :
    Nat → Nat → List KiroToolUse → List SearchCall × Nat
  | searches, _, [] => ([], searches)
  | searches, i, use :: rest =>
    let (trace, searches) := webSearchTrace config round limitMessage (round.serverId i) searches use
    let (calls, searches) := runWebSearches config round limitMessage searches (i + 1) rest
    (.web use trace :: calls, searches)

def parallelLimitMessage (config : RoundsConfig) : String :=
  "web search is limited to " ++ toString config.webSearchMaxRounds ++ " uses"

def webLimitMessage (config : RoundsConfig) : String :=
  if config.webSearchClientLimit then "web search is limited to max_uses=" ++ toString config.webSearchMaxRounds
  else "web search reached the proxy safety limit of " ++ toString config.webSearchMaxRounds ++ " uses"

/-- The response, with everything the loop has gathered beside its text. -/
def Rounds.deliver (s : Rounds) : DecodedResponse := { s.decoded with
  reasoning := s.accumulatedReasoning ++ s.decoded.reasoning
  toolSearches := s.accumulatedSearches
  webSearches := s.accumulatedWebSearches
  claudeServerEvents := s.accumulatedServerEvents
  usage := mergeRoundUsage s.decoded.usage s.accumulatedUsage }

def Rounds.deliverText (s : Rounds) : DecodedResponse :=
  { s.deliver with text := s.accumulatedText ++ s.decoded.text }

def stopFor (decoded : DecodedResponse) (reason : Option String) : DecodedResponse :=
  if decoded.tools = [] then { decoded with stopReason := reason.or decoded.stopReason } else decoded

def Rounds.afterSearch (s : Rounds) : Rounds := { s with
  accumulatedReasoning := s.accumulatedReasoning ++ s.decoded.reasoning
  emptyToolResultRetries := 0
  accumulatedUsage := mergeRoundUsage s.accumulatedUsage s.decoded.usage
  decoded := {} }

def Rounds.next (s : Rounds) (round : Round) (outcome : Rounds → Outcome) : Outcome :=
  if round.continues then outcome s else .failed

def Rounds.toolSearchRound (config : RoundsConfig) (catalog : ClaudeToolSearchCatalog) (outputExhausted : Bool)
    (toolUses webUses : List KiroToolUse) (s : Rounds) (round : Round) : Outcome :=
  let precedingText := s.accumulatedText ++ s.decoded.text
  let s := { s with accumulatedText := "", decoded := { s.decoded with text := "" } }
  let pending := pendingCalls catalog round toolUses webUses
  if s.searchRound ≥ max 1 (min config.toolSearchMaxRounds 8) then
    .finished pending (stopFor (s.record precedingText pending).deliver
      (some (if outputExhausted then "max_tokens" else "pause_turn")))
  else if s.decoded.tools ≠ [] ∨ outputExhausted then
    .finished pending (stopFor (s.record precedingText pending).deliver
      (if outputExhausted then some "max_tokens" else none))
  else
    let (tools, operations) := runToolSearches config catalog round s.toolSearchOperations 0 toolUses
    let (webs, searches) := runWebSearches config round (parallelLimitMessage config) s.webSearchRound
      toolUses.length webUses
    let s := (s.record precedingText (tools ++ webs)).afterSearch
    Rounds.next { s with toolSearchOperations := operations, webSearchRound := searches, searchRound := s.searchRound + 1 }
      round (.searched (tools ++ webs))

def Rounds.webRound (config : RoundsConfig) (outputExhausted : Bool) (webUses : List KiroToolUse) (s : Rounds)
    (round : Round) : Outcome :=
  let precedingText := s.accumulatedText ++ s.decoded.text
  let s := { s with accumulatedText := "", decoded := { s.decoded with text := "" } }
  if s.decoded.tools ≠ [] ∨ outputExhausted then
    let pending := pendingCalls [] round [] webUses
    .finished pending (stopFor (s.record precedingText pending).deliver
      (if outputExhausted then some "max_tokens" else none))
  else
    let (webs, searches) := runWebSearches config round (webLimitMessage config) s.webSearchRound 0 webUses
    let s := (s.record precedingText webs).afterSearch
    Rounds.next { s with webSearchRound := searches } round (.searched webs)

/-- A round without searches: the answer, or another request with the calls it made. -/
def Rounds.plainRound (config : RoundsConfig) (outputExhausted : Bool) (s : Rounds) (round : Round) : Outcome :=
  if config.clientHasTools ∨ s.decoded.tools = [] ∨ outputExhausted ∨ s.round ≥ min config.autoContinueRounds 30 then
    .finished [] (stopFor s.deliverText (if outputExhausted then some "max_tokens" else none))
  else
    -- Signature, redacted thinking and citations stay in the record, beside those still to come.
    Rounds.next { s with
      accumulatedText := s.accumulatedText ++ s.decoded.text
      accumulatedReasoning := s.accumulatedReasoning ++ s.decoded.reasoning
      emptyToolResultRetries := 0
      accumulatedUsage := mergeRoundUsage s.accumulatedUsage s.decoded.usage
      decoded := { s.decoded with text := "", reasoning := "", tools := [], usage := {} }
      round := s.round + 1 } round .continued

def Rounds.acceptedRound (outside : Outside) (config : RoundsConfig) (outputExhausted : Bool) (s : Rounds)
    (round : Round) : Outcome :=
  let catalog := config.toolSearch.getD []
  let (decoded, toolUses) := s.decoded.takeToolUsesWhere outside fun tool => catalog.isSearchTool tool.name
  let (decoded, webUses) :=
    if config.webSearchMaxRounds > 0 then decoded.takeToolUsesWhere outside fun tool => tool.name = "web_search"
    else (decoded, [])
  let s := { s with decoded := decoded }
  if toolUses ≠ [] then s.toolSearchRound config catalog outputExhausted toolUses webUses round
  else if webUses ≠ [] then s.webRound config outputExhausted webUses round
  else s.plainRound config outputExhausted round

/-- The record of a round: its events, then its inputs completed and its usage filled in. -/
def decodeRound (outside : Outside) (config : RoundsConfig) (decoded : DecodedResponse) (round : Round) :
    Except String DecodedResponse := do
  let collected ← collectEvents outside { decoded := decoded, stopFilter := .new config.stopSequences } round.events
  let decoded ← if collected.decoded.stopSequence = none then collected.decoded.finalizeToolInputs outside
    else pure collected.decoded
  return fillMissingUsage outside round.tokenizer decoded

def Rounds.step (outside : Outside) (config : RoundsConfig) (s : Rounds) (round : Round) : Outcome :=
  match decodeRound outside config s.decoded round with
  | .error _ => .failed
  | .ok decoded =>
    let s := { s with decoded := decoded }
    if decoded.stopSequence.isSome then .finished [] s.deliverText
    else
      let outputExhausted := config.maxOutputTokens.any
        (· ≤ saturatingAdd s.accumulatedUsage.outputTokens decoded.usage.outputTokens)
      match emptyToolResultDisposition round.toolResults decoded outputExhausted s.emptyToolResultRetries with
      | .fail => .failed
      | .retry => Rounds.next { s with
          emptyToolResultRetries := s.emptyToolResultRetries + 1
          accumulatedUsage := mergeRoundUsage s.accumulatedUsage decoded.usage
          decoded := {} } round .retried
      | .accept => s.acceptedRound outside config outputExhausted round

/-- `collect_nonstream_rounds` over the answers of upstream; an error and a missing answer give no response. -/
def Rounds.collect (outside : Outside) (config : RoundsConfig) : Rounds → List Round → Option DecodedResponse
  | _, [] => none
  | s, round :: rest =>
    match s.step outside config round with
    | .failed => none
    | .retried next | .searched _ next | .continued next => next.collect outside config rest
    | .finished _ decoded => some decoded

end KiroProxy.Http

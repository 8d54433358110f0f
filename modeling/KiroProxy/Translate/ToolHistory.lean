import KiroProxy.Translate.Protocol
import Mathlib.Logic.Function.Basic

/-! Last-mile normalization for Kiro's strict tool-use history contract.
The passes run in the source's order with explicit state. Hash maps are total
functions whose default is the empty entry; hash sets are lists read by membership. -/
namespace KiroProxy.ToolHistory

open Text (trim eqIgnoreAsciiCase)

def missingResultText : String :=
  "The historical tool execution result is unavailable because the conversation history was incomplete."

/-- Counts repairs made before a Kiro generation request is sent upstream. -/
structure KiroToolHistoryStats where
  flattenedToolUses : Nat := 0
  flattenedToolResults : Nat := 0
  normalizedToolUses : Nat := 0
  removedInvalidToolUses : Nat := 0
  relocatedToolResults : Nat := 0
  synthesizedToolResults : Nat := 0
  normalizedToolResults : Nat := 0
  removedHistoricalToolDefinitions : Nat := 0
  removedDuplicateToolDefinitions : Nat := 0
  insertedMessages : Nat := 0
  deriving DecidableEq, Repr

def KiroToolHistoryStats.hasStructuredToolRepair (s : KiroToolHistoryStats) : Bool :=
  s.flattenedToolUses > 0 || s.flattenedToolResults > 0 || s.normalizedToolUses > 0 ||
    s.removedInvalidToolUses > 0 || s.relocatedToolResults > 0 || s.synthesizedToolResults > 0 ||
    s.normalizedToolResults > 0 || s.removedHistoricalToolDefinitions > 0 ||
    s.removedDuplicateToolDefinitions > 0

def KiroToolHistoryStats.repaired (s : KiroToolHistoryStats) : Bool :=
  s.hasStructuredToolRepair || s.insertedMessages > 0

inductive ConversationMessage where
  | user (user : KiroUserInputMessage)
  | assistant (assistant : KiroAssistantMessage)
  deriving Repr

structure SourcedResult where
  sourceIndex : Nat
  result : Option KiroToolResult
  deriving Repr

/-! ### Small parts -/

def takeToolResults (user : KiroUserInputMessage) : KiroUserInputMessage × List KiroToolResult :=
  match user.userInputMessageContext with
  | none => (user, [])
  | some context =>
    let cleared := { context with toolResults := [] }
    if context.tools.isEmpty && context.envState.isNone then
      ({ user with userInputMessageContext := none }, context.toolResults)
    else ({ user with userInputMessageContext := some cleared }, context.toolResults)

def addToolResults (user : KiroUserInputMessage) (results : List KiroToolResult) :
    KiroUserInputMessage :=
  if results.isEmpty then user
  else
    let context := user.userInputMessageContext.getD {}
    let extended := { context with toolResults := context.toolResults ++ results }
    { user with userInputMessageContext := some extended }

def missingResult (toolUseId : String) : KiroToolResult :=
  { content := [⟨missingResultText⟩], status := "error", toolUseId := toolUseId }

def normalizedStatus (status : String) : String :=
  if eqIgnoreAsciiCase status "success" then "success" else "error"

def normalizeResult (result : KiroToolResult) : KiroToolResult × Bool :=
  let status := normalizedStatus result.status
  let content := if result.content.isEmpty then [⟨"(empty tool result)"⟩] else result.content
  ({ result with status := status, content := content },
    decide (result.status ≠ status) || result.content.isEmpty)

def syntheticUser (template : KiroUserInputMessage) (content : String)
    (results : List KiroToolResult) : KiroUserInputMessage :=
  { content := content
    modelId := template.modelId
    origin := template.origin
    images := []
    documents := []
    cachePoint := none
    clientCacheConfig := none
    userInputMessageContext :=
      if results.isEmpty then none
      else some { toolResults := results, tools := [], envState := none } }

def syntheticAssistant : KiroAssistantMessage :=
  { content := "Continue.", cachePoint := none, toolUses := [] }

def renderToolUse (toolUse : KiroToolUse) : String :=
  Value.render (.object [("input", toolUse.input), ("record_type", .string "archived_tool_call"),
    ("tool_name", .string toolUse.name), ("tool_use_id", .string toolUse.toolUseId),
    ("untrusted", .bool true)])

def renderToolResult (result : KiroToolResult) : String :=
  Value.render (.object [("content", .array (result.content.map (fun part => .string part.text))),
    ("record_type", .string "archived_tool_result"), ("status", .string result.status),
    ("tool_use_id", .string result.toolUseId), ("untrusted", .bool true)])

def appendText (target addition : String) : String :=
  (if trim target ≠ "" then target ++ "\n\n" else target) ++ addition

/-! ### Definitions on the current message and in the history -/

/-- The `retain_mut` pass: the first definition of each trimmed name stays. -/
def retainDefinitions : List KiroTool → List String → KiroToolHistoryStats →
    List KiroTool × List String × KiroToolHistoryStats
  | [], names, stats => ([], names, stats)
  | .cachePoint point :: rest, names, stats =>
    let (tools, names, stats) := retainDefinitions rest names stats
    (.cachePoint point :: tools, names, stats)
  | .specification spec :: rest, names, stats =>
    let name := trim spec.name
    if name ≠ "" ∧ name ∉ names then
      let (tools, names, stats) := retainDefinitions rest (names ++ [name]) stats
      (.specification { spec with name := name } :: tools, names, stats)
    else
      retainDefinitions rest names
        { stats with removedDuplicateToolDefinitions := stats.removedDuplicateToolDefinitions + 1 }

def sanitizeCurrentToolDefinitions (context : Option KiroMessageContext)
    (stats : KiroToolHistoryStats) :
    Option KiroMessageContext × List String × KiroToolHistoryStats :=
  match context with
  | none => (none, [], stats)
  | some context =>
    let (tools, names, stats) := retainDefinitions context.tools [] stats
    (some { context with tools := tools }, names, stats)

def clearDefinitions (user : KiroUserInputMessage) (stats : KiroToolHistoryStats) :
    KiroUserInputMessage × KiroToolHistoryStats :=
  match user.userInputMessageContext with
  | none => (user, stats)
  | some context =>
    let stats := { stats with removedHistoricalToolDefinitions :=
      stats.removedHistoricalToolDefinitions + context.tools.length }
    let cleared := { context with tools := [], envState := none }
    if context.toolResults.isEmpty then ({ user with userInputMessageContext := none }, stats)
    else ({ user with userInputMessageContext := some cleared }, stats)

/-- One history item gives its user message, then its assistant message. -/
def takeHistory : List KiroHistoryMessage → KiroToolHistoryStats →
    List ConversationMessage × KiroToolHistoryStats
  | [], stats => ([], stats)
  | item :: rest, stats =>
    let (users, stats) := match item.userInputMessage with
      | none => ([], stats)
      | some user =>
        let (user, stats) := clearDefinitions user stats
        ([ConversationMessage.user user], stats)
    let assistants := match item.assistantResponseMessage with
      | none => []
      | some assistant => [ConversationMessage.assistant assistant]
    let (messages, stats) := takeHistory rest stats
    (users ++ assistants ++ messages, stats)

/-! ### Pairing of calls with results -/

structure ResultTable where
  results : List SourcedResult := []
  resultIndexes : String → List Nat := fun _ => []

def ResultTable.push (table : ResultTable) (sourceIndex : Nat) (result : KiroToolResult) :
    ResultTable :=
  let id := trim result.toolUseId
  { results := table.results ++ [⟨sourceIndex, some result⟩]
    resultIndexes := Function.update table.resultIndexes id
      (table.resultIndexes id ++ [table.results.length]) }

def collectResults : Nat → List ConversationMessage → ResultTable →
    List ConversationMessage × ResultTable
  | _, [], table => ([], table)
  | index, .assistant assistant :: rest, table =>
    let (messages, table) := collectResults (index + 1) rest table
    (.assistant assistant :: messages, table)
  | index, .user user :: rest, table =>
    let (user, results) := takeToolResults user
    let table := results.foldl (fun table result => table.push index result) table
    let (messages, table) := collectResults (index + 1) rest table
    (.user user :: messages, table)

def toolUsesOf : ConversationMessage → List KiroToolUse
  | .user _ => []
  | .assistant assistant => assistant.toolUses

def toolUseIdCounts (messages : List ConversationMessage) : String → Nat :=
  (((messages.flatMap toolUsesOf).map (fun toolUse => trim toolUse.toolUseId)).filter (· ≠ "")).foldl
    (fun counts id => Function.update counts id (counts id + 1)) (fun _ => 0)

def duplicateId (counts : String → Nat) (toolUse : KiroToolUse) : Bool :=
  trim toolUse.toolUseId ≠ "" && counts (trim toolUse.toolUseId) > 1

def malformed (counts : String → Nat) (toolUse : KiroToolUse) : Bool :=
  trim toolUse.name = "" || trim toolUse.toolUseId = "" || duplicateId counts toolUse ||
    !toolUse.input.isObject

def undefinedTool (activeToolNames : List String) (toolUse : KiroToolUse) : Bool :=
  trim toolUse.name ≠ "" && !(activeToolNames.contains (trim toolUse.name))

structure PairingState where
  table : ResultTable
  scheduled : Nat → List KiroToolResult := fun _ => []
  stats : KiroToolHistoryStats

/-- Drops the indices of results located at or before the call, then pops one. -/
def popMatching (table : ResultTable) (assistantIndex : Nat) (id : String) :
    Option Nat × ResultTable :=
  let later := (table.resultIndexes id).dropWhile
    (fun index => (table.results[index]?).any (fun r => decide (r.sourceIndex ≤ assistantIndex)))
  match later with
  | [] => (none, { table with resultIndexes := Function.update table.resultIndexes id [] })
  | index :: rest => (some index, { table with resultIndexes := Function.update table.resultIndexes id rest })

/-- `candidate.result.take()` at an index of the table. -/
def takeResult (table : ResultTable) (index : Nat) : Option (Nat × KiroToolResult) × ResultTable :=
  match table.results[index]? with
  | none => (none, table)
  | some candidate =>
    (candidate.result.map (fun result => (candidate.sourceIndex, result)),
      { table with results := table.results.set index { candidate with result := none } })

/-- The matched result brought to the shape Kiro accepts, under the id of its call. -/
def repairResult (toolUseId : String) (assistantIndex sourceIndex : Nat) (result : KiroToolResult)
    (stats : KiroToolHistoryStats) : KiroToolResult × KiroToolHistoryStats :=
  let stats := if sourceIndex ≠ assistantIndex + 1 then
      { stats with relocatedToolResults := stats.relocatedToolResults + 1 } else stats
  let (normal, changed) := normalizeResult result
  let stats := if changed || decide (normal.toolUseId ≠ toolUseId) then
      { stats with normalizedToolResults := stats.normalizedToolResults + 1 } else stats
  ({ normal with toolUseId := toolUseId }, stats)

def trimmedUse (toolUse : KiroToolUse) : KiroToolUse :=
  { toolUse with name := trim toolUse.name, toolUseId := trim toolUse.toolUseId }

/-- The structured branch: the call's identity is trimmed and one result is scheduled for it. -/
def pairUse (assistantIndex : Nat) (toolUse : KiroToolUse) (state : PairingState) : PairingState :=
  let id := trim toolUse.toolUseId
  let stats := if trim toolUse.name ≠ toolUse.name ∨ id ≠ toolUse.toolUseId then
      { state.stats with normalizedToolUses := state.stats.normalizedToolUses + 1 } else state.stats
  let (matching, table) := popMatching state.table assistantIndex id
  let (found, table) := match matching with
    | none => (none, table)
    | some index => takeResult table index
  let (result, stats) := match found with
    | some (sourceIndex, result) => repairResult id assistantIndex sourceIndex result stats
    | none => (missingResult id,
        { stats with synthesizedToolResults := stats.synthesizedToolResults + 1 })
  { table := table
    scheduled := Function.update state.scheduled assistantIndex
      (state.scheduled assistantIndex ++ [result])
    stats := stats }

def archiveUseStats (counts : String → Nat) (toolUse : KiroToolUse) (stats : KiroToolHistoryStats) :
    KiroToolHistoryStats :=
  let stats := { stats with flattenedToolUses := stats.flattenedToolUses + 1 }
  if malformed counts toolUse then
    { stats with removedInvalidToolUses := stats.removedInvalidToolUses + 1 } else stats

def repairUses (counts : String → Nat) (activeToolNames : List String) (assistantIndex : Nat) :
    List KiroToolUse → String → PairingState → String × List KiroToolUse × PairingState
  | [], content, state => (content, [], state)
  | toolUse :: rest, content, state =>
    if malformed counts toolUse || undefinedTool activeToolNames toolUse then
      repairUses counts activeToolNames assistantIndex rest
        (appendText content (renderToolUse toolUse))
        { state with stats := archiveUseStats counts toolUse state.stats }
    else
      let (content, repaired, state) := repairUses counts activeToolNames assistantIndex rest content
        (pairUse assistantIndex toolUse state)
      (content, trimmedUse toolUse :: repaired, state)

def repairAssistants (counts : String → Nat) (activeToolNames : List String) :
    Nat → List ConversationMessage → PairingState → List ConversationMessage × PairingState
  | _, [], state => ([], state)
  | index, .user user :: rest, state =>
    let (messages, state) := repairAssistants counts activeToolNames (index + 1) rest state
    (.user user :: messages, state)
  | index, .assistant assistant :: rest, state =>
    let (content, uses, state) :=
      repairUses counts activeToolNames index assistant.toolUses assistant.content state
    let (messages, state) := repairAssistants counts activeToolNames (index + 1) rest state
    (.assistant { assistant with content := content, toolUses := uses } :: messages, state)

def archiveResult (messages : List ConversationMessage) (stats : KiroToolHistoryStats)
    (candidate : SourcedResult) : List ConversationMessage × KiroToolHistoryStats :=
  match candidate.result, messages[candidate.sourceIndex]? with
  | some result, some (.user user) =>
    (messages.set candidate.sourceIndex
      (.user { user with content := appendText user.content (renderToolResult result) }),
      { stats with flattenedToolResults := stats.flattenedToolResults + 1 })
  | _, _ => (messages, stats)

def archiveResults : List SourcedResult → List ConversationMessage → KiroToolHistoryStats →
    List ConversationMessage × KiroToolHistoryStats
  | [], messages, stats => (messages, stats)
  | candidate :: rest, messages, stats =>
    let (messages, stats) := archiveResult messages stats candidate
    archiveResults rest messages stats

def repairToolPairs (messages : List ConversationMessage) (activeToolNames : List String)
    (stats : KiroToolHistoryStats) :
    List ConversationMessage × (Nat → List KiroToolResult) × KiroToolHistoryStats :=
  let (messages, table) := collectResults 0 messages {}
  let counts := toolUseIdCounts messages
  let (messages, state) := repairAssistants counts activeToolNames 0 messages { table, stats }
  let (messages, stats) := archiveResults state.table.results messages state.stats
  (messages, state.scheduled, stats)

/-! ### Role normalization -/

def isUser : ConversationMessage → Bool
  | .user _ => true
  | .assistant _ => false

structure RolesState where
  output : List ConversationMessage := []
  pendingResults : List KiroToolResult := []
  stats : KiroToolHistoryStats

def countInserted (stats : KiroToolHistoryStats) : KiroToolHistoryStats :=
  { stats with insertedMessages := stats.insertedMessages + 1 }

def separateUsers (state : RolesState) : RolesState :=
  if state.output.getLast?.any isUser then
    { state with output := state.output ++ [.assistant syntheticAssistant]
                 stats := countInserted state.stats }
  else state

/-- A user message stands before every assistant and takes the results due there. -/
def separateAssistants (template : KiroUserInputMessage) (state : RolesState) : RolesState :=
  if state.output.getLast?.any isUser then state
  else
    let content := if state.output.isEmpty then "Begin conversation."
      else "Continue after the previous tool call."
    { output := state.output ++ [.user (syntheticUser template content state.pendingResults)]
      pendingResults := []
      stats := countInserted state.stats }

def placeMessage (template : KiroUserInputMessage) (scheduled : Nat → List KiroToolResult)
    (originalIndex : Nat) (message : ConversationMessage) (state : RolesState) : RolesState :=
  match message with
  | .user user =>
    let state := separateUsers state
    { state with output := state.output ++ [.user (addToolResults user state.pendingResults)]
                 pendingResults := [] }
  | .assistant assistant =>
    let state := separateAssistants template state
    { state with output := state.output ++ [.assistant assistant]
                 pendingResults := scheduled originalIndex }

def placeMessages (template : KiroUserInputMessage) (scheduled : Nat → List KiroToolResult) :
    Nat → List ConversationMessage → RolesState → RolesState
  | _, [], state => state
  | index, message :: rest, state =>
    placeMessages template scheduled (index + 1) rest
      (placeMessage template scheduled index message state)

def userOf : ConversationMessage → Option KiroUserInputMessage
  | .user user => some user
  | .assistant _ => none

def defaultTemplate : KiroUserInputMessage :=
  { content := "Continue.", modelId := "", origin := "", images := [], documents := []
    cachePoint := none, clientCacheConfig := none, userInputMessageContext := none }

def normalizeRoles (messages : List ConversationMessage) (scheduled : Nat → List KiroToolResult)
    (stats : KiroToolHistoryStats) : List ConversationMessage × KiroToolHistoryStats :=
  let template := (messages.reverse.findSome? userOf).getD defaultTemplate
  let state := placeMessages template scheduled 0 messages { stats }
  if state.output.getLast?.any isUser then (state.output, state.stats)
  else
    (state.output ++ [.user (syntheticUser template "Continue." state.pendingResults)],
      countInserted state.stats)

/-! ### The whole pass -/

def historyItem : ConversationMessage → KiroHistoryMessage
  | .user user => { userInputMessage := some user, assistantResponseMessage := none }
  | .assistant assistant => { userInputMessage := none, assistantResponseMessage := some assistant }

def withConversation (payload : KiroPayload) (current : KiroUserInputMessage)
    (history : List KiroHistoryMessage) : KiroPayload :=
  { payload with conversationState :=
    { payload.conversationState with currentMessage := ⟨current⟩, history := history } }

/-- Repairs a payload so that tool calls form strict, adjacent call/result pairs. -/
def sanitizeKiroToolHistory (payload : KiroPayload) : KiroPayload × KiroToolHistoryStats :=
  let state := payload.conversationState
  let original := state.currentMessage.userInputMessage
  let (context, activeToolNames, stats) :=
    sanitizeCurrentToolDefinitions original.userInputMessageContext {}
  let current := { original with userInputMessageContext := context }
  let (past, stats) := takeHistory state.history stats
  let (messages, scheduled, stats) :=
    repairToolPairs (past ++ [.user current]) activeToolNames stats
  let (messages, stats) := normalizeRoles messages scheduled stats
  match messages.getLast? with
  | some (.user user) =>
    (withConversation payload user (messages.dropLast.map historyItem), stats)
  | _ =>
    (withConversation payload (syntheticUser current "Continue." [])
      (messages.dropLast.map historyItem), countInserted stats)

end KiroProxy.ToolHistory

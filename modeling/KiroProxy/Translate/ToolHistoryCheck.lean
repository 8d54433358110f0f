import KiroProxy.Translate.ToolHistory
import Mathlib.Data.List.Dedup

/-! The checker of the tool history contract, run after all payload mutations.
It shares no code with the repair: it states the contract independently. -/
namespace KiroProxy.ToolHistory

open Text (trim)

def validateAssistantUses (activeNames : List String) (location : String) :
    List KiroToolUse → List String → Except String (List String × List String)
  | [], allIds => .ok ([], allIds)
  | toolUse :: rest, allIds =>
    if trim toolUse.toolUseId = "" ∨ trim toolUse.name = "" then
      .error s!"{location} contains an unnamed tool call"
    else if toolUse.input.isObject = false then
      .error s!"{location} tool call '{toolUse.toolUseId}' has a non-object input"
    else if toolUse.name ∉ activeNames then
      .error s!"{location} tool call '{toolUse.toolUseId}' references undefined tool '{toolUse.name}'"
    else if toolUse.toolUseId ∈ allIds then
      .error s!"{location} duplicates tool-use id '{toolUse.toolUseId}'"
    else do
      let (ids, allIds) ← validateAssistantUses activeNames location rest
        (allIds ++ [toolUse.toolUseId])
      .ok (toolUse.toolUseId :: ids, allIds)

def validateResults (expected : List String) (location : String) :
    List KiroToolResult → List String → Except String (List String)
  | [], allIds => .ok allIds
  | result :: rest, allIds =>
    if trim result.toolUseId = "" then
      .error s!"{location} contains a tool result without an id"
    else if result.status ≠ "success" ∧ result.status ≠ "error" then
      .error s!"{location} tool result '{result.toolUseId}' has invalid status '{result.status}'"
    else if result.content.isEmpty then
      .error s!"{location} tool result '{result.toolUseId}' has no content"
    else if result.toolUseId ∉ expected then
      .error s!"{location} contains orphan tool result '{result.toolUseId}'"
    else if result.toolUseId ∈ allIds then
      .error s!"{location} duplicates tool result '{result.toolUseId}'"
    else validateResults expected location rest (allIds ++ [result.toolUseId])

def validateUserResults (user : KiroUserInputMessage) (expected allIds : List String)
    (location : String) : Except String (List String) :=
  let results := user.toolResults
  if results.length ≠ expected.length then
    .error s!"{location} has {results.length} tool results but the preceding assistant has {expected.length} tool calls"
  else validateResults expected location results allIds

structure ValidationState where
  previousWasUser : Bool := false
  previousUses : List String := []
  allUseIds : List String := []
  allResultIds : List String := []

def validateItem (activeNames : List String) (index : Nat) (item : KiroHistoryMessage)
    (state : ValidationState) : Except String ValidationState :=
  match item.userInputMessage, item.assistantResponseMessage with
  | some user, none =>
    if state.previousWasUser then .error s!"history message {index} repeats the user role"
    else if user.tools.isEmpty = false then
      .error s!"history message {index} contains tool definitions; definitions belong on the current message"
    else do
      let allResultIds ← validateUserResults user state.previousUses state.allResultIds
        s!"history message {index}"
      .ok { state with allResultIds := allResultIds, previousUses := [], previousWasUser := true }
  | none, some assistant =>
    if index = 0 ∨ state.previousWasUser = false then
      .error s!"history message {index} repeats or starts with assistant"
    else do
      let (uses, allUseIds) ← validateAssistantUses activeNames s!"history message {index}"
        assistant.toolUses state.allUseIds
      .ok { state with allUseIds := allUseIds, previousUses := uses, previousWasUser := false }
  | _, _ => .error s!"history message {index} must contain exactly one role"

def validateItems (activeNames : List String) :
    Nat → List KiroHistoryMessage → ValidationState → Except String ValidationState
  | _, [], state => .ok state
  | index, item :: rest, state => do
    let state ← validateItem activeNames index item state
    validateItems activeNames (index + 1) rest state

def definedNames (tools : List KiroTool) : List String :=
  tools.filterMap (fun tool => tool.specification?.map (·.name))

def validateKiroToolHistory (payload : KiroPayload) : Except String Unit :=
  let history := payload.conversationState.history
  let current := payload.conversationState.currentMessage.userInputMessage
  let names := definedNames current.tools
  if names.any (fun name => trim name = "") then
    .error "current tool definitions contain an empty name"
  else if names.length ≠ names.dedup.length then
    .error "current tool definitions contain duplicate names"
  else do
    let state ← validateItems names 0 history {}
    let previousUses := if state.previousWasUser = false ∧ history.isEmpty then []
      else state.previousUses
    if state.previousWasUser ∧ previousUses.isEmpty = false then
      .error "internal tool-pair validation state is inconsistent"
    else if history.isEmpty = false ∧ state.previousWasUser then
      .error "current user message would repeat the user role"
    else do
      let _ ← validateUserResults current previousUses state.allResultIds "current message"
      .ok ()

end KiroProxy.ToolHistory

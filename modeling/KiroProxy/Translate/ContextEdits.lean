import KiroProxy.Lib.Newest
import KiroProxy.Translate.Claude
import KiroProxy.Translate.Responses

/-! `apply_context_management_edits`: the edits of a request's context management that the proxy makes itself. How many
bytes a request takes when it is written as JSON is a parameter. -/
namespace KiroProxy

structure EditRequest extends ClaudeRequest where
  model : String
  contextManagement : Option Value := none

structure ClaudeContextEditStats where
  clearedToolResults : Nat := 0
  clearedToolInputs : Nat := 0
  clearedToolInputTokens : Nat := 0
  clearedThinkingTurns : Nat := 0
  clearedThinkingInputTokens : Nat := 0
  toolEditType : Option String := none
  thinkingEditType : Option String := none
  deriving DecidableEq

namespace ContextEdits

open Newest (scanStep)

def defaultToolClearTriggerTokens : Nat := 100000

def defaultToolUsesToKeep : Nat := 3

def clearedToolResultText : String := "[Older tool result omitted by Claude context management.]"

/-! ### Plans -/

inductive ClearToolInputsPlan where
  | none
  | all
  | selected (names : List String)

def ClearToolInputsPlan.includes (plan : ClearToolInputsPlan) (toolName : Option String) : Bool :=
  match plan with
  | none => false
  | all => true
  | selected names => toolName.any (names.contains ·)

inductive ClearToolUsesTrigger where
  | inputTokens (value : Nat)
  | toolUses (value : Nat)

def ClearToolUsesTrigger.activated (trigger : ClearToolUsesTrigger) (tokens uses : Nat) : Bool :=
  match trigger with
  | inputTokens value => value ≤ tokens
  | toolUses value => value ≤ uses

structure ClearToolUsesPlan where
  editType : String
  trigger : ClearToolUsesTrigger
  keep : Nat
  clearAtLeast : Option Nat
  excludeTools : List String
  clearToolInputs : ClearToolInputsPlan

structure ClearThinkingPlan where
  editType : String
  keep : Option Nat

def editOf (family : String) (contextManagement : Option Value) : Option Value := do
  let edits ← (← (← contextManagement).get "edits").asArray
  edits.find? fun edit => edit.kind.any (matchesTypeFamily · family)

def clearToolUsesPlan (contextManagement : Option Value) : Option ClearToolUsesPlan := do
  let edit ← editOf "clear_tool_uses" contextManagement
  let triggerValue := (edit.pointer ["trigger", "value"]).bind Value.asU64
  return {
    editType := ← edit.kind
    trigger :=
      if edit.pointerStr ["trigger", "type"] = some "tool_uses" then .toolUses (triggerValue.getD 1)
      else .inputTokens (triggerValue.getD defaultToolClearTriggerTokens)
    keep :=
      if edit.pointerStr ["keep", "type"] = some "tool_uses" then
        ((edit.pointer ["keep", "value"]).bind Value.asU64).getD defaultToolUsesToKeep
      else defaultToolUsesToKeep
    clearAtLeast := (edit.pointer ["clear_at_least", "value"]).bind Value.asU64
    excludeTools := ((edit.get "exclude_tools").map Value.blocks).getD [] |>.filterMap Value.asStr
    clearToolInputs :=
      match edit.get "clear_tool_inputs" with
      | some (.bool true) => .all
      | some (.array names) => .selected (names.filterMap Value.asStr)
      | _ => .none }

/-- `str::parse::<u64>`: one sign, then at least one digit. -/
def parseU64 (component : List Char) : Option Nat :=
  let digits := match component with
    | '+' :: rest => rest
    | cs => cs
  if digits ≠ [] ∧ digits.all Char.isDigit then
    let n := Nat.ofDigitChars 10 digits 0
    if n < 2 ^ 64 then some n else none
  else none

/-- A number of more than two digits is the date of a release and not a minor version. -/
def modelFamilyVersionAtLeast (model family : String) (minimumMajor minimumMinor : Nat) : Bool :=
  let normalized := (Text.toAsciiLowercase model).toList.map fun c => if c = '.' then '-' else c
  match Text.splitOnceChars family.toList normalized with
  | none => false
  | some (_, suffix) =>
    match ((suffix.dropWhile (· = '-')).splitOn '-').filterMap parseU64 with
    | [] => false
    | major :: rest =>
      let minor := (rest.head?.filter (· ≤ 99)).getD 0
      minimumMajor < major || (major == minimumMajor && minimumMinor ≤ minor)

def defaultThinkingTurnsToKeep (model : String) : Option Nat :=
  if modelFamilyVersionAtLeast model "opus" 4 5 || modelFamilyVersionAtLeast model "sonnet" 4 6 then none else some 1

def clearThinkingPlan (request : EditRequest) : Option ClearThinkingPlan := do
  let edit ← editOf "clear_thinking" request.contextManagement
  let keep := match edit.get "keep" with
    | none => defaultThinkingTurnsToKeep request.model
    | some value =>
      if value.asStr = some "all" ∨ value.kind = some "all" then none else (value.get "value").bind Value.asU64
  return { editType := ← edit.kind, keep }

/-! ### Thinking -/

def isThinking (block : Value) : Bool := block.kind = some "thinking" ∨ block.kind = some "redacted_thinking"

def hasThinking (message : ClaudeMessage) : Bool :=
  message.role = "assistant" ∧ message.content.asArray.any (·.any isThinking)

def withoutThinking (message : ClaudeMessage) : ClaudeMessage :=
  { message with content := .array (message.content.blocks.filter (!isThinking ·)) }

/-- Whether a message is kept: one of the assistant's must not have come to an empty array. -/
def filled (message : ClaudeMessage) : Bool := message.role ≠ "assistant" ∨ message.content.asArray.all (!·.isEmpty)

def clearThinkingTurns (messages : List ClaudeMessage) (keep : Nat) : List ClaudeMessage × Nat :=
  let ((_, cleared), messages) :=
    messages.mapAccumr (scanStep hasThinking withoutThinking fun _ cleared => cleared + 1) (keep, 0)
  (messages.filter filled, cleared)

/-! ### Tool results and inputs -/

/-- The blocks of messages, one after another; contents that are no arrays have none. -/
def blocksOf (messages : List ClaudeMessage) : List Value := messages.flatMap (·.content.blocks)

def toolResultIsCleared (block : Value) : Bool := block.getStr "content" = some clearedToolResultText

def toolNames (messages : List ClaudeMessage) : List (String × String) :=
  ((blocksOf messages).filter (·.kind = some "tool_use")).filterMap fun block => do
    return (← block.getStr "id", ← block.getStr "name")

def excludes (excluded : List String) (names : List (String × String)) (id : String) : Bool :=
  (names.reverse.lookup id).any (excluded.contains ·)

def countClearableToolResults (messages : List ClaudeMessage) (excluded : List String) : Nat :=
  (blocksOf messages).countP fun block => block.kind = some "tool_result" ∧ !toolResultIsCleared block ∧
    (block.getStr "tool_use_id").all (!excludes excluded (toolNames messages) ·)

def clearable (excluded : List String) (names : List (String × String)) (block : Value) : Bool :=
  block.kind = some "tool_result" ∧ !toolResultIsCleared block ∧
    (block.getStr "tool_use_id").any (!excludes excluded names ·)

def insertField (key : String) (inner : Value) : Value → Value
  | .object fields => .object (Responses.setField key inner fields)
  | other => other

def clearResult (block : Value) : Value := insertField "content" (.string clearedToolResultText) block

def noteId (block : Value) (ids : List String) : List String :=
  (block.getStr "tool_use_id").elim ids (ids.insert ·)

def scanBlocks {σ : Type} (step : Value → σ → σ × Value) (message : ClaudeMessage) (state : σ) : σ × ClaudeMessage :=
  match message.content.asArray with
  | none => (state, message)
  | some blocks =>
    let (state, blocks) := blocks.mapAccumr step state
    (state, { message with content := .array blocks })

def selects (plan : ClearToolInputsPlan) (ids : List String) (block : Value) : Bool :=
  block.kind = some "tool_use" ∧ (block.getStr "id").any (ids.contains ·) ∧ plan.includes (block.getStr "name")

def clearInput (plan : ClearToolInputsPlan) (ids : List String) (block : Value) : Value :=
  if selects plan ids block then insertField "input" (.object []) block else block

def clearInputs (plan : ClearToolInputsPlan) (ids : List String) (message : ClaudeMessage) : ClaudeMessage :=
  match message.content.asArray with
  | none => message
  | some blocks => { message with content := .array (blocks.map (clearInput plan ids)) }

/-! ### The edits -/

section

variable (encodedLength : EditRequest → Option Nat)

def estimateContextManagementInputTokens (request : EditRequest) : Nat :=
  max (((encodedLength request).map fun bytes => (bytes + 3) / 4).getD 1) 1

def applyThinkingEdit (request : EditRequest) : EditRequest × ClaudeContextEditStats :=
  match clearThinkingPlan request with
  | some { editType, keep := some keep } =>
    let before := estimateContextManagementInputTokens encodedLength request
    let (messages, turns) := clearThinkingTurns request.messages keep
    let edited := { request with messages }
    if 0 < turns then
      (edited, { clearedThinkingTurns := turns, thinkingEditType := some editType,
                 clearedThinkingInputTokens := before - estimateContextManagementInputTokens encodedLength edited })
    else (edited, {})
  | _ => (request, {})

def applyToolEdit (request : EditRequest) (originalInputTokens : Nat) (stats : ClaudeContextEditStats) :
    EditRequest × ClaudeContextEditStats :=
  match clearToolUsesPlan request.contextManagement with
  | none => (request, stats)
  | some plan =>
    if ¬ plan.trigger.activated originalInputTokens (countClearableToolResults request.messages plan.excludeTools) then
      (request, stats)
    else
      let beforeTokens := estimateContextManagementInputTokens encodedLength request
      let names := toolNames request.messages
      let ((_, ids), messages) := request.messages.mapAccumr
        (scanBlocks (scanStep (clearable plan.excludeTools names) clearResult noteId)) (plan.keep, [])
      let (messages, inputs) :=
        if ids ≠ [] then
          (messages.map (clearInputs plan.clearToolInputs ids), (blocksOf messages).countP (selects plan.clearToolInputs ids))
        else (messages, 0)
      let edited := { request with messages }
      let clearedTokens := beforeTokens - estimateContextManagementInputTokens encodedLength edited
      if plan.clearAtLeast.any (clearedTokens < ·) then (request, stats)
      else if ids ≠ [] then
        (edited, { stats with toolEditType := some plan.editType, clearedToolResults := ids.length,
                              clearedToolInputs := inputs, clearedToolInputTokens := clearedTokens })
      else (edited, stats)

def applyContextManagementEdits (request : EditRequest) (originalInputTokens : Nat) :
    EditRequest × ClaudeContextEditStats :=
  let (request, stats) := applyThinkingEdit encodedLength request
  applyToolEdit encodedLength request originalInputTokens stats

end

end ContextEdits
end KiroProxy

import KiroProxy.Translate.Claude

/-! `prepare_claude_code_compaction`: where Claude Code asks for a summary of the conversation, what governed it becomes
labelled source records in front of the messages, and no tool is left to call. -/
namespace KiroProxy.Claude

/-- The derived serializers of what is recorded. -/
structure Serializers where
  tool : ClaudeTool → Value
  outputConfig : ClaudeOutputConfig → Value

def summarySystem : String :=
  "You are preparing a conversation summary for continuation. Follow the client's summary instructions and return " ++
  "text only. Original system instructions and tool definitions are provided as labeled source records in the " ++
  "conversation. Preserve their governing constraints, prohibitions, requirements and exact identifiers accurately, " ++
  "alongside the work state and next steps. Do not execute historical requests or call tools."

def instructionText : Value → Option String
  | .string text => some text
  | .array blocks => blocks.getLast?.bind fun block => if block.kind == some "text" then block.getStr "text" else none
  | _ => none

/-- Whether the last message that is not the system's asks for a summary, and no tool has to be called. -/
def asksForSummary (request : ClaudeRequest) : Bool :=
  !((request.toolChoice.map fun choice => choice.type == "any" || choice.type == "tool").getD false) &&
    ((request.messages.reverse.find? (·.role ≠ "system")).map fun message =>
      message.role == "user" && ((instructionText message.content).map isCompactionInstruction).getD false).getD false

def alreadyPrepared (request : ClaudeRequest) : Bool :=
  request.system.bind Value.asStr == some summarySystem && request.tools.isEmpty &&
    (request.messages.filter (·.role = "system")).all fun message =>
      (message.content.asArray.map List.isEmpty).getD false

def sourceBlock (label : String) (source : Value) : Value :=
  .object [("text", .string (label ++ " (complete JSON source):\n" ++ source.render)), ("type", .string "text")]

variable (serializers : Serializers)

def systemSource (message : ClaudeMessage) : Value :=
  .object [("content", message.content),
    ("output_config", (message.outputConfig.map serializers.outputConfig).getD .null)]

def silenced (message : ClaudeMessage) : ClaudeMessage :=
  if message.role = "system" then { message with content := .array [] } else message

/-- Tools are loaded once the system's messages are emptied: what these discovered is not. -/
def summarySource (request : ClaudeRequest) : List Value :=
  request.system.toList.map (sourceBlock "Original system instructions") ++
    (request.messages.filter (·.role = "system")).map (fun message =>
      sourceBlock "Original system message" (systemSource serializers message)) ++
    (claudeLoadedTools { request with messages := request.messages.map silenced }).map fun tool =>
      sourceBlock "Original tool definition" (serializers.tool tool)

def sourceMessages (request : ClaudeRequest) : List ClaudeMessage :=
  let source := summarySource serializers request
  if source.isEmpty then [] else [{ role := "user", content := .array source }]

def prepareClaudeCodeCompaction (request : ClaudeRequest) : ClaudeRequest × Bool :=
  if !asksForSummary request then (request, false)
  else if alreadyPrepared request then (request, true)
  else
    ({ request with
        messages := sourceMessages serializers request ++ request.messages.map silenced
        system := some (.string summarySystem)
        tools := []
        toolChoice := none }, true)

/-! ### What is recorded -/

variable {serializers} {request : ClaudeRequest} {message : ClaudeMessage}

/-- A record as a reader takes it apart: its first line, and the rest. -/
def recordOf (block : Value) : Option (String × String) :=
  (block.getStr "text").bind fun text => Text.splitOnce text "\n"

theorem recordOf_sourceBlock {label : String} (line : '\n' ∉ label.toList) (source : Value) :
    recordOf (sourceBlock label source) = some (label ++ " (complete JSON source):", source.render) := by
  have absent : '\n' ∉ (label ++ " (complete JSON source):").toList := by
    rw [String.toList_append, List.mem_append]
    exact fun member => member.elim line (by decide)
  have text : (label ++ " (complete JSON source):\n" ++ source.render).toList =
      (label ++ " (complete JSON source):").toList ++ (['\n'] ++ source.render.toList) := by
    rw [String.toList_append, String.toList_append, String.toList_append, List.append_assoc, List.append_assoc]
    rfl
  change Text.splitOnce (label ++ " (complete JSON source):\n" ++ source.render) "\n" = _
  unfold Text.splitOnce
  rw [text, show "\n".toList = ['\n'] from rfl, Text.splitOnceChars_skip absent [],
    Text.splitOnceChars_here ['\n'] _ (List.cons_ne_nil _ _)]
  simp only [Option.map_some, List.append_nil, String.ofList_toList]

/-- What governs a request, in the order in which it is recorded. -/
def governing (serializers : Serializers) (request : ClaudeRequest) : List (String × String) :=
  request.system.toList.map (fun system => ("Original system instructions (complete JSON source):", system.render)) ++
    (request.messages.filter (·.role = "system")).map (fun message =>
      ("Original system message (complete JSON source):", (systemSource serializers message).render)) ++
    (claudeLoadedTools { request with messages := request.messages.map silenced }).map fun tool =>
      ("Original tool definition (complete JSON source):", (serializers.tool tool).render)

theorem records_of_block {α : Type} {label : String} (line : '\n' ∉ label.toList) (source : α → Value) (items : List α) :
    (items.map fun item => sourceBlock label (source item)).filterMap recordOf =
      items.map fun item => (label ++ " (complete JSON source):", (source item).render) := by
  rw [List.filterMap_map, ← List.filterMap_eq_map]
  exact List.filterMap_congr fun item _ => recordOf_sourceBlock line (source item)

theorem records_of_summarySource (serializers : Serializers) (request : ClaudeRequest) :
    (summarySource serializers request).filterMap recordOf = governing serializers request := by
  unfold summarySource governing
  rw [List.filterMap_append, List.filterMap_append]
  exact congrArg₂ (· ++ ·) (congrArg₂ (· ++ ·) (records_of_block (by decide) id _) (records_of_block (by decide) _ _))
    (records_of_block (by decide) _ _)

theorem blocks_of_sourceMessages (serializers : Serializers) (request : ClaudeRequest) :
    (sourceMessages serializers request).flatMap (·.content.blocks) = summarySource serializers request := by
  unfold sourceMessages
  dsimp only
  split
  case isTrue none => exact (List.isEmpty_iff.mp none).symm
  case isFalse => exact List.append_nil _

theorem role_of_sourceMessages (from_source : message ∈ sourceMessages serializers request) : message.role = "user" := by
  unfold sourceMessages at from_source
  dsimp only at from_source
  split at from_source
  case isTrue => exact absurd from_source List.not_mem_nil
  case isFalse =>
    rw [List.mem_singleton.mp from_source]

/-! ### What is prepared stays so -/

theorem role_silenced (message : ClaudeMessage) : (silenced message).role = message.role := by
  unfold silenced
  split <;> rfl

theorem silenced_other (other : message.role ≠ "system") : silenced message = message := by
  unfold silenced
  rw [if_neg other]

theorem last_prepared (sources : List ClaudeMessage) {messages : List ClaudeMessage} {last : ClaudeMessage}
    (found : messages.reverse.find? (·.role ≠ "system") = some last) :
    (sources ++ messages.map silenced).reverse.find? (·.role ≠ "system") = some last := by
  have roles : ((fun message : ClaudeMessage => decide (message.role ≠ "system")) ∘ silenced) =
      fun message => decide (message.role ≠ "system") := by
    funext message
    exact congrArg (fun role => decide (role ≠ "system")) (role_silenced message)
  have other := List.find?_some found
  have other : last.role ≠ "system" := of_decide_eq_true other
  rw [List.reverse_append, ← List.map_reverse, List.find?_append, List.find?_map, roles, found, Option.map_some,
    silenced_other other, Option.some_or]

theorem prepared_again {sources : List ClaudeMessage} (roles : ∀ message ∈ sources, message.role = "user")
    (asks : asksForSummary request = true) :
    let after := { request with
      messages := sources ++ request.messages.map silenced
      system := some (.string summarySystem)
      tools := []
      toolChoice := none }
    asksForSummary after = true ∧ alreadyPrepared after = true := by
  intro after
  unfold asksForSummary at asks
  rw [Bool.and_eq_true] at asks
  obtain ⟨-, last⟩ := asks
  refine ⟨?_, ?_⟩
  · cases found : request.messages.reverse.find? (·.role ≠ "system") with
    | none =>
      rw [found] at last
      exact absurd last Bool.false_ne_true
    | some message =>
      rw [found] at last
      unfold asksForSummary
      rw [last_prepared sources found, last]
      rfl
  · have still (message : ClaudeMessage) (member : message ∈ after.messages.filter (·.role = "system")) :
        message.content = .array [] := by
      obtain ⟨member, system⟩ := List.mem_filter.mp member
      have system : message.role = "system" := of_decide_eq_true system
      obtain inserted | inside := List.mem_append.mp member
      · exact absurd ((roles message inserted).symm.trans system) (by decide)
      · obtain ⟨original, -, rfl⟩ := List.mem_map.mp inside
        rw [role_silenced] at system
        unfold silenced
        rw [if_pos system]
    unfold alreadyPrepared
    rw [Bool.and_eq_true, Bool.and_eq_true, List.all_eq_true]
    refine ⟨⟨beq_self_eq_true _, rfl⟩, fun message member => ?_⟩
    rw [still message member]
    rfl

theorem loaded_of_no_tools (empty : request.tools = []) : claudeLoadedTools request = [] := by
  unfold claudeLoadedTools
  rw [empty]
  split <;> rfl

theorem conversation_kept {sources : List ClaudeMessage} (roles : ∀ message ∈ sources, message.role = "user")
    (messages : List ClaudeMessage) :
    (sources ++ messages.map silenced).filter (·.role ≠ "system") = sources ++ messages.filter (·.role ≠ "system") := by
  rw [List.filter_append]
  congr 1
  · refine List.filter_eq_self.mpr fun message member => decide_eq_true ?_
    rw [roles message member]
    decide
  · induction messages with
    | nil => rfl
    | cons message rest ih =>
      rw [List.map_cons, List.filter_cons, List.filter_cons, ih, role_silenced]
      split
      case isTrue other => rw [silenced_other (of_decide_eq_true other)]
      case isFalse => rfl

/-- Where no summary is asked for the request is as it was. Where one is, what is prepared once is not prepared again,
no tool is loaded, the messages that are not the system's follow the records as they were, and the records hold the
whole JSON of what governed the request. -/
theorem summary_prepared (serializers : Serializers) (request : ClaudeRequest) :
    let prepared := prepareClaudeCodeCompaction serializers request
    (prepared.2 = false → prepared.1 = request) ∧
      (prepared.2 = true → prepareClaudeCodeCompaction serializers prepared.1 = prepared ∧
        claudeLoadedTools prepared.1 = [] ∧
        ∃ records : List ClaudeMessage, prepared.1.messages.filter (·.role ≠ "system") =
            records ++ request.messages.filter (·.role ≠ "system") ∧
          (alreadyPrepared request = false →
            (records.flatMap (·.content.blocks)).filterMap recordOf = governing serializers request)) := by
  intro prepared
  cases asks : asksForSummary request with
  | false =>
    have same : prepared = (request, false) := by
      dsimp only [prepared, prepareClaudeCodeCompaction]
      rw [asks]
      rfl
    rw [same]
    exact ⟨fun _ => rfl, fun enabled => absurd enabled Bool.false_ne_true⟩
  | true =>
    cases already : alreadyPrepared request with
    | true =>
      have same : prepared = (request, true) := by
        dsimp only [prepared, prepareClaudeCodeCompaction]
        rw [asks, already]
        rfl
      have empty : request.tools = [] := by
        unfold alreadyPrepared at already
        rw [Bool.and_eq_true, Bool.and_eq_true] at already
        exact List.isEmpty_iff.mp already.1.2
      rw [same]
      exact ⟨fun enabled => absurd enabled.symm Bool.false_ne_true, fun _ =>
        ⟨same, loaded_of_no_tools empty, [], rfl, fun fresh => absurd fresh.symm Bool.false_ne_true⟩⟩
    | false =>
      have roles : ∀ message ∈ sourceMessages serializers request, message.role = "user" :=
        fun message member => role_of_sourceMessages member
      obtain ⟨asks', already'⟩ := prepared_again roles asks
      have fresh : prepared = ({ request with
          messages := sourceMessages serializers request ++ request.messages.map silenced
          system := some (.string summarySystem)
          tools := []
          toolChoice := none }, true) := by
        dsimp only [prepared, prepareClaudeCodeCompaction]
        rw [asks, already]
        rfl
      rw [fresh]
      refine ⟨fun enabled => absurd enabled.symm Bool.false_ne_true, fun _ =>
        ⟨?_, loaded_of_no_tools rfl, sourceMessages serializers request, conversation_kept roles _, fun _ => ?_⟩⟩
      · rw [prepareClaudeCodeCompaction, asks', already']
        rfl
      · rw [blocks_of_sourceMessages, records_of_summarySource]

end KiroProxy.Claude

import KiroProxy.Translate.ContextEdits

/-! What context edits touch, what they count, and that they are made once. -/
namespace KiroProxy.ContextEdits

open Newest

/-! ### Blocks of messages -/

def changeBlocks (change : List Value → List Value) (message : ClaudeMessage) : ClaudeMessage :=
  match message.content.asArray with
  | none => message
  | some blocks => { message with content := .array (change blocks) }

def changeOlderBlocks (kind : Value → Bool) (change : Value → Value) (keep : Nat) : List ClaudeMessage → List ClaudeMessage
  | [] => []
  | message :: rest =>
    changeBlocks (changeOlder kind change (keep - (blocksOf rest).countP kind)) message ::
      changeOlderBlocks kind change keep rest

/-- Two messages that differ at most in blocks: what is no array is the same, and an array has as many blocks. -/
structure Beside (before after : ClaudeMessage) : Prop where
  rest : after = { before with content := after.content }
  whole : before.content.asArray = none → after.content = before.content
  blocks : before.content.asArray.map List.length = after.content.asArray.map List.length

theorem array_of_asArray {content : Value} {blocks : List Value} (array : content.asArray = some blocks) :
    content = .array blocks := by
  cases content with
  | array items =>
    cases array
    rfl
  | null => cases array
  | bool _ => cases array
  | number _ => cases array
  | string _ => cases array
  | object _ => cases array

theorem blocks_of_none {content : Value} (other : content.asArray = none) : content.blocks = [] := by
  rw [Value.blocks, other]
  rfl

theorem blocksOf_cons (message : ClaudeMessage) (rest : List ClaudeMessage) :
    blocksOf (message :: rest) = message.content.blocks ++ blocksOf rest := rfl

theorem blocks_changeBlocks {change : List Value → List Value} (empty : change [] = []) (message : ClaudeMessage) :
    (changeBlocks change message).content.blocks = change message.content.blocks := by
  unfold changeBlocks
  cases array : message.content.asArray with
  | none =>
    dsimp only
    rw [blocks_of_none array, empty]
  | some blocks =>
    dsimp only
    rw [array_of_asArray array]
    rfl

theorem beside_changeBlocks {change : List Value → List Value} (length : ∀ blocks, (change blocks).length = blocks.length)
    (message : ClaudeMessage) : Beside message (changeBlocks change message) := by
  unfold changeBlocks
  cases array : message.content.asArray with
  | none => exact ⟨rfl, fun _ => rfl, rfl⟩
  | some blocks =>
    refine ⟨rfl, fun other => ?_, ?_⟩
    · rw [array] at other
      cases other
    · rw [array]
      exact congrArg some (length blocks).symm

variable {kind : Value → Bool} {change : Value → Value}

theorem blocksOf_changeOlderBlocks (keep : Nat) (messages : List ClaudeMessage) :
    blocksOf (changeOlderBlocks kind change keep messages) = changeOlder kind change keep (blocksOf messages) := by
  induction messages with
  | nil => rfl
  | cons message rest ih =>
    rw [changeOlderBlocks, blocksOf_cons, blocksOf_cons, blocks_changeBlocks rfl, ih, changeOlder_append]

variable (kind change) in
theorem beside_changeOlderBlocks (keep : Nat) (messages : List ClaudeMessage) :
    List.Forall₂ Beside messages (changeOlderBlocks kind change keep messages) := by
  induction messages with
  | nil => exact .nil
  | cons message rest ih => exact .cons (beside_changeBlocks (length_changeOlder _) message) ih

theorem scan_messages {σ : Type} (note : Value → σ → σ) (keep : Nat) (log : σ) (messages : List ClaudeMessage) :
    messages.mapAccumr (scanBlocks (scanStep kind change note)) (keep, log) =
      ((keep - (blocksOf messages).countP kind, (older kind keep (blocksOf messages)).foldr note log),
        changeOlderBlocks kind change keep messages) := by
  induction messages with
  | nil => rfl
  | cons message rest ih =>
    rw [List.mapAccumr, ih, blocksOf_cons, older_append, List.foldr_append, List.countP_append, changeOlderBlocks]
    unfold scanBlocks changeBlocks
    cases array : message.content.asArray with
    | none =>
      dsimp only
      rw [blocks_of_none array, List.countP_nil, Nat.zero_add]
      rfl
    | some blocks =>
      dsimp only
      rw [scan_eq, Value.blocks, array, Option.getD_some, Nat.sub_sub, Nat.add_comm ((blocksOf rest).countP kind)]

theorem clearInputs_eq (plan : ClearToolInputsPlan) (ids : List String) :
    clearInputs plan ids = changeBlocks (·.map (clearInput plan ids)) := rfl

theorem blocksOf_clearInputs (plan : ClearToolInputsPlan) (ids : List String) (messages : List ClaudeMessage) :
    blocksOf (messages.map (clearInputs plan ids)) = (blocksOf messages).map (clearInput plan ids) := by
  induction messages with
  | nil => rfl
  | cons message rest ih =>
    rw [List.map_cons, blocksOf_cons, blocksOf_cons, ih, List.map_append, clearInputs_eq, blocks_changeBlocks rfl]

theorem beside_trans {a b c : ClaudeMessage} (first : Beside a b) (second : Beside b c) : Beside a c := by
  refine ⟨?_, fun other => ?_, first.blocks.trans second.blocks⟩
  · rw [second.rest, first.rest]
  · have still : b.content.asArray = none := by
      rw [first.whole other]
      exact other
    rw [second.whole still, first.whole other]

theorem beside_all_trans {a b c : List ClaudeMessage} (first : List.Forall₂ Beside a b) (second : List.Forall₂ Beside b c) :
    List.Forall₂ Beside a c := by
  induction first generalizing c with
  | nil => exact second
  | cons here _ ih =>
    cases second with
    | cons here' rest => exact .cons (beside_trans here here') (ih rest)

theorem beside_clearInputs (plan : ClearToolInputsPlan) (ids : List String) (messages : List ClaudeMessage) :
    List.Forall₂ Beside messages (messages.map (clearInputs plan ids)) := by
  induction messages with
  | nil => exact .nil
  | cons message rest ih => exact .cons (beside_changeBlocks (fun _ => List.length_map _) message) ih

/-! ### Fields of blocks -/

variable {key : String} {block : Value} {messages : List ClaudeMessage}

theorem get_insertField {other : String} (apart : other ≠ key) (inner block : Value) :
    (insertField key inner block).get other = block.get other := by
  cases block with
  | object fields => exact (Responses.lookup_setField key other inner fields).trans (if_neg apart)
  | null => rfl
  | bool _ => rfl
  | number _ => rfl
  | string _ => rfl
  | array _ => rfl

theorem getStr_insertField {other : String} (apart : other ≠ key) (inner block : Value) :
    (insertField key inner block).getStr other = block.getStr other := by
  rw [Value.getStr, get_insertField apart, Value.getStr]

theorem kind_clearResult (block : Value) : (clearResult block).kind = block.kind := getStr_insertField (by decide) _ _

theorem kind_clearInput (plan : ClearToolInputsPlan) (ids : List String) (block : Value) :
    (clearInput plan ids block).kind = block.kind := by
  unfold clearInput
  split
  · exact getStr_insertField (by decide) _ _
  · rfl

theorem getStr_clearInput (apart : key ≠ "input") (plan : ClearToolInputsPlan) (ids : List String) (block : Value) :
    (clearInput plan ids block).getStr key = block.getStr key := by
  unfold clearInput
  split
  · exact getStr_insertField apart _ _
  · rfl

theorem cleared_clearResult {type : String} (declared : block.kind = some type) :
    toolResultIsCleared (clearResult block) = true := by
  cases block with
  | object fields =>
    have content : ((clearResult (.object fields)).get "content") = some (.string clearedToolResultText) :=
      (Responses.lookup_setField "content" "content" _ fields).trans (if_pos rfl)
    unfold toolResultIsCleared Value.getStr
    rw [content]
    exact decide_eq_true rfl
  | null => cases declared
  | bool _ => cases declared
  | number _ => cases declared
  | string _ => cases declared
  | array _ => cases declared

variable {excluded : List String} {names : List (String × String)}

theorem clearable_parts (old : clearable excluded names block = true) :
    block.kind = some "tool_result" ∧ toolResultIsCleared block = false ∧
      ∃ id, block.getStr "tool_use_id" = some id ∧ excludes excluded names id = false := by
  obtain ⟨declared, uncleared, named⟩ := of_decide_eq_true old
  obtain ⟨id, here, kept⟩ := (Option.any_eq_true _ _).mp named
  exact ⟨declared, Bool.not_eq_true' _ ▸ uncleared, id, here, Bool.not_eq_true' _ ▸ kept⟩

theorem clearable_clearResult (block : Value) (old : clearable excluded names block = true) :
    clearable excluded names (clearResult block) = false := by
  obtain ⟨declared, -⟩ := clearable_parts old
  refine decide_eq_false fun again => ?_
  rw [cleared_clearResult declared] at again
  exact Bool.noConfusion again.2.1

theorem clearable_clearInput (plan : ClearToolInputsPlan) (ids : List String) (block : Value) :
    clearable excluded names (clearInput plan ids block) = clearable excluded names block := by
  unfold clearable toolResultIsCleared
  rw [kind_clearInput, getStr_clearInput (by decide), getStr_clearInput (by decide)]

def callOf (block : Value) : Option (String × String) :=
  if block.kind = some "tool_use" then do return (← block.getStr "id", ← block.getStr "name") else none

theorem toolNames_eq (messages : List ClaudeMessage) : toolNames messages = (blocksOf messages).filterMap callOf := by
  unfold toolNames
  rw [List.filterMap_filter]
  simp only [decide_eq_true_eq]
  rfl

theorem callOf_clearResult (block : Value) : callOf (clearResult block) = callOf block := by
  unfold callOf
  rw [kind_clearResult, clearResult, getStr_insertField (by decide), getStr_insertField (by decide)]

theorem callOf_clearInput (plan : ClearToolInputsPlan) (ids : List String) (block : Value) :
    callOf (clearInput plan ids block) = callOf block := by
  unfold callOf
  rw [kind_clearInput, getStr_clearInput (by decide), getStr_clearInput (by decide)]

/-! ### Thinking -/

def thinkingKeep (request : EditRequest) : Option Nat := (clearThinkingPlan request).bind (·.keep)

/-- Without thinking in all but the newest turns that have any, and without what came to nothing. -/
def thinned (request : EditRequest) : List ClaudeMessage :=
  match thinkingKeep request with
  | none => request.messages
  | some keep => (changeOlder hasThinking withoutThinking keep request.messages).filter filled

def thinnedTurns (request : EditRequest) : List ClaudeMessage :=
  match thinkingKeep request with
  | none => []
  | some keep => older hasThinking keep request.messages

section

variable {request : EditRequest}

theorem thinned_all (all : thinkingKeep request = none) :
    thinned request = request.messages ∧ thinnedTurns request = [] := by
  unfold thinned thinnedTurns
  rw [all]
  exact ⟨rfl, rfl⟩

theorem thinned_some {keep : Nat} (number : thinkingKeep request = some keep) :
    thinned request = (changeOlder hasThinking withoutThinking keep request.messages).filter filled ∧
      thinnedTurns request = older hasThinking keep request.messages := by
  unfold thinned thinnedTurns
  rw [number]
  exact ⟨rfl, rfl⟩

end

theorem foldr_count {α : Type} (xs : List α) : xs.foldr (fun _ count => count + 1) 0 = xs.length := by
  induction xs with
  | nil => rfl
  | cons x xs ih => rw [List.foldr_cons, ih, List.length_cons]

theorem clearThinkingTurns_eq (messages : List ClaudeMessage) (keep : Nat) : clearThinkingTurns messages keep =
    ((changeOlder hasThinking withoutThinking keep messages).filter filled, (older hasThinking keep messages).length) := by
  unfold clearThinkingTurns
  rw [scan_eq]
  dsimp only
  rw [foldr_count]

variable (encodedLength : EditRequest → Option Nat)

theorem applyThinkingEdit_fst (request : EditRequest) :
    (applyThinkingEdit encodedLength request).1 = { request with messages := thinned request } := by
  unfold applyThinkingEdit thinned thinkingKeep
  rcases clearThinkingPlan request with _ | ⟨editType, _ | keep⟩
  · rfl
  · rfl
  · dsimp only [Option.bind_some]
    rw [clearThinkingTurns_eq]
    dsimp only
    split <;> rfl

theorem applyThinkingEdit_counts (request : EditRequest) :
    (applyThinkingEdit encodedLength request).2.clearedThinkingTurns = (thinnedTurns request).length ∧
      (applyThinkingEdit encodedLength request).2.clearedToolResults = 0 ∧
      (applyThinkingEdit encodedLength request).2.clearedToolInputs = 0 := by
  unfold applyThinkingEdit thinnedTurns thinkingKeep
  rcases clearThinkingPlan request with _ | ⟨editType, _ | keep⟩
  · exact ⟨rfl, rfl, rfl⟩
  · exact ⟨rfl, rfl, rfl⟩
  · dsimp only [Option.bind_some]
    rw [clearThinkingTurns_eq]
    dsimp only
    split
    · exact ⟨rfl, rfl, rfl⟩
    · next none => exact ⟨(Nat.eq_zero_of_not_pos none).symm, rfl, rfl⟩

theorem applyThinkingEdit_idle {request : EditRequest} (same : thinned request = request.messages)
    (none : thinnedTurns request = []) : applyThinkingEdit encodedLength request = (request, {}) := by
  refine Prod.ext ((applyThinkingEdit_fst encodedLength request).trans (by rw [same])) ?_
  unfold applyThinkingEdit
  cases planned : clearThinkingPlan request with
  | none => rfl
  | some plan =>
    obtain ⟨editType, _ | keep⟩ := plan
    · rfl
    · have number : thinkingKeep request = some keep := by
        unfold thinkingKeep
        rw [planned]
        rfl
      rw [(thinned_some number).2] at none
      dsimp only
      rw [clearThinkingTurns_eq, none]
      exact congrArg Prod.snd (if_neg (Nat.lt_irrefl 0))

def outline (message : ClaudeMessage) : String × Option (List (Option String)) :=
  (message.role, message.content.asArray.map (·.map Value.kind))

def thinkingOutline (outline : String × Option (List (Option String))) : Bool :=
  outline.1 = "assistant" ∧ outline.2.any (·.any fun kind => kind = some "thinking" ∨ kind = some "redacted_thinking")

def filledOutline (outline : String × Option (List (Option String))) : Bool :=
  outline.1 ≠ "assistant" ∨ outline.2.all (!·.isEmpty)

theorem hasThinking_outline (message : ClaudeMessage) : hasThinking message = thinkingOutline (outline message) := by
  unfold hasThinking thinkingOutline outline
  cases message.content.asArray with
  | none => rfl
  | some blocks =>
    refine decide_eq_decide.mpr (and_congr_right fun _ => ?_)
    show blocks.any isThinking = true ↔ (blocks.map Value.kind).any _ = true
    rw [List.any_map]
    exact Iff.rfl

theorem filled_outline (message : ClaudeMessage) : filled message = filledOutline (outline message) := by
  unfold filled filledOutline outline
  cases message.content.asArray with
  | none => rfl
  | some blocks =>
    refine decide_eq_decide.mpr (or_congr_right ?_)
    show (!blocks.isEmpty) = true ↔ (!(blocks.map Value.kind).isEmpty) = true
    rw [List.isEmpty_map]

theorem outline_changeBlocks {change : List Value → List Value}
    (same : ∀ blocks, (change blocks).map Value.kind = blocks.map Value.kind) (message : ClaudeMessage) :
    outline (changeBlocks change message) = outline message := by
  unfold outline changeBlocks
  cases array : message.content.asArray with
  | none =>
    dsimp only
    rw [array]
  | some blocks => exact congrArg (fun kinds => (message.role, some kinds)) (same blocks)

theorem outline_changeOlderBlocks (same : ∀ block, (change block).kind = block.kind) (keep : Nat)
    (messages : List ClaudeMessage) :
    (changeOlderBlocks kind change keep messages).map outline = messages.map outline := by
  induction messages with
  | nil => rfl
  | cons message rest ih =>
    rw [changeOlderBlocks, List.map_cons, List.map_cons, ih,
      outline_changeBlocks fun blocks => map_changeOlder _ _ (fun block _ => same block) _ blocks]

theorem outline_clearInputs (plan : ClearToolInputsPlan) (ids : List String) (messages : List ClaudeMessage) :
    (messages.map (clearInputs plan ids)).map outline = messages.map outline := by
  rw [List.map_map]
  refine List.map_congr_left fun message _ => outline_changeBlocks (fun blocks => ?_) message
  rw [List.map_map]
  exact List.map_congr_left fun block _ => kind_clearInput plan ids block

theorem hasThinking_withoutThinking (message : ClaudeMessage) : hasThinking (withoutThinking message) = false := by
  refine decide_eq_false fun both => ?_
  obtain ⟨block, member, thinking⟩ := List.any_eq_true.mp both.2
  have absent := (List.mem_filter.mp member).2
  rw [thinking] at absent
  exact Bool.noConfusion absent

theorem thinned_again {request : EditRequest} (alike : messages.map outline = (thinned request).map outline) :
    thinned { request with messages } = messages ∧ thinnedTurns { request with messages } = [] := by
  cases number : thinkingKeep request with
  | none => exact thinned_all number
  | some keep =>
    have hasThinking_eq : hasThinking = thinkingOutline ∘ outline := funext hasThinking_outline
    have number' : thinkingKeep { request with messages } = some keep := number
    rw [(thinned_some number).1] at alike
    rw [(thinned_some number').1, (thinned_some number').2]
    have few : messages.countP hasThinking ≤ keep := by
      have same := congrArg (List.countP thinkingOutline) alike
      rw [List.countP_map, List.countP_map, ← hasThinking_eq] at same
      calc messages.countP hasThinking
          = ((changeOlder hasThinking withoutThinking keep request.messages).filter filled).countP hasThinking := same
        _ ≤ (changeOlder hasThinking withoutThinking keep request.messages).countP hasThinking :=
          List.filter_sublist.countP_le
        _ = min keep (request.messages.countP hasThinking) :=
          countP_changeOlder (fun message _ => hasThinking_withoutThinking message) keep request.messages
        _ ≤ keep := Nat.min_le_left ..
    have all_filled : ∀ message ∈ messages, filled message = true := by
      intro message member
      have inside : outline message ∈ messages.map outline := List.mem_map_of_mem member
      rw [alike] at inside
      obtain ⟨source, kept, same⟩ := List.mem_map.mp inside
      rw [filled_outline, ← same, ← filled_outline]
      exact (List.mem_filter.mp kept).2
    obtain ⟨none, unchanged⟩ := changeOlder_few withoutThinking few
    exact ⟨(congrArg (List.filter filled) unchanged).trans (List.filter_eq_self.mpr all_filled), none⟩

/-! ### Tool results and inputs -/

/-- The results that are cleared: those not cleared yet and not excluded, without the newest. -/
def olderResults (plan : ClearToolUsesPlan) (messages : List ClaudeMessage) : List Value :=
  older (clearable plan.excludeTools (toolNames messages)) plan.keep (blocksOf messages)

def idsOf (results : List Value) : List String := results.filterMap (·.getStr "tool_use_id")

def resultIds (messages : List ClaudeMessage) : List String :=
  idsOf ((blocksOf messages).filter (·.kind = some "tool_result"))

/-- Those results cleared and the inputs of their calls, as far as the plan selects them; and nothing else touched. -/
structure ToolsCleared (plan : ClearToolUsesPlan) (before after : List ClaudeMessage) : Prop where
  beside : List.Forall₂ Beside before after
  blocks : blocksOf after = (changeOlder (clearable plan.excludeTools (toolNames before)) clearResult plan.keep
    (blocksOf before)).map (clearInput plan.clearToolInputs (idsOf (olderResults plan before)))

def Applies (plan : ClearToolUsesPlan) (tokens : Nat) (request : EditRequest) (cleared : List ClaudeMessage) : Prop :=
  plan.trigger.activated tokens (countClearableToolResults request.messages plan.excludeTools) ∧
    ∀ least ∈ plan.clearAtLeast, least ≤ estimateContextManagementInputTokens encodedLength request -
      estimateContextManagementInputTokens encodedLength { request with messages := cleared }

theorem olderResults_ids {plan : ClearToolUsesPlan} (member : block ∈ olderResults plan messages) :
    block.kind = some "tool_result" ∧
      ∃ id, block.getStr "tool_use_id" = some id := by
  obtain ⟨declared, -, id, here, -⟩ := clearable_parts (kind_of_older member)
  exact ⟨declared, id, here⟩

theorem idsOf_some {id : String} (here : block.getStr "tool_use_id" = some id) (rest : List Value) :
    idsOf (block :: rest) = id :: idsOf rest := List.filterMap_cons_some (f := fun block : Value => block.getStr "tool_use_id") here

theorem idsOf_none (here : block.getStr "tool_use_id" = none) (rest : List Value) :
    idsOf (block :: rest) = idsOf rest := List.filterMap_cons_none (f := fun block : Value => block.getStr "tool_use_id") here

theorem length_idsOf {results : List Value} (named : ∀ block ∈ results, ∃ id, block.getStr "tool_use_id" = some id) :
    (idsOf results).length = results.length := by
  induction results with
  | nil => rfl
  | cons block rest ih =>
    obtain ⟨id, here⟩ := named block List.mem_cons_self
    rw [idsOf_some here, List.length_cons, List.length_cons, ih fun block member => named block (List.mem_cons_of_mem _ member)]

theorem foldr_noteId {results : List Value} (once : (idsOf results).Nodup) : results.foldr noteId [] = idsOf results := by
  induction results with
  | nil => rfl
  | cons block rest ih =>
    rw [List.foldr_cons]
    cases here : block.getStr "tool_use_id" with
    | none =>
      rw [idsOf_none here] at once ⊢
      rw [ih once, noteId, here]
      rfl
    | some id =>
      rw [idsOf_some here] at once ⊢
      rw [ih (List.nodup_cons.mp once).2, noteId, here]
      exact List.insert_of_not_mem (List.nodup_cons.mp once).1

theorem idsOf_olderResults (plan : ClearToolUsesPlan) (messages : List ClaudeMessage) :
    (idsOf (olderResults plan messages)).Sublist (resultIds messages) := by
  have all : (olderResults plan messages).filter (·.kind = some "tool_result") = olderResults plan messages :=
    List.filter_eq_self.mpr fun block member => decide_eq_true (olderResults_ids member).1
  unfold resultIds idsOf
  rw [← all]
  exact ((older_sublist _ _).filter _).filterMap _

theorem changeOlderBlocks_few {keep : Nat} (few : (blocksOf messages).countP kind ≤ keep) :
    changeOlderBlocks kind change keep messages = messages := by
  induction messages with
  | nil => rfl
  | cons message rest ih =>
    rw [blocksOf_cons, List.countP_append] at few
    rw [changeOlderBlocks, ih (by omega)]
    refine congrArg (· :: rest) ?_
    unfold changeBlocks
    cases array : message.content.asArray with
    | none => rfl
    | some blocks =>
      have here : blocks.countP kind ≤ keep - (blocksOf rest).countP kind := by
        rw [Value.blocks, array, Option.getD_some] at few
        omega
      dsimp only
      rw [(changeOlder_few _ here).2, ← array_of_asArray array]

theorem clearInput_nil (plan : ClearToolInputsPlan) (block : Value) : clearInput plan [] block = block := by
  have none : selects plan [] block = false := by
    refine decide_eq_false fun both => ?_
    obtain ⟨id, -, member⟩ := (Option.any_eq_true _ _).mp both.2.1
    cases member
  unfold clearInput
  rw [none]
  rfl

theorem selects_clearResult (plan : ClearToolInputsPlan) (ids : List String) (block : Value) :
    selects plan ids (clearResult block) = selects plan ids block := by
  unfold selects
  rw [kind_clearResult, clearResult, getStr_insertField (by decide), getStr_insertField (by decide)]

def clearedMessages (plan : ClearToolUsesPlan) (messages : List ClaudeMessage) : List ClaudeMessage :=
  let cleared := changeOlderBlocks (clearable plan.excludeTools (toolNames messages)) clearResult plan.keep messages
  if idsOf (olderResults plan messages) ≠ [] then
    cleared.map (clearInputs plan.clearToolInputs (idsOf (olderResults plan messages)))
  else cleared

theorem toolsCleared (plan : ClearToolUsesPlan) (messages : List ClaudeMessage) :
    ToolsCleared plan messages (clearedMessages plan messages) := by
  have scanned := beside_changeOlderBlocks (clearable plan.excludeTools (toolNames messages)) clearResult plan.keep messages
  unfold clearedMessages
  dsimp only
  split
  · refine ⟨beside_all_trans scanned (beside_clearInputs ..), ?_⟩
    rw [blocksOf_clearInputs, blocksOf_changeOlderBlocks]
  · next empty =>
    refine ⟨scanned, ?_⟩
    rw [blocksOf_changeOlderBlocks, not_not.mp empty]
    exact (List.map_id'' (clearInput_nil _) _).symm

theorem outline_clearedMessages (plan : ClearToolUsesPlan) (messages : List ClaudeMessage) :
    (clearedMessages plan messages).map outline = messages.map outline := by
  unfold clearedMessages
  dsimp only
  split
  · rw [outline_clearInputs, outline_changeOlderBlocks kind_clearResult]
  · exact outline_changeOlderBlocks kind_clearResult _ _

theorem filterMap_clearedMessages {β : Type} {view : Value → Option β} (result : ∀ block, view (clearResult block) = view block)
    (input : ∀ plan ids block, view (clearInput plan ids block) = view block) (plan : ClearToolUsesPlan)
    (messages : List ClaudeMessage) :
    (blocksOf (clearedMessages plan messages)).filterMap view = (blocksOf messages).filterMap view := by
  have inputs : view ∘ clearInput plan.clearToolInputs (idsOf (olderResults plan messages)) = view := funext (input _ _)
  have same := map_changeOlder (clearable plan.excludeTools (toolNames messages)) clearResult
    (fun block _ => result block) plan.keep (blocksOf messages)
  have kept := congrArg (List.filterMap id) same
  rw [List.filterMap_map, List.filterMap_map] at kept
  rw [(toolsCleared plan messages).blocks, List.filterMap_map, inputs]
  exact kept

theorem toolNames_clearedMessages (plan : ClearToolUsesPlan) (messages : List ClaudeMessage) :
    toolNames (clearedMessages plan messages) = toolNames messages := by
  rw [toolNames_eq, toolNames_eq]
  exact filterMap_clearedMessages callOf_clearResult callOf_clearInput plan messages

def resultOf (block : Value) : Option String := if block.kind = some "tool_result" then block.getStr "tool_use_id" else none

theorem resultIds_eq (messages : List ClaudeMessage) : resultIds messages = (blocksOf messages).filterMap resultOf := by
  unfold resultIds idsOf
  rw [List.filterMap_filter]
  simp only [decide_eq_true_eq]
  rfl

theorem resultIds_clearedMessages (plan : ClearToolUsesPlan) (messages : List ClaudeMessage) :
    resultIds (clearedMessages plan messages) = resultIds messages := by
  rw [resultIds_eq, resultIds_eq]
  refine filterMap_clearedMessages (fun block => ?_) (fun plan ids block => ?_) plan messages
  · unfold resultOf
    rw [kind_clearResult, clearResult, getStr_insertField (by decide)]
  · unfold resultOf
    rw [kind_clearInput, getStr_clearInput (by decide)]

theorem few_clearedMessages (plan : ClearToolUsesPlan) (messages : List ClaudeMessage) :
    (blocksOf (clearedMessages plan messages)).countP
      (clearable plan.excludeTools (toolNames (clearedMessages plan messages))) ≤ plan.keep := by
  have input : clearable plan.excludeTools (toolNames messages) ∘
      clearInput plan.clearToolInputs (idsOf (olderResults plan messages)) =
      clearable plan.excludeTools (toolNames messages) := funext (clearable_clearInput _ _)
  rw [toolNames_clearedMessages, (toolsCleared plan messages).blocks, List.countP_map, input,
    countP_changeOlder clearable_clearResult]
  exact Nat.min_le_left ..

section Apply

variable {request : EditRequest} {plan : ClearToolUsesPlan} {tokens : Nat} (stats : ClaudeContextEditStats)

theorem applyToolEdit_eq (planned : clearToolUsesPlan request.contextManagement = some plan)
    (activated : plan.trigger.activated tokens (countClearableToolResults request.messages plan.excludeTools) = true)
    (once : (resultIds request.messages).Nodup) :
    applyToolEdit encodedLength request tokens stats =
      let edited := { request with messages := clearedMessages plan request.messages }
      let clearedTokens := estimateContextManagementInputTokens encodedLength request -
        estimateContextManagementInputTokens encodedLength edited
      if plan.clearAtLeast.any (clearedTokens < ·) then (request, stats)
      else if idsOf (olderResults plan request.messages) ≠ [] then
        (edited, { stats with
          toolEditType := some plan.editType
          clearedToolResults := (idsOf (olderResults plan request.messages)).length
          clearedToolInputs := (blocksOf request.messages).countP
            (selects plan.clearToolInputs (idsOf (olderResults plan request.messages)))
          clearedToolInputTokens := clearedTokens })
      else (edited, stats) := by
  have ids := foldr_noteId (once.sublist (idsOf_olderResults plan request.messages))
  have counted (ids : List String) : (blocksOf (changeOlderBlocks (clearable plan.excludeTools (toolNames request.messages))
      clearResult plan.keep request.messages)).countP (selects plan.clearToolInputs ids) =
      (blocksOf request.messages).countP (selects plan.clearToolInputs ids) := by
    have same := congrArg (List.countP id) (map_changeOlder
      (clearable plan.excludeTools (toolNames request.messages)) clearResult
      (fun block _ => selects_clearResult plan.clearToolInputs ids block) plan.keep (blocksOf request.messages))
    rw [List.countP_map, List.countP_map] at same
    rw [blocksOf_changeOlderBlocks]
    exact same
  unfold applyToolEdit
  rw [planned]
  dsimp only
  rw [if_neg (not_not.mpr activated), scan_messages]
  unfold olderResults at ids
  dsimp only
  rw [ids]
  unfold clearedMessages olderResults
  by_cases empty : idsOf (older (clearable plan.excludeTools (toolNames request.messages)) plan.keep
      (blocksOf request.messages)) = []
  · simp only [empty, ne_eq, not_true_eq_false, if_false]
  · simp only [empty, ne_eq, not_false_eq_true, if_true, counted]

variable (request) in
theorem applyToolEdit_refused (planned : clearToolUsesPlan request.contextManagement = some plan)
    (once : (resultIds request.messages).Nodup)
    (refused : ¬ Applies encodedLength plan tokens request (clearedMessages plan request.messages)) :
    applyToolEdit encodedLength request tokens stats = (request, stats) := by
  by_cases activated : plan.trigger.activated tokens (countClearableToolResults request.messages plan.excludeTools) = true
  · rw [applyToolEdit_eq encodedLength stats planned activated once]
    refine if_pos (Decidable.byContradiction fun enough => refused ⟨activated, fun least given => ?_⟩)
    rw [Option.mem_def.mp given, Option.any_some] at enough
    exact Nat.le_of_not_lt fun less => enough (decide_eq_true less)
  · unfold applyToolEdit
    rw [planned]
    exact if_pos activated

variable (request) in
theorem applyToolEdit_applies (planned : clearToolUsesPlan request.contextManagement = some plan)
    (once : (resultIds request.messages).Nodup)
    (applies : Applies encodedLength plan tokens request (clearedMessages plan request.messages)) :
    let edited := applyToolEdit encodedLength request tokens stats
    edited.1 = { request with messages := clearedMessages plan request.messages } ∧
      edited.2.clearedThinkingTurns = stats.clearedThinkingTurns ∧
      (stats.clearedToolResults = 0 → edited.2.clearedToolResults = (olderResults plan request.messages).length) ∧
      (stats.clearedToolInputs = 0 → edited.2.clearedToolInputs = (blocksOf request.messages).countP
        (selects plan.clearToolInputs (idsOf (olderResults plan request.messages)))) := by
  have enough : ¬ plan.clearAtLeast.any (estimateContextManagementInputTokens encodedLength request -
      estimateContextManagementInputTokens encodedLength
        { request with messages := clearedMessages plan request.messages } < ·) = true := by
    intro less
    obtain ⟨least, given, less⟩ := (Option.any_eq_true _ _).mp less
    exact absurd (applies.2 least given) (Nat.not_le_of_lt (of_decide_eq_true less))
  have long := length_idsOf fun block (member : block ∈ olderResults plan request.messages) =>
    (olderResults_ids member).2
  dsimp only
  rw [applyToolEdit_eq encodedLength stats planned applies.1 once]
  dsimp only
  rw [if_neg enough]
  by_cases empty : idsOf (olderResults plan request.messages) = []
  · rw [if_neg (not_not.mpr empty)]
    refine ⟨rfl, rfl, fun zero => ?_, fun zero => ?_⟩
    · rw [← long, empty]
      exact zero
    · rw [empty]
      refine zero.trans (List.countP_eq_zero.mpr fun block _ selected => ?_).symm
      obtain ⟨id, -, member⟩ := (Option.any_eq_true _ _).mp (of_decide_eq_true selected).2.1
      cases member
  · rw [if_pos empty]
    exact ⟨rfl, rfl, fun _ => long, fun _ => rfl⟩

theorem applyToolEdit_idle (once : (resultIds request.messages).Nodup)
    (few : ∀ plan, clearToolUsesPlan request.contextManagement = some plan →
      (blocksOf request.messages).countP (clearable plan.excludeTools (toolNames request.messages)) ≤ plan.keep) :
    applyToolEdit encodedLength request tokens stats = (request, stats) := by
  cases planned : clearToolUsesPlan request.contextManagement with
  | none =>
    unfold applyToolEdit
    rw [planned]
  | some plan =>
    by_cases applies : Applies encodedLength plan tokens request (clearedMessages plan request.messages)
    · have none : olderResults plan request.messages = [] := (changeOlder_few clearResult (few plan planned)).1
      have same : clearedMessages plan request.messages = request.messages := by
        unfold clearedMessages
        rw [none, changeOlderBlocks_few (few plan planned)]
        rfl
      rw [applyToolEdit_eq encodedLength stats planned applies.1 once, none, same]
      dsimp only
      split <;> rfl
    · exact applyToolEdit_refused encodedLength request stats planned once applies

end Apply

/-! ### Both edits -/

theorem blocksOf_thinned (request : EditRequest) : (blocksOf (thinned request)).Sublist (blocksOf request.messages) := by
  cases number : thinkingKeep request with
  | none => rw [(thinned_all number).1]
  | some keep =>
    rw [(thinned_some number).1]
    generalize request.messages = messages
    induction messages with
    | nil => exact List.Sublist.slnil
    | cons message rest ih =>
      have here : (if hasThinking message = true ∧ keep ≤ rest.countP hasThinking then withoutThinking message
          else message).content.blocks.Sublist message.content.blocks := by
        split
        · exact List.filter_sublist
        · exact List.Sublist.refl _
      rw [changeOlder, blocksOf_cons, List.filter_cons]
      generalize (if hasThinking message = true ∧ keep ≤ rest.countP hasThinking then withoutThinking message
        else message) = changed at here ⊢
      split
      · exact here.append ih
      · exact ih.trans (List.sublist_append_right _ _)

/-- The edits touch what they may, count what they touch, and have nothing to do a second time. -/
theorem context_edits_touch (request : EditRequest) (tokens : Nat) (once : (resultIds request.messages).Nodup) :
    ∃ edited stats, applyContextManagementEdits encodedLength request tokens =
        ({ request with messages := edited }, stats) ∧
      stats.clearedThinkingTurns = (thinnedTurns request).length ∧
      (clearToolUsesPlan request.contextManagement = none →
        edited = thinned request ∧ stats.clearedToolResults = 0 ∧ stats.clearedToolInputs = 0) ∧
      (∀ plan, clearToolUsesPlan request.contextManagement = some plan →
        ∃ cleared, ToolsCleared plan (thinned request) cleared ∧
          (Applies encodedLength plan tokens { request with messages := thinned request } cleared →
            edited = cleared ∧ stats.clearedToolResults = (olderResults plan (thinned request)).length ∧
              stats.clearedToolInputs = (blocksOf (thinned request)).countP
                (selects plan.clearToolInputs (idsOf (olderResults plan (thinned request))))) ∧
          (¬ Applies encodedLength plan tokens { request with messages := thinned request } cleared →
            edited = thinned request ∧ stats.clearedToolResults = 0 ∧ stats.clearedToolInputs = 0)) ∧
      applyContextManagementEdits encodedLength { request with messages := edited } tokens =
        ({ request with messages := edited }, {}) := by
  obtain ⟨turns, no_results, no_inputs⟩ := applyThinkingEdit_counts encodedLength request
  have first := applyThinkingEdit_fst encodedLength request
  have once' : (resultIds (thinned request)).Nodup := once.sublist (((blocksOf_thinned request).filter _).filterMap _)
  have whole : applyContextManagementEdits encodedLength request tokens = applyToolEdit encodedLength
      { request with messages := thinned request } tokens (applyThinkingEdit encodedLength request).2 := by
    unfold applyContextManagementEdits
    rw [← first]
  have idle {messages : List ClaudeMessage} (alike : messages.map outline = (thinned request).map outline) :
      applyContextManagementEdits encodedLength { request with messages } tokens =
        applyToolEdit encodedLength { request with messages } tokens {} := by
    obtain ⟨same, none⟩ := thinned_again alike
    unfold applyContextManagementEdits
    rw [applyThinkingEdit_idle encodedLength same none]
  cases planned : clearToolUsesPlan request.contextManagement with
  | none =>
    have untouched (stats : ClaudeContextEditStats) : applyToolEdit encodedLength
        { request with messages := thinned request } tokens stats = ({ request with messages := thinned request }, stats) := by
      unfold applyToolEdit
      dsimp only
      rw [planned]
    refine ⟨thinned request, _, whole.trans (untouched _), turns, fun _ => ⟨rfl, no_results, no_inputs⟩, ?_,
      (idle rfl).trans (untouched {})⟩
    intro plan other
    cases other
  | some plan =>
    by_cases applies : Applies encodedLength plan tokens { request with messages := thinned request }
        (clearedMessages plan (thinned request))
    · obtain ⟨edits, kept_turns, results, inputs⟩ := applyToolEdit_applies encodedLength
        { request with messages := thinned request } (applyThinkingEdit encodedLength request).2 planned once' applies
      refine ⟨clearedMessages plan (thinned request), _, whole.trans (Prod.ext edits rfl), kept_turns.trans turns, ?_, ?_, ?_⟩
      · intro other
        cases other
      · rintro other ⟨⟩
        exact ⟨_, toolsCleared plan _, fun _ => ⟨rfl, results no_results, inputs no_inputs⟩,
          fun refused => absurd applies refused⟩
      · rw [idle (outline_clearedMessages plan _)]
        refine applyToolEdit_idle encodedLength {} ?_ ?_
        · exact (resultIds_clearedMessages plan (thinned request)).symm ▸ once'
        · intro other found
          cases planned.symm.trans found
          exact few_clearedMessages plan (thinned request)
    · have untouched (stats : ClaudeContextEditStats) := applyToolEdit_refused encodedLength
        { request with messages := thinned request } stats planned once' applies
      refine ⟨thinned request, _, whole.trans (untouched _), turns, ?_, ?_, (idle rfl).trans (untouched {})⟩
      · intro other
        cases other
      · rintro other ⟨⟩
        exact ⟨_, toolsCleared plan _, fun applied => absurd applied applies, fun _ => ⟨rfl, no_results, no_inputs⟩⟩

def oneTurn : EditRequest where
  model := "claude-opus-4.5"
  contextManagement := some (.object [("edits", .array [
    .object [("keep", .object [("type", .string "thinking_turns"), ("value", .number (.posInt 0))]),
      ("type", .string "clear_thinking_20251015")],
    .object [("keep", .object [("type", .string "tool_uses"), ("value", .number (.posInt 0))]),
      ("type", .string "clear_tool_uses_20250919")]])])
  messages := [
    { role := "assistant", content := .array [
        .object [("thinking", .string "first"), ("type", .string "thinking")],
        .object [("thinking", .string "second"), ("type", .string "thinking")],
        .object [("id", .string "a"), ("input", .object []), ("name", .string "Read"), ("type", .string "tool_use")]] },
    { role := "user", content := .array [
        .object [("content", .string "old"), ("tool_use_id", .string "a"), ("type", .string "tool_result")]] }]

theorem context_edits_touch_one : ∃ edited stats,
    applyContextManagementEdits (fun _ => some 700) oneTurn 0 = ({ oneTurn with messages := edited }, stats) ∧
      stats.clearedThinkingTurns = 1 ∧
      applyContextManagementEdits (fun _ => some 700) { oneTurn with messages := edited } 0 =
        ({ oneTurn with messages := edited }, {}) := by
  obtain ⟨edited, stats, done, turns, -, -, again⟩ := context_edits_touch (fun _ => some 700) oneTurn 0 (by decide)
  exact ⟨edited, stats, done, turns.trans (by decide), again⟩

/-- Turns are counted and not their blocks, and a result older than the kept ones stays before the trigger. -/
theorem turns_not_blocks :
    let (edited, stats) := applyContextManagementEdits (fun _ => some 700) oneTurn 0
    (blocksOf oneTurn.messages).countP isThinking = 2 ∧ (blocksOf edited.messages).countP isThinking = 0 ∧
      stats.clearedThinkingTurns = 1 ∧ (clearToolUsesPlan oneTurn.contextManagement).map (·.keep) = some 0 ∧
      (blocksOf edited.messages).countP (clearable [] (toolNames edited.messages)) = 1 ∧
      (blocksOf edited.messages).countP toolResultIsCleared = 0 := by decide

end KiroProxy.ContextEdits

import KiroProxy.Translate.Compaction
import KiroProxy.Translate.ToolHistoryExact

/-! Dropping the oldest turns of a history until the estimate fits: the running number of tokens, and
what the tool history keeps of its contract. -/
namespace KiroProxy.Tokens

open ToolHistory

def turnTokens (tokenizer : Tokenizer) (messages : List KiroHistoryMessage) : Nat :=
  let collected := messages.foldl (collectHistoryMessage tokenizer) {}
  collected.segments.foldl (fun total segment => saturatingAdd total (tokenizer.count segment)) collected.fixed

def removeTurns (tokenizer : Tokenizer) (history : List KiroHistoryMessage) (currentHasResults : Bool)
    (maximum : Nat) : Nat → Nat → Nat → Nat × Nat
  | 0, removed, tokens => (removed, tokens)
  | rounds + 1, removed, tokens =>
    if maximum < tokens then
      let rest := history.drop removed
      let remove := oldestTurnLen rest
      if remove = 0 ∨ currentHasResults ∧ remove = rest.length then (removed, tokens)
      else removeTurns tokenizer history currentHasResults maximum rounds (removed + remove)
        (max (tokens - turnTokens tokenizer (rest.take remove)) 1)
    else (removed, tokens)

def truncateKiroHistory (tokenizer : Tokenizer) (payload : KiroPayload) (maximum : Nat) : KiroPayload × Nat :=
  let history := payload.conversationState.history
  let currentHasResults := !payload.conversationState.currentMessage.userInputMessage.toolResults.isEmpty
  let (removed, tokens) := removeTurns tokenizer (compactable payload) currentHasResults maximum
    (compactable payload).length 0 (estimateKiroPayload tokenizer payload)
  (withHistory payload (history.take (protectedHistoryLen payload) ++ (compactable payload).drop removed), tokens)

/-! ### What a message costs -/

structure Bill where
  segments : List String := []
  tokens : Nat := 0

namespace Bill

def plus (first second : Bill) : Bill := ⟨first.segments ++ second.segments, first.tokens + second.tokens⟩

def sum (bills : List Bill) : Bill := bills.foldr plus {}

def cost (tokenizer : Tokenizer) (bill : Bill) : Nat := bill.tokens + (bill.segments.map tokenizer.count).sum

theorem cost_plus (tokenizer : Tokenizer) (first second : Bill) :
    (first.plus second).cost tokenizer = first.cost tokenizer + second.cost tokenizer := by
  simp only [cost, plus, List.map_append, List.sum_append]
  omega

end Bill

namespace Collected

def add (collected : Collected) (bill : Bill) : Collected :=
  ⟨collected.segments ++ bill.segments, saturatingAdd collected.fixed bill.tokens⟩

theorem saturatingAdd_assoc (a b c : Nat) : saturatingAdd (saturatingAdd a b) c = saturatingAdd a (b + c) := by
  unfold saturatingAdd
  omega

theorem add_plus (collected : Collected) (first second : Bill) :
    (collected.add first).add second = collected.add (first.plus second) := by
  simp only [add, Bill.plus, saturatingAdd_assoc, List.append_assoc]

def Adds {α : Type} (collect : Collected → α → Collected) (bill : α → Bill) : Prop :=
  ∀ collected x, collected.fixed < 2 ^ 64 → collect collected x = collected.add (bill x)

theorem add_fixed (collected : Collected) (bill : Bill) : (collected.add bill).fixed < 2 ^ 64 := by
  unfold add saturatingAdd
  dsimp only
  omega

theorem push_eq (collected : Collected) (bounded : collected.fixed < 2 ^ 64) (segments : List String) :
    collected.push segments = collected.add ⟨segments, 0⟩ := by
  simp only [push, add, saturatingAdd]
  congr 1
  omega

theorem charge_eq (collected : Collected) (tokens : Nat) : collected.charge tokens = collected.add ⟨[], tokens⟩ := by
  simp only [charge, add, List.append_nil]

theorem add_nothing (collected : Collected) (bounded : collected.fixed < 2 ^ 64) : collected.add {} = collected := by
  rw [← push_eq collected bounded []]
  simp [push]

theorem Adds.foldl {α : Type} {collect : Collected → α → Collected} {bill : α → Bill} (adds : Adds collect bill)
    (collected : Collected) (xs : List α) (bounded : collected.fixed < 2 ^ 64) :
    xs.foldl collect collected = collected.add (Bill.sum (xs.map bill)) := by
  induction xs generalizing collected with
  | nil => exact (add_nothing collected bounded).symm
  | cons x xs ih =>
    rw [List.foldl_cons, adds collected x bounded, ih _ (add_fixed collected (bill x)), add_plus]
    rfl

end Collected

section Bills

variable (tokenizer : Tokenizer)

def imageBill (image : KiroImage) : Bill :=
  let size := tokenizer.scaledSquareRoot (estimatedBytes (encodedBytes image.source.bytes))
  { tokens := min (max (saturatingAdd imageBaseTokens size) imageBaseTokens) imageMaxTokens }

def documentBill (document : KiroDocument) : Bill :=
  let encoded := encodedBytes document.source.bytes
  (Bill.mk [document.name, document.format] documentBaseTokens).plus
    (match if isTextDocumentFormat document.format then tokenizer.decodeBase64Text encoded else none with
    | some text => { segments := [text] }
    | none => { tokens := (estimatedBytes encoded + documentBinaryBytesPerToken - 1) / documentBinaryBytesPerToken })

def toolBill (tool : KiroTool) : Bill :=
  match tool.specification? with
  | some specification =>
    ⟨[specification.name, specification.description, specification.inputSchema.json.render], toolSchemaOverheadTokens⟩
  | none => { tokens := messageOverheadTokens }

def resultBill (result : KiroToolResult) : Bill :=
  ⟨[result.toolUseId, result.status, "\n".intercalate (result.content.map (·.text))], toolResultOverheadTokens⟩

def useBill (tool : KiroToolUse) : Bill := ⟨[tool.toolUseId, tool.name, tool.input.render], toolUseOverheadTokens⟩

def userBill (message : KiroUserInputMessage) : Bill :=
  ((((Bill.mk [message.content] messageOverheadTokens).plus (Bill.sum (message.images.map (imageBill tokenizer)))).plus
    (Bill.sum (message.documents.map (documentBill tokenizer)))).plus (Bill.sum (message.tools.map toolBill))).plus
      (Bill.sum (message.toolResults.map resultBill))

def assistantBill (message : KiroAssistantMessage) : Bill :=
  (Bill.mk [message.content] messageOverheadTokens).plus (Bill.sum (message.toolUses.map useBill))

def messageBill (message : KiroHistoryMessage) : Bill :=
  (message.userInputMessage.elim {} (userBill tokenizer)).plus (message.assistantResponseMessage.elim {} assistantBill)

end Bills

open Collected

theorem collectImage_adds (tokenizer : Tokenizer) : Adds (collectImage tokenizer) (imageBill tokenizer) :=
  fun collected _ _ => charge_eq collected _

theorem collectDocument_adds (tokenizer : Tokenizer) : Adds (collectDocument tokenizer) (documentBill tokenizer) := by
  intro collected document bounded
  unfold collectDocument documentBill
  dsimp only
  rw [push_eq collected bounded, charge_eq, add_plus]
  generalize (if isTextDocumentFormat document.format = true then
    tokenizer.decodeBase64Text (encodedBytes document.source.bytes) else none) = text
  cases text with
  | some text =>
    dsimp only
    rw [push_eq _ (add_fixed _ _), add_plus]
    rfl
  | none =>
    dsimp only
    rw [charge_eq, add_plus]
    rfl

theorem collectTool_adds : Adds collectTool toolBill := by
  intro collected tool _
  unfold collectTool toolBill
  cases tool.specification? with
  | some specification =>
    dsimp only
    rw [charge_eq, push_eq _ (add_fixed _ _), add_plus]
    rfl
  | none => exact charge_eq collected _

theorem collectResult_adds : Adds collectResult resultBill := by
  intro collected result _
  rw [collectResult, charge_eq, push_eq _ (add_fixed _ _), add_plus]
  rfl

theorem collectUserMessage_adds (tokenizer : Tokenizer) :
    Adds (collectUserMessage tokenizer) (userBill tokenizer) := by
  intro collected message _
  unfold collectUserMessage
  dsimp only
  rw [charge_eq, push_eq _ (add_fixed _ _), add_plus, (collectImage_adds tokenizer).foldl _ _ (add_fixed _ _), add_plus,
    (collectDocument_adds tokenizer).foldl _ _ (add_fixed _ _), add_plus,
    collectTool_adds.foldl _ _ (add_fixed _ _), add_plus, collectResult_adds.foldl _ _ (add_fixed _ _), add_plus]
  rfl

theorem collectAssistantMessage_adds : Adds collectAssistantMessage assistantBill := by
  intro collected message _
  have uses : Adds (fun collected (tool : KiroToolUse) => (collected.charge toolUseOverheadTokens).push
      [tool.toolUseId, tool.name, tool.input.render]) useBill := by
    intro collected tool _
    dsimp only
    rw [charge_eq, push_eq _ (add_fixed _ _), add_plus]
    rfl
  rw [collectAssistantMessage, charge_eq, push_eq _ (add_fixed _ _), add_plus, uses.foldl _ _ (add_fixed _ _), add_plus]
  rfl

theorem collectHistoryMessage_adds (tokenizer : Tokenizer) :
    Adds (collectHistoryMessage tokenizer) (messageBill tokenizer) := by
  intro collected message bounded
  unfold collectHistoryMessage messageBill
  dsimp only
  cases message.userInputMessage with
  | none =>
    cases message.assistantResponseMessage with
    | none => exact (add_nothing collected bounded).symm
    | some assistant =>
      rw [← add_plus, Option.elim_none, Option.elim_none, add_nothing collected bounded]
      exact collectAssistantMessage_adds collected assistant bounded
  | some user =>
    rw [← add_plus, Option.elim_some, Option.elim_some, collectUserMessage_adds tokenizer collected user bounded]
    cases message.assistantResponseMessage with
    | none => exact (add_nothing _ (add_fixed _ _)).symm
    | some assistant => exact collectAssistantMessage_adds _ assistant (add_fixed _ _)

/-! ### Totals -/

/-- The tokens of some messages, summed up without a limit. -/
def historyTokens (tokenizer : Tokenizer) (messages : List KiroHistoryMessage) : Nat :=
  (Bill.sum (messages.map (messageBill tokenizer))).cost tokenizer

def payloadTokens (tokenizer : Tokenizer) (payload : KiroPayload) : Nat :=
  conversationOverheadTokens + historyTokens tokenizer payload.conversationState.history +
    (userBill tokenizer payload.conversationState.currentMessage.userInputMessage).cost tokenizer

theorem historyTokens_append (tokenizer : Tokenizer) (front back : List KiroHistoryMessage) :
    historyTokens tokenizer (front ++ back) = historyTokens tokenizer front + historyTokens tokenizer back := by
  unfold historyTokens
  induction front with
  | nil => simp [Bill.sum, Bill.cost]
  | cons message rest ih =>
    simp only [List.cons_append, List.map_cons, Bill.sum, List.foldr_cons, Bill.cost_plus] at ih ⊢
    omega

theorem counted_eq (tokenizer : Tokenizer) (segments : List String) (fixed : Nat) :
    segments.foldl (fun total segment => saturatingAdd total (tokenizer.count segment)) (saturatingAdd fixed 0) =
      saturatingAdd fixed (segments.map tokenizer.count).sum := by
  induction segments generalizing fixed with
  | nil => rfl
  | cons segment rest ih =>
    have next : saturatingAdd (saturatingAdd fixed 0) (tokenizer.count segment) =
        saturatingAdd (saturatingAdd fixed (tokenizer.count segment)) 0 := by
      unfold saturatingAdd
      omega
    rw [List.foldl_cons, next, ih, saturatingAdd_assoc, List.map_cons, List.sum_cons]

theorem turnTokens_eq (tokenizer : Tokenizer) (messages : List KiroHistoryMessage) :
    turnTokens tokenizer messages = min (historyTokens tokenizer messages) (2 ^ 64 - 1) := by
  unfold turnTokens
  rw [(collectHistoryMessage_adds tokenizer).foldl {} messages (by decide)]
  have same : (add {} (Bill.sum (messages.map (messageBill tokenizer)))).fixed =
      saturatingAdd (Bill.sum (messages.map (messageBill tokenizer))).tokens 0 := by
    simp only [add, saturatingAdd]
    omega
  dsimp only
  rw [same, add, List.nil_append, counted_eq]
  rfl

theorem estimateKiroPayload_min (tokenizer : Tokenizer) (payload : KiroPayload) :
    estimateKiroPayload tokenizer payload = min (payloadTokens tokenizer payload) (2 ^ 64 - 1) := by
  have start : conversationOverheadTokens < 2 ^ 64 := by decide
  unfold estimateKiroPayload
  dsimp only
  rw [(collectHistoryMessage_adds tokenizer).foldl _ _ start, collectUserMessage_adds tokenizer _ _ (add_fixed _ _),
    add_plus]
  have limited (bill : Bill) : (add { fixed := conversationOverheadTokens } bill).fixed =
      saturatingAdd (saturatingAdd conversationOverheadTokens bill.tokens) 0 := by
    simp only [add, saturatingAdd]
    omega
  rw [limited, add, List.nil_append, counted_eq, saturatingAdd_assoc]
  have total : payloadTokens tokenizer payload = conversationOverheadTokens + ((Bill.sum
      (payload.conversationState.history.map (messageBill tokenizer))).plus
        (userBill tokenizer payload.conversationState.currentMessage.userInputMessage)).cost tokenizer := by
    rw [Bill.cost_plus, payloadTokens, historyTokens]
    omega
  rw [total]
  generalize (Bill.sum (payload.conversationState.history.map (messageBill tokenizer))).plus
    (userBill tokenizer payload.conversationState.currentMessage.userInputMessage) = bill
  unfold Bill.cost saturatingAdd conversationOverheadTokens
  dsimp only
  omega

theorem estimateKiroPayload_eq (tokenizer : Tokenizer) (payload : KiroPayload)
    (exact : payloadTokens tokenizer payload < 2 ^ 64) :
    estimateKiroPayload tokenizer payload = payloadTokens tokenizer payload := by
  rw [estimateKiroPayload_min]
  omega

/-! ### Turns -/

/-- The turns of a history: cut in front of each message that starts one. -/
def turns : List KiroHistoryMessage → List (List KiroHistoryMessage)
  | [] => []
  | message :: rest =>
    match turns rest with
    | [] => [[message]]
    | turn :: later =>
      if rest.head?.any startsConversationTurn then [message] :: turn :: later else (message :: turn) :: later

theorem turns_flatten (history : List KiroHistoryMessage) : (turns history).flatten = history := by
  induction history with
  | nil => rfl
  | cons message rest ih =>
    rw [turns]
    cases cut : turns rest with
    | nil =>
      rw [cut] at ih
      rw [← ih]
      rfl
    | cons turn later =>
      rw [cut] at ih
      dsimp only
      split
      · rw [List.flatten_cons, ih]
        rfl
      · rw [List.flatten_cons, List.cons_append, ← List.flatten_cons, ih]

theorem oldestTurnLen_next (message next : KiroHistoryMessage) (more : List KiroHistoryMessage) :
    oldestTurnLen (message :: next :: more) =
      if startsConversationTurn next then 1 else oldestTurnLen (next :: more) + 1 := by
  rw [oldestTurnLen_cons, oldestTurnLen_cons, List.findIdx?_cons]
  cases startsConversationTurn next with
  | true => rfl
  | false => cases more.findIdx? startsConversationTurn <;> rfl

theorem oldestTurnLen_le (history : List KiroHistoryMessage) : oldestTurnLen history ≤ history.length := by
  induction history with
  | nil => exact Nat.le_refl _
  | cons message rest ih =>
    cases rest with
    | nil => exact Nat.le_refl _
    | cons next more =>
      rw [oldestTurnLen_next]
      split
      · exact Nat.succ_le_succ (Nat.zero_le _)
      · exact Nat.succ_le_succ ih

theorem turns_eq {history : List KiroHistoryMessage} (filled : history ≠ []) :
    turns history = history.take (oldestTurnLen history) :: turns (history.drop (oldestTurnLen history)) := by
  induction history with
  | nil => exact absurd rfl filled
  | cons message rest ih =>
    cases rest with
    | nil => rfl
    | cons next more =>
      have later := ih (List.cons_ne_nil next more)
      rw [turns, later, oldestTurnLen_next, List.head?_cons, Option.any_some]
      dsimp only
      by_cases starts : startsConversationTurn next = true
      · rw [if_pos starts, if_pos starts, ← later]
        rfl
      · rw [if_neg starts, if_neg starts]
        rfl

theorem turns_eq_nil {history : List KiroHistoryMessage} : turns history = [] ↔ history = [] := by
  constructor
  · intro none
    rw [← turns_flatten history, none]
    rfl
  · rintro rfl
    rfl

/-! ### The loop -/

def withTurns (payload : KiroPayload) (messages : List KiroHistoryMessage) : KiroPayload :=
  withHistory payload (payload.conversationState.history.take (protectedHistoryLen payload) ++ messages)

theorem withTurns_compactable (payload : KiroPayload) : withTurns payload (compactable payload) = payload := by
  rw [withTurns, compactable, List.take_append_drop]
  rfl

theorem payloadTokens_withTurns (tokenizer : Tokenizer) (payload : KiroPayload) (front back : List KiroHistoryMessage) :
    payloadTokens tokenizer (withTurns payload (front ++ back)) =
      historyTokens tokenizer front + payloadTokens tokenizer (withTurns payload back) := by
  simp only [payloadTokens, withTurns, withHistory, historyTokens_append]
  omega

theorem payloadTokens_pos (tokenizer : Tokenizer) (payload : KiroPayload) : 0 < payloadTokens tokenizer payload := by
  unfold payloadTokens conversationOverheadTokens
  omega

/-- Whole turns are gone, the number is that of what is left, and each of these turns went while that was still too
much. With results in the current message the last turn is left. -/
structure Removed (tokenizer : Tokenizer) (payload : KiroPayload) (currentHasResults : Bool)
    (maximum count removed tokens : Nat) : Prop where
  inside : count ≤ (turns (compactable payload)).length
  left : turns ((compactable payload).drop removed) = (turns (compactable payload)).drop count
  tokens : tokens = payloadTokens tokenizer (withTurns payload ((compactable payload).drop removed))
  needed : ∀ fewer < count, maximum < payloadTokens tokenizer
    (withTurns payload ((turns (compactable payload)).drop fewer).flatten)
  last : currentHasResults = true → compactable payload ≠ [] → count < (turns (compactable payload)).length

def Stopped (payload : KiroPayload) (currentHasResults : Bool) (maximum count tokens : Nat) : Prop :=
  tokens ≤ maximum ∨ count = (turns (compactable payload)).length ∨
    currentHasResults = true ∧ count + 1 = (turns (compactable payload)).length

variable {count tokens : Nat}

section Loop

variable {tokenizer : Tokenizer} {payload : KiroPayload} {currentHasResults : Bool} {maximum : Nat}

theorem removed_none (tokenizer : Tokenizer) (payload : KiroPayload) (currentHasResults : Bool) (maximum : Nat) :
    Removed tokenizer payload currentHasResults maximum 0 0 (payloadTokens tokenizer payload) where
  inside := Nat.zero_le _
  left := rfl
  tokens := by rw [List.drop_zero, withTurns_compactable]
  needed fewer impossible := absurd impossible (Nat.not_lt_zero fewer)
  last _ filled := List.length_pos_iff.2 fun none => filled (turns_eq_nil.1 none)

variable {removed : Nat}

theorem Removed.next (so_far : Removed tokenizer payload currentHasResults maximum count removed tokens)
    (exact : payloadTokens tokenizer payload < 2 ^ 64) (large : maximum < tokens)
    (filled : (compactable payload).drop removed ≠ []) (another : ¬ (currentHasResults ∧
      oldestTurnLen ((compactable payload).drop removed) = ((compactable payload).drop removed).length)) :
    Removed tokenizer payload currentHasResults maximum (count + 1)
      (removed + oldestTurnLen ((compactable payload).drop removed))
      (max (tokens - turnTokens tokenizer (((compactable payload).drop removed).take
        (oldestTurnLen ((compactable payload).drop removed)))) 1) := by
  generalize whole : (compactable payload).drop removed = rest at *
  have cut := turns_eq filled
  generalize measured : oldestTurnLen rest = size at *
  have parts : (turns (compactable payload)).drop count = rest.take size :: turns (rest.drop size) := by
    rw [← so_far.left, whole, cut]
  have behind : (compactable payload).drop (removed + size) = rest.drop size := by
    rw [← List.drop_drop, whole]
  have later : turns (rest.drop size) = (turns (compactable payload)).drop (count + 1) := by
    rw [← List.drop_drop, parts]
    rfl
  have longer : count < (turns (compactable payload)).length := by
    by_contra short
    rw [List.drop_eq_nil_of_le (Nat.le_of_not_lt short)] at parts
    cases parts
  have before : tokens = historyTokens tokenizer (rest.take size) +
      payloadTokens tokenizer (withTurns payload (rest.drop size)) := by
    rw [← payloadTokens_withTurns, List.take_append_drop, so_far.tokens, whole]
  refine ⟨longer, by rw [behind, later], ?_, fun fewer below => ?_, fun results some => ?_⟩
  · have front := payloadTokens_withTurns tokenizer payload ((compactable payload).take removed)
      ((compactable payload).drop removed)
    rw [List.take_append_drop, withTurns_compactable, ← so_far.tokens] at front
    have some := payloadTokens_pos tokenizer (withTurns payload (rest.drop size))
    rw [turnTokens_eq, behind]
    omega
  · rcases Nat.lt_succ_iff_lt_or_eq.1 below with earlier | rfl
    · exact so_far.needed fewer earlier
    · rw [parts, ← cut, turns_flatten, ← whole, ← so_far.tokens]
      exact large
  · have short : size < rest.length :=
      Nat.lt_of_le_of_ne (measured ▸ oldestTurnLen_le rest) fun same => another ⟨results, same⟩
    have more : turns (rest.drop size) ≠ [] := by
      rw [Ne, turns_eq_nil, List.drop_eq_nil_iff]
      exact Nat.not_le_of_gt short
    rw [later, Ne, List.drop_eq_nil_iff] at more
    exact Nat.lt_of_not_le more

theorem Removed.all (so_far : Removed tokenizer payload currentHasResults maximum count removed tokens)
    (none : (compactable payload).drop removed = []) : count = (turns (compactable payload)).length := by
  have left := so_far.left
  rw [none, turns, eq_comm, List.drop_eq_nil_iff] at left
  exact Nat.le_antisymm so_far.inside left

theorem removeTurns_spec (exact : payloadTokens tokenizer payload < 2 ^ 64) (rounds : Nat)
    (so_far : Removed tokenizer payload currentHasResults maximum count removed tokens)
    (enough : ((compactable payload).drop removed).length ≤ rounds) :
    let after := removeTurns tokenizer (compactable payload) currentHasResults maximum rounds removed tokens
    ∃ count, Removed tokenizer payload currentHasResults maximum count after.1 after.2 ∧
      Stopped payload currentHasResults maximum count after.2 := by
  induction rounds generalizing count removed tokens with
  | zero =>
    have none := List.length_eq_zero_iff.1 (Nat.le_zero.1 enough)
    exact ⟨count, so_far, .inr (.inl (so_far.all none))⟩
  | succ rounds ih =>
    rw [removeTurns]
    split
    case isFalse small => exact ⟨count, so_far, .inl (Nat.le_of_not_lt small)⟩
    case isTrue large =>
      dsimp only
      split
      case isTrue ends =>
        refine ⟨count, so_far, .inr ?_⟩
        by_cases none : (compactable payload).drop removed = []
        · exact .inl (so_far.all none)
        · have positive := oldestTurnLen_pos none
          obtain ⟨results, whole⟩ := ends.resolve_left (Nat.ne_of_gt positive)
          refine .inr ⟨results, ?_⟩
          have one := turns_eq none
          rw [whole, List.drop_length, so_far.left, turns] at one
          have length := congrArg List.length one
          rw [List.length_drop, List.length_singleton] at length
          omega
      case isFalse goes_on =>
        obtain ⟨positive, another⟩ := not_or.1 goes_on
        have filled : (compactable payload).drop removed ≠ [] := by
          intro none
          rw [none] at positive
          exact positive rfl
        apply ih (so_far.next exact large filled another)
        rw [← List.drop_drop, List.length_drop]
        omega

end Loop

/-! ### The result -/

def currentHasResults (payload : KiroPayload) : Bool :=
  !payload.conversationState.currentMessage.userInputMessage.toolResults.isEmpty

/-- A payload whose oldest turns are gone: the number that is told is that of what is left, as few turns as possible
are gone, and the last one stays when the current message has results of its calls. -/
structure Truncated (tokenizer : Tokenizer) (payload result : KiroPayload) (maximum tokens count : Nat) : Prop where
  inside : count ≤ (turns (compactable payload)).length
  history : result = withTurns payload ((turns (compactable payload)).drop count).flatten
  counted : tokens = estimateKiroPayload tokenizer result
  needed : ∀ fewer < count, maximum < estimateKiroPayload tokenizer
    (withTurns payload ((turns (compactable payload)).drop fewer).flatten)
  last : currentHasResults payload = true → compactable payload ≠ [] → count < (turns (compactable payload)).length
  stopped : Stopped payload (currentHasResults payload) maximum count tokens

theorem payloadTokens_turns_le (tokenizer : Tokenizer) (payload : KiroPayload) (count : Nat) :
    payloadTokens tokenizer (withTurns payload ((turns (compactable payload)).drop count).flatten) ≤
      payloadTokens tokenizer payload := by
  have whole : ((turns (compactable payload)).take count).flatten ++ ((turns (compactable payload)).drop count).flatten =
      compactable payload := by
    rw [← List.flatten_append, List.take_append_drop, turns_flatten]
  have parts := payloadTokens_withTurns tokenizer payload ((turns (compactable payload)).take count).flatten
    ((turns (compactable payload)).drop count).flatten
  rw [whole, withTurns_compactable] at parts
  omega

theorem truncateKiroHistory_truncated (tokenizer : Tokenizer) (payload : KiroPayload) (maximum : Nat)
    (exact : payloadTokens tokenizer payload < 2 ^ 64) :
    ∃ count, Truncated tokenizer payload (truncateKiroHistory tokenizer payload maximum).1 maximum
      (truncateKiroHistory tokenizer payload maximum).2 count := by
  have bounded (count : Nat) := Nat.lt_of_le_of_lt (payloadTokens_turns_le tokenizer payload count) exact
  obtain ⟨count, removed, stopped⟩ := removeTurns_spec exact (compactable payload).length
    (removed_none tokenizer payload (currentHasResults payload) maximum) (Nat.le_refl _)
  have run : truncateKiroHistory tokenizer payload maximum = (withTurns payload ((compactable payload).drop
      (removeTurns tokenizer (compactable payload) (currentHasResults payload) maximum (compactable payload).length 0
        (payloadTokens tokenizer payload)).1),
      (removeTurns tokenizer (compactable payload) (currentHasResults payload) maximum (compactable payload).length 0
        (payloadTokens tokenizer payload)).2) := by
    rw [truncateKiroHistory, estimateKiroPayload_eq tokenizer payload exact]
    rfl
  rw [run]
  generalize removeTurns tokenizer (compactable payload) (currentHasResults payload) maximum
    (compactable payload).length 0 (payloadTokens tokenizer payload) = after at *
  have left : (compactable payload).drop after.1 = ((turns (compactable payload)).drop count).flatten := by
    rw [← removed.left, turns_flatten]
  refine ⟨count, removed.inside, by rw [left], ?_, fun fewer below => ?_, removed.last, stopped⟩
  · dsimp only
    rw [removed.tokens, left, estimateKiroPayload_eq tokenizer _ (bounded count)]
  · rw [estimateKiroPayload_eq tokenizer _ (bounded fewer)]
    exact removed.needed fewer below

/-! ### The contract of the tool history -/

inductive PlainPairs : List KiroHistoryMessage → Prop
  | nil : PlainPairs []
  | pair {rest : List KiroHistoryMessage} (user : KiroUserInputMessage) (assistant : KiroAssistantMessage)
    (silent : assistant.toolUses = []) (later : PlainPairs rest) :
    PlainPairs (userTurn user :: assistantTurn assistant :: rest)

theorem PlainPairs.checked {names used answered : List String} {current : KiroUserInputMessage}
    {front back other : List KiroHistoryMessage} (pairs : PlainPairs front)
    (checked : Checked names current (some []) used answered (front ++ back))
    (again : Checked names current (some []) used answered other) :
    Checked names current (some []) used answered (front ++ other) := by
  induction pairs with
  | nil => exact again
  | pair user assistant silent later ih =>
    obtain ⟨user', same, toolless, ok, assistant', same', uses, rest⟩ := checked
    cases same
    cases same'
    have bare : resultIds user = [] := by
      rw [resultIds, ok.nil_iff.2 rfl]
      rfl
    have none : useIds assistant = [] := by
      rw [useIds, silent]
      rfl
    refine ⟨user, rfl, toolless, ok, assistant, rfl, uses, ?_⟩
    rw [bare, none, List.append_nil, List.append_nil] at rest ⊢
    exact ih rest

theorem turns_filled (history : List KiroHistoryMessage) : ∀ turn ∈ turns history, turn ≠ [] := by
  induction history with
  | nil => exact fun turn member => absurd member List.not_mem_nil
  | cons message rest ih =>
    rw [turns]
    split
    · intro turn member
      rw [List.mem_singleton.1 member]
      exact List.cons_ne_nil message []
    · rename_i turn later cut
      rw [cut] at ih
      split
      · exact List.forall_mem_cons.2 ⟨List.cons_ne_nil message [], ih⟩
      · exact List.forall_mem_cons.2 ⟨List.cons_ne_nil message turn, (List.forall_mem_cons.1 ih).2⟩

theorem turnStart_flatten (history : List KiroHistoryMessage) (count : Nat) (some : 0 < count) :
    TurnStart ((turns history).drop count).flatten := by
  induction count generalizing history with
  | zero => exact absurd some (Nat.lt_irrefl 0)
  | succ count ih =>
    by_cases empty : history = []
    · rw [empty, turns, List.drop_nil, List.flatten_nil]
      exact fun first found => nomatch found
    · rw [turns_eq empty, List.drop_succ_cons]
      rcases Nat.eq_zero_or_pos count with rfl | positive
      · rw [List.drop_zero, turns_flatten]
        exact turnStart_drop history
      · exact ih _ positive

theorem Truncated.accepted {tokenizer : Tokenizer} {payload result : KiroPayload} {maximum : Nat}
    (truncated : Truncated tokenizer payload result maximum tokens count)
    (pairs : PlainPairs (payload.conversationState.history.take (protectedHistoryLen payload)))
    (accepted : validateKiroToolHistory payload = .ok ()) : validateKiroToolHistory result = .ok () := by
  rcases Nat.eq_zero_or_pos count with rfl | some
  · have same : result = payload := by
      rw [truncated.history, List.drop_zero, turns_flatten, withTurns_compactable]
    rw [same, accepted]
  obtain ⟨named, distinct, checked⟩ := (validate_iff payload).1 accepted
  rw [truncated.history]
  apply (validate_iff _).2
  refine ⟨named, distinct, ?_⟩
  have whole := checked
  rw [← List.take_append_drop (protectedHistoryLen payload) payload.conversationState.history] at whole
  refine pairs.checked whole ?_
  have start := turnStart_flatten (compactable payload) count some
  have parts : compactable payload = ((turns (compactable payload)).take count).flatten ++
      ((turns (compactable payload)).drop count).flatten := by
    rw [← List.flatten_append, List.take_append_drop, turns_flatten]
  cases left : ((turns (compactable payload)).drop count).flatten with
  | nil =>
    -- everything is gone, so that the current message has no results
    apply ResultsOk.of_none
    change payload.conversationState.currentMessage.userInputMessage.toolResults = []
    by_contra results
    have filled : compactable payload ≠ [] := by
      intro empty
      have inside := truncated.inside
      rw [empty, turns, List.length_nil] at inside
      omega
    have more := truncated.last (by simpa [currentHasResults] using results) filled
    have kept : ((turns (compactable payload)).drop count) ≠ [] := by
      rw [Ne, List.drop_eq_nil_iff]
      exact Nat.not_le_of_gt more
    obtain ⟨turn, others, first⟩ := List.exists_cons_of_ne_nil kept
    rw [first, List.flatten_cons, List.append_eq_nil_iff] at left
    have member : turn ∈ (turns (compactable payload)).drop count := by
      rw [first]
      exact List.mem_cons_self
    exact turns_filled (compactable payload) turn (List.mem_of_mem_drop member) left.1
  | cons message rest =>
    rw [left] at start parts
    have opens : startsConversationTurn message = true := start message rfl
    rw [← compactable, parts, ← List.append_assoc] at whole
    obtain ⟨due, used, answered, -, behind⟩ := whole.later
    cases due with
    | none =>
      obtain ⟨assistant, rfl, -⟩ := behind
      cases opens
    | some due =>
      refine behind.restart ?_
      obtain ⟨user, rfl, -⟩ := behind
      exact List.isEmpty_iff.1 opens

end KiroProxy.Tokens

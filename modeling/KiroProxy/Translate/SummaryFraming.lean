import KiroProxy.Translate.SummaryPartition

/-! A conversation without tools as it is sent: every message stays, and between two of one role, or in front of a first
answer, stands a placeholder. What the placeholders cost together, and what each message was charged for on its own. -/
namespace KiroProxy.SummaryPartition

open Tokens ToolHistory

def Plain : ConversationMessage → Prop
  | .user user => user.toolResults = []
  | .assistant assistant => assistant.toolUses = []

/-- No message of the payload has calls, results or, in the current one, definitions. -/
structure ToolFree (payload : KiroPayload) (messages : List ConversationMessage) : Prop where
  history : payload.conversationState.history = messages.map historyItem
  plain : ∀ message ∈ messages, Plain message
  results : payload.conversationState.currentMessage.userInputMessage.toolResults = []
  tools : payload.conversationState.currentMessage.userInputMessage.tools = []

def bare : ConversationMessage → ConversationMessage
  | .user user => .user { user with userInputMessageContext := none }
  | .assistant assistant => .assistant assistant

def placeholderUser (template : KiroUserInputMessage) (content : String) : ConversationMessage :=
  .user (syntheticUser template content [])

def beginText : String := "Begin conversation."

def continueText : String := "Continue after the previous tool call."

/-- What stands in front of a message, of a user or not, behind one of the given role. -/
def framing (template : KiroUserInputMessage) : Option Bool → Bool → List ConversationMessage
  | some true, true => [.assistant syntheticAssistant]
  | none, false => [placeholderUser template beginText]
  | some false, false => [placeholderUser template continueText]
  | _, _ => []

/-- The messages with the placeholders in front of them and of the current message behind them. -/
def framed (template : KiroUserInputMessage) : Option Bool → List ConversationMessage → List ConversationMessage
  | last, [] => framing template last true
  | last, message :: rest =>
    framing template last (isUser message) ++ bare message :: framed template (some (isUser message)) rest

/-! ### The repair of a conversation without tools -/

variable {messages : List ConversationMessage} {payload : KiroPayload}

theorem takeHistory_plain (plain : ∀ message ∈ messages, Plain message) (stats : KiroToolHistoryStats) :
    (takeHistory (messages.map historyItem) stats).1 = messages.map bare := by
  induction messages generalizing stats with
  | nil => rfl
  | cons message rest ih =>
    have others : ∀ message ∈ rest, Plain message := fun other member => plain other (List.mem_cons_of_mem _ member)
    have first := plain message List.mem_cons_self
    cases message with
    | assistant assistant => exact congrArg (ConversationMessage.assistant assistant :: ·) (ih others stats)
    | user user =>
      have cleared : (clearDefinitions user stats).1 = { user with userInputMessageContext := none } := by
        have first : user.toolResults = [] := first
        unfold clearDefinitions
        unfold KiroUserInputMessage.toolResults at first
        cases context : user.userInputMessageContext with
        | none => exact (congrArg (fun context => { user with userInputMessageContext := context }) context.symm).symm
        | some value =>
          rw [context] at first
          have none : value.toolResults.isEmpty = true := List.isEmpty_iff.2 first
          dsimp only
          rw [if_pos none]
      simp only [List.map_cons, historyItem, takeHistory, bare, ih others, cleared, List.cons_append, List.nil_append]

theorem sourcedResults_plain (plain : ∀ message ∈ messages, Plain message) (index : Nat) :
    sourcedResults index messages = [] := by
  induction messages generalizing index with
  | nil => rfl
  | cons message rest ih =>
    have others := ih (fun other member => plain other (List.mem_cons_of_mem _ member)) (index + 1)
    have first := plain message List.mem_cons_self
    cases message with
    | assistant assistant => exact others
    | user user =>
      have none : user.toolResults = [] := first
      rw [sourcedResults, none, others]
      rfl

theorem withoutResults_plain {message : ConversationMessage} (plain : Plain message) : Plain (withoutResults message) := by
  cases message with
  | assistant assistant => exact plain
  | user user => exact emptied_results (takeToolResults_emptied user)

theorem repairAssistants_plain (plain : ∀ message ∈ messages, Plain message) (counts : String → Nat)
    (names : List String) (index : Nat) (state : PairingState) :
    repairAssistants counts names index messages state = (messages, state) := by
  induction messages generalizing index with
  | nil => rfl
  | cons message rest ih =>
    have others := ih (fun other member => plain other (List.mem_cons_of_mem _ member)) (index + 1)
    have first := plain message List.mem_cons_self
    cases message with
    | user user => rw [repairAssistants, others]
    | assistant assistant =>
      have none : assistant.toolUses = [] := first
      rw [repairAssistants, none, repairUses]
      dsimp only
      rw [others]
      dsimp only
      rw [← none]

theorem repairToolPairs_plain (plain : ∀ message ∈ messages, Plain message) (names : List String)
    (stats : KiroToolHistoryStats) :
    repairToolPairs messages names stats = (messages.map withoutResults, fun _ => [], stats) := by
  have listed := (collectResults_lists 0 messages empty_lists).results
  rw [sourcedResults_plain plain] at listed
  have bared : ∀ message ∈ messages.map withoutResults, Plain message := by
    intro message member
    obtain ⟨original, inside, rfl⟩ := List.mem_map.1 member
    exact withoutResults_plain (plain original inside)
  rw [repairToolPairs]
  dsimp only
  rw [collectResults_messages, repairAssistants_plain bared]
  dsimp only
  rw [listed]
  rfl

theorem weave_framed (template : KiroUserInputMessage) (current : KiroUserInputMessage) (index : Nat)
    (messages : List ConversationMessage) (last : Option Bool) :
    (weave template (fun _ => []) index (messages.map bare ++ [.user current]) last []).map Prod.snd =
      framed template last messages ++ [.user current] := by
  have unchanged (user : KiroUserInputMessage) : addToolResults user [] = user := rfl
  induction messages generalizing index last with
  | nil =>
    rcases last with _ | _ | _ <;> simp [weave, framed, framing, unchanged]
  | cons message rest ih =>
    cases message with
    | user user =>
      have tail := ih (index + 1) (some true)
      rcases last with _ | _ | _ <;>
        simp [weave, framed, framing, unchanged, bare, isUser, tail]
    | assistant assistant =>
      have tail := ih (index + 1) (some false)
      rcases last with _ | _ | _ <;>
        simp [weave, framed, framing, bare, isUser, tail, placeholderUser, beginText, continueText]

def tidied (user : KiroUserInputMessage) : KiroUserInputMessage := (takeToolResults user).1

theorem tidied_content (user : KiroUserInputMessage) : (tidied user).content = user.content ∧
    (tidied user).images = user.images ∧ (tidied user).documents = user.documents := by
  unfold tidied takeToolResults
  cases user.userInputMessageContext with
  | none => exact ⟨rfl, rfl, rfl⟩
  | some context =>
    dsimp only
    split <;> exact ⟨rfl, rfl, rfl⟩

theorem definitions_plain {context : Option KiroMessageContext} (none : (context.map (·.tools)).getD [] = [])
    (stats : KiroToolHistoryStats) : ∃ names, sanitizeCurrentToolDefinitions context stats = (context, names, stats) := by
  cases context with
  | none => exact ⟨[], rfl⟩
  | some context =>
    have none : context.tools = [] := none
    refine ⟨[], ?_⟩
    unfold sanitizeCurrentToolDefinitions
    dsimp only
    rw [none, retainDefinitions]
    dsimp only
    rw [← none]

theorem normalized_eq (free : ToolFree payload messages) :
    ∃ template, normalized payload =
      withConversation payload (tidied payload.conversationState.currentMessage.userInputMessage)
        ((framed template none messages).map historyItem) := by
  obtain ⟨names, kept⟩ := definitions_plain free.tools {}
  let current := payload.conversationState.currentMessage.userInputMessage
  have plain : ∀ message ∈ messages.map bare ++ [.user current], Plain message := by
    intro message member
    rcases List.mem_append.1 member with past | last
    · obtain ⟨original, inside, rfl⟩ := List.mem_map.1 past
      have before := free.plain original inside
      cases original with
      | user user => rfl
      | assistant assistant => exact before
    · obtain rfl := List.mem_singleton.1 last
      exact free.results
  have bared : (messages.map bare ++ [ConversationMessage.user current]).map withoutResults =
      messages.map bare ++ [ConversationMessage.user (tidied current)] := by
    rw [List.map_append, List.map_map]
    exact congrArg₂ (· ++ ·) (List.map_congr_left fun message _ => by cases message <;> rfl) rfl
  let stats := (takeHistory (messages.map historyItem) {}).2
  have taken : takeHistory (messages.map historyItem) {} = (messages.map bare, stats) :=
    Prod.ext (takeHistory_plain free.plain {}) rfl
  obtain ⟨template, woven⟩ := normalizeRoles_weave (messages.map bare ++ [.user (tidied current)]) (fun _ => []) stats
    (endsInUser_snoc false _ _)
  rw [weave_framed] at woven
  refine ⟨template, ?_⟩
  unfold normalized sanitizeKiroToolHistory
  dsimp only
  rw [kept]
  dsimp only
  rw [free.history, taken]
  dsimp only
  rw [show repairToolPairs (messages.map bare ++ [.user current]) names stats = _ from
    repairToolPairs_plain plain names stats, bared]
  dsimp only
  rw [woven]
  dsimp only
  rw [List.getLast?_concat, List.dropLast_concat]

/-! ### What the conversation costs -/

section Costs

variable (tokenizer : Tokenizer)

def itemTokens (message : ConversationMessage) : Nat := (messageBill tokenizer (historyItem message)).cost tokenizer

def placeholderTokens (content : String) : Nat := messageOverheadTokens + tokenizer.count content

def framingTokens : Option Bool → Bool → Nat
  | some true, true => placeholderTokens tokenizer "Continue."
  | none, false => placeholderTokens tokenizer beginText
  | some false, false => placeholderTokens tokenizer continueText
  | _, _ => 0

def aloneTokens (message : ConversationMessage) : Nat :=
  itemTokens tokenizer (bare message) + framingTokens tokenizer none (isUser message) +
    framingTokens tokenizer (some (isUser message)) true

def framedTokens : Option Bool → List ConversationMessage → Nat
  | last, [] => framingTokens tokenizer last true
  | last, message :: rest =>
    framingTokens tokenizer last (isUser message) + itemTokens tokenizer (bare message) +
      framedTokens (some (isUser message)) rest

def adjacent (first second : Bool) : List Bool → Nat
  | role :: next :: rest =>
    (if role = first ∧ next = second then 1 else 0) + adjacent first second (next :: rest)
  | _ => 0

theorem framing_tokens (template : KiroUserInputMessage) (last : Option Bool) (role : Bool) :
    historyTokens tokenizer ((framing template last role).map historyItem) = framingTokens tokenizer last role := by
  rcases last with _ | _ | _ <;> cases role <;>
    simp [framing, framingTokens, placeholderTokens, historyTokens, messageBill, historyItem, placeholderUser,
      syntheticUser, syntheticAssistant, userBill, assistantBill, Bill.plus, Bill.sum, Bill.cost,
      KiroUserInputMessage.tools, KiroUserInputMessage.toolResults]

theorem historyTokens_cons (message : ConversationMessage) (rest : List KiroHistoryMessage) :
    historyTokens tokenizer (historyItem message :: rest) = itemTokens tokenizer message + historyTokens tokenizer rest := by
  simp only [historyTokens, List.map_cons, Bill.sum, List.foldr_cons, Bill.cost_plus, itemTokens]

theorem framed_tokens (template : KiroUserInputMessage) (last : Option Bool) (messages : List ConversationMessage) :
    historyTokens tokenizer ((framed template last messages).map historyItem) = framedTokens tokenizer last messages := by
  induction messages generalizing last with
  | nil => exact framing_tokens tokenizer template last true
  | cons message rest ih =>
    rw [framed, framedTokens, List.map_append, historyTokens_append, framing_tokens, List.map_cons, historyTokens_cons,
      ih, Nat.add_assoc]

theorem framedTokens_balance (last : Option Bool) (messages : List ConversationMessage) :
    framedTokens tokenizer last messages +
        adjacent true false (last.toList ++ messages.map isUser) *
          (placeholderTokens tokenizer "Continue." + placeholderTokens tokenizer beginText) +
        adjacent false false (last.toList ++ messages.map isUser) * placeholderTokens tokenizer beginText =
      framingTokens tokenizer last true + (messages.map (aloneTokens tokenizer)).sum +
        adjacent false false (last.toList ++ messages.map isUser) * placeholderTokens tokenizer continueText := by
  induction messages generalizing last with
  | nil => rcases last with _ | _ | _ <;> simp [framedTokens, adjacent]
  | cons message rest ih =>
    have tail := ih (some (isUser message))
    simp only [framedTokens, List.map_cons, List.sum_cons, aloneTokens]
    cases role : isUser message <;> rcases last with _ | _ | _ <;>
      simp [role, framingTokens, adjacent, Nat.add_mul] at tail ⊢ <;> omega

theorem tidied_tokens {user : KiroUserInputMessage} (results : user.toolResults = []) :
    (userBill tokenizer (tidied user)).cost tokenizer = (userBill tokenizer user).cost tokenizer := by
  have without : (tidied user).toolResults = [] := emptied_results (takeToolResults_emptied user)
  obtain ⟨content, images, documents⟩ := tidied_content user
  unfold userBill
  rw [content, images, documents, without, results, show (tidied user).tools = user.tools from takeToolResults_tools user]

structure Blank (payload : KiroPayload) : Prop where
  history : payload.conversationState.history = []
  results : payload.conversationState.currentMessage.userInputMessage.toolResults = []
  tools : payload.conversationState.currentMessage.userInputMessage.tools = []

variable {tokenizer}

theorem Blank.withHistory (blank : Blank payload) (plain : ∀ message ∈ messages, Plain message) :
    ToolFree (withHistory payload (messages.map historyItem)) messages :=
  ⟨rfl, plain, blank.results, blank.tools⟩

theorem Blank.partTokens (blank : Blank payload) (plain : ∀ message ∈ messages, Plain message) :
    normalizedTokens tokenizer payload (messages.map historyItem) =
      min (payloadTokens tokenizer payload + framedTokens tokenizer none messages) (2 ^ 64 - 1) := by
  obtain ⟨template, same⟩ := normalized_eq (blank.withHistory plain)
  rw [normalizedTokens, estimateKiroPayload_min, same, payloadTokens, payloadTokens, blank.history]
  dsimp only [withConversation, Tokens.withHistory]
  have none : historyTokens tokenizer [] = 0 := rfl
  rw [framed_tokens, tidied_tokens tokenizer blank.results, none]
  omega

end Costs

end KiroProxy.SummaryPartition

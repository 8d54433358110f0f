import KiroProxy.Translate.ToolHistoryRepair

/-! Where the tool data goes. Every call and every result of a payload is accounted for
once: a call stays structured or becomes a record in its own message, a result answers
one earlier call or becomes a record in the message that carried it. -/
namespace KiroProxy.ToolHistory

open Text (trim)

def itemMessages (item : KiroHistoryMessage) : List ConversationMessage :=
  item.userInputMessage.toList.map .user ++ item.assistantResponseMessage.toList.map .assistant

/-- The conversation of a payload as it stands, the current message last. -/
def conversationOf (payload : KiroPayload) : List ConversationMessage :=
  payload.conversationState.history.flatMap itemMessages ++ [.user (originalOf payload)]

def sourcedCalls : Nat → List ConversationMessage → List (Nat × KiroToolUse)
  | _, [] => []
  | index, message :: rest =>
    (toolUsesOf message).map (fun toolUse => (index, toolUse)) ++ sourcedCalls (index + 1) rest

section Account

variable (before : List ConversationMessage) (keep : KiroToolUse → Bool)
  (claim : Nat × KiroToolUse → Option (Sourced × Nat))

def callsAt (n : Nat) : List KiroToolUse := ((before[n]?).map toolUsesOf).getD []

def keptCalls : List (Nat × KiroToolUse) := (sourcedCalls 0 before).filter (fun c => keep c.2)

def archivedCalls : List (Nat × KiroToolUse) := (sourcedCalls 0 before).filter (fun c => !keep c.2)

def claimedNumbers : List Nat := (keptCalls before keep).filterMap (fun c => (claim c).map Prod.snd)

def archivedResults : List (Sourced × Nat) :=
  unclaimed (sourcedResults 0 before) (claimedNumbers before keep claim)

/-- The structured result of a call: the claimed one under the call's id, or the missing one. -/
def answerTo (call : Nat × KiroToolUse) : KiroToolResult :=
  match claim call with
  | some x => repairedResult (trim call.2.toolUseId) x.1.2
  | none => missingResult (trim call.2.toolUseId)

def scheduledAnswers (n : Nat) : List KiroToolResult :=
  ((callsAt before n).filter keep).map (fun toolUse => answerTo claim (n, toolUse))

/-- An exact account of the tool data of `before` in the placed messages `after`: `keep`
marks the calls that stay structured, `claim` gives the result that answers a call. -/
structure Conserved (after : List Placed) (stats : KiroToolHistoryStats) : Prop where
  origins : after.filterMap Prod.fst = List.range before.length
  inserted : ∀ message, (none, message) ∈ after → ∃ template, Inserted template message
  assistants : ∀ n assistant message, before[n]? = some (.assistant assistant) →
    (some n, message) ∈ after → message = .assistant { assistant with
      content := archiveAll assistant.content
        ((assistant.toolUses.filter (fun toolUse => !keep toolUse)).map renderToolUse)
      toolUses := (assistant.toolUses.filter keep).map trimmedUse }
  users : ∀ n user message, before[n]? = some (.user user) → (some n, message) ∈ after →
    ∃ placed, message = .user placed ∧ placed.content = archiveAll user.content
      ((unclaimedAt (sourcedResults 0 before) (claimedNumbers before keep claim) n).map
        renderToolResult)
  answers : Delivers (scheduledAnswers before keep claim) [] after
  claimed : ∀ call ∈ keptCalls before keep, ∀ x, claim call = some x →
    x ∈ (sourcedResults 0 before).zipIdx ∧
      trim x.1.2.toolUseId = trim call.2.toolUseId ∧ call.1 < x.1.1
  unanswered : ∀ call ∈ keptCalls before keep, claim call = none →
    ∀ s ∈ sourcedResults 0 before, trim s.2.toolUseId = trim call.2.toolUseId → s.1 ≤ call.1
  once : (claimedNumbers before keep claim).Nodup
  flattenedUses : stats.flattenedToolUses = (archivedCalls before keep).length
  flattenedResults : stats.flattenedToolResults = (archivedResults before keep claim).length
  synthesized : stats.synthesizedToolResults =
    (keptCalls before keep).countP (fun call => (claim call).isNone)

end Account

/-! ### The passes before the pairing move no tool data -/

def SameTools : ConversationMessage → ConversationMessage → Prop
  | .user user, .user other => user.content = other.content ∧ user.toolResults = other.toolResults
  | .assistant assistant, .assistant other => assistant = other
  | _, _ => False

theorem clearDefinitions_sameTools (user : KiroUserInputMessage) (stats : KiroToolHistoryStats) :
    SameTools (.user user) (.user (clearDefinitions user stats).1) := by
  obtain ⟨content, model, origin, images, documents, point, config, context⟩ := user
  cases context with
  | none => exact ⟨rfl, rfl⟩
  | some context =>
    obtain ⟨results, tools, state⟩ := context
    cases results <;> exact ⟨rfl, rfl⟩

theorem sameTools_assistant (assistant : KiroAssistantMessage) :
    SameTools (.assistant assistant) (.assistant assistant) := rfl

theorem takeHistory_sameTools (history : List KiroHistoryMessage) (stats : KiroToolHistoryStats) :
    List.Forall₂ SameTools (history.flatMap itemMessages) (takeHistory history stats).1 := by
  induction history generalizing stats with
  | nil => exact .nil
  | cons item rest ih =>
    obtain ⟨user, assistant⟩ := item
    cases user with
    | none =>
      cases assistant with
      | none => simpa [itemMessages, takeHistory] using ih stats
      | some assistant =>
        simpa [itemMessages, takeHistory] using List.Forall₂.cons (sameTools_assistant assistant) (ih stats)
    | some user =>
      have first := clearDefinitions_sameTools user stats
      have tail := ih (clearDefinitions user stats).2
      cases assistant with
      | none => simpa [itemMessages, takeHistory] using List.Forall₂.cons first tail
      | some assistant =>
        simpa [itemMessages, takeHistory] using
          List.Forall₂.cons first (.cons (sameTools_assistant assistant) tail)

theorem currentOf_sameTools (payload : KiroPayload) :
    SameTools (.user (originalOf payload)) (.user (currentOf payload)) := by
  refine ⟨rfl, ?_⟩
  unfold KiroUserInputMessage.toolResults currentOf definitionsOf sanitizeCurrentToolDefinitions
  cases (originalOf payload).userInputMessageContext <;> rfl

theorem messagesOf_sameTools (payload : KiroPayload) :
    List.Forall₂ SameTools (conversationOf payload) (messagesOf payload) :=
  List.rel_append (takeHistory_sameTools _ _) (.cons (currentOf_sameTools payload) .nil)

section Same

variable {before messages : List ConversationMessage} (same : List.Forall₂ SameTools before messages)

include same

theorem sameTools_calls (index : Nat) : sourcedCalls index before = sourcedCalls index messages := by
  induction same generalizing index with
  | nil => rfl
  | @cons first second _ _ head _ ih =>
    have uses : toolUsesOf first = toolUsesOf second := by
      cases first <;> cases second
      · rfl
      · exact head.elim
      · exact head.elim
      · rw [show _ = _ from head]
    simp [sourcedCalls, uses, ih]

theorem sameTools_results (index : Nat) : sourcedResults index before = sourcedResults index messages := by
  induction same generalizing index with
  | nil => rfl
  | @cons first second _ _ head _ ih =>
    cases first <;> cases second
    · simp [sourcedResults, ih, head.2]
    · exact head.elim
    · exact head.elim
    · simp [sourcedResults, ih]

theorem sameTools_getElem (n : Nat) : Option.Rel SameTools before[n]? messages[n]? := by
  induction same generalizing n with
  | nil => exact .none
  | cons head _ ih =>
    cases n with
    | zero => exact .some head
    | succ n => simpa using ih n

theorem sameTools_callsAt (n : Nat) : callsAt before n = callsAt messages n := by
  have here := sameTools_getElem same n
  unfold callsAt
  cases first : before[n]? with
  | none =>
    rw [first] at here
    cases other : messages[n]? with
    | none => rfl
    | some message =>
      rw [other] at here
      cases here
  | some message =>
    rw [first] at here
    cases other : messages[n]? with
    | none =>
      rw [other] at here
      cases here
    | some replaced =>
      rw [other] at here
      cases here with
      | some tools =>
        cases message <;> cases replaced
        · rfl
        · exact tools.elim
        · exact tools.elim
        · rw [show _ = _ from tools]

theorem conserved_of_sameTools {keep : KiroToolUse → Bool}
    {claim : Nat × KiroToolUse → Option (Sourced × Nat)} {after : List Placed}
    {stats : KiroToolHistoryStats} (account : Conserved messages keep claim after stats) :
    Conserved before keep claim after stats := by
  have calls := sameTools_calls same 0
  have results := sameTools_results same 0
  have kept : keptCalls before keep = keptCalls messages keep := by rw [keptCalls, calls, keptCalls]
  have numbers : claimedNumbers before keep claim = claimedNumbers messages keep claim := by
    rw [claimedNumbers, kept, claimedNumbers]
  have schedule : scheduledAnswers before keep claim = scheduledAnswers messages keep claim := by
    funext n
    rw [scheduledAnswers, sameTools_callsAt same n, scheduledAnswers]
  constructor
  · rw [same.length_eq]
    exact account.origins
  · exact account.inserted
  · intro n assistant message place placed
    have here := sameTools_getElem same n
    rw [place] at here
    cases other : messages[n]? with
    | none =>
      rw [other] at here
      cases here
    | some prepared =>
      rw [other] at here
      cases here with
      | some tools =>
        cases prepared with
        | user user => exact tools.elim
        | assistant prepared =>
          cases (show assistant = prepared from tools)
          exact account.assistants n assistant message other placed
  · intro n user message place placed
    have here := sameTools_getElem same n
    rw [place] at here
    cases other : messages[n]? with
    | none =>
      rw [other] at here
      cases here
    | some prepared =>
      rw [other] at here
      cases here with
      | some tools =>
        cases prepared with
        | assistant assistant => exact tools.elim
        | user prepared =>
          rw [results, numbers, tools.1]
          exact account.users n prepared message other placed
  · rw [schedule]
    exact account.answers
  · rw [kept, results]
    exact account.claimed
  · rw [kept, results]
    exact account.unanswered
  · rw [numbers]
    exact account.once
  · rw [archivedCalls, calls]
    exact account.flattenedUses
  · rw [archivedResults, results, numbers]
    exact account.flattenedResults
  · rw [kept]
    exact account.synthesized

end Same

/-! ### The counters -/

def toolCounters (stats : KiroToolHistoryStats) : Nat × Nat × Nat :=
  (stats.flattenedToolUses, stats.flattenedToolResults, stats.synthesizedToolResults)

theorem retainDefinitions_counters (tools : List KiroTool) (names : List String)
    (stats : KiroToolHistoryStats) :
    toolCounters (retainDefinitions tools names stats).2.2 = toolCounters stats := by
  induction tools generalizing names stats with
  | nil => rfl
  | cons tool rest ih =>
    cases tool with
    | cachePoint point => exact ih names stats
    | specification spec =>
      by_cases first : trim spec.name ≠ "" ∧ trim spec.name ∉ names
      · simp only [retainDefinitions, if_pos first]
        exact ih _ stats
      · simp only [retainDefinitions, if_neg first]
        exact ih names _

theorem takeHistory_counters (history : List KiroHistoryMessage) (stats : KiroToolHistoryStats) :
    toolCounters (takeHistory history stats).2 = toolCounters stats := by
  induction history generalizing stats with
  | nil => rfl
  | cons item rest ih =>
    obtain ⟨user, assistant⟩ := item
    cases user with
    | none => exact ih stats
    | some user =>
      have cleared : toolCounters (clearDefinitions user stats).2 = toolCounters stats := by
        unfold clearDefinitions
        split
        · rfl
        · split <;> rfl
      exact (ih _).trans cleared

theorem takenHistory_counters (payload : KiroPayload) :
    toolCounters (takenHistory payload).2 = (0, 0, 0) := by
  rw [takenHistory, takeHistory_counters]
  unfold definitionsOf sanitizeCurrentToolDefinitions
  cases (originalOf payload).userInputMessageContext with
  | none => rfl
  | some context => exact retainDefinitions_counters context.tools [] {}

section Counters

variable (counts : String → Nat) (activeToolNames : List String) (collected : List Sourced)

theorem statsFrom_calls (index : Nat) (messages : List ConversationMessage)
    (stats : KiroToolHistoryStats) :
    statsFrom counts activeToolNames collected index messages stats =
      (sourcedCalls index messages).foldl
        (fun stats call => useStats counts activeToolNames collected call.1 stats call.2) stats := by
  induction messages generalizing index stats with
  | nil => rfl
  | cons message rest ih => rw [statsFrom, ih, sourcedCalls, List.foldl_append, List.foldl_map]

theorem takenFrom_calls (index : Nat) (messages : List ConversationMessage) :
    takenFrom counts activeToolNames collected index messages =
      ((sourcedCalls index messages).filter (fun c => structured counts activeToolNames c.2)).filterMap
        (fun c => (partner collected c.1 (trim c.2.toolUseId)).map Prod.snd) := by
  induction messages generalizing index with
  | nil => rfl
  | cons message rest ih =>
    rw [takenFrom, ih, sourcedCalls, List.filter_append, List.filterMap_append, List.filter_map,
      List.filterMap_map]
    rfl

theorem repairResult_counters (id : String) (index source : Nat) (result : KiroToolResult)
    (stats : KiroToolHistoryStats) :
    toolCounters (repairResult id index source result stats).2 = toolCounters stats := by
  simp only [repairResult, toolCounters]
  split <;> split <;> rfl

theorem useStats_counters (index : Nat) (stats : KiroToolHistoryStats) (toolUse : KiroToolUse) :
    toolCounters (useStats counts activeToolNames collected index stats toolUse) =
      if structured counts activeToolNames toolUse then
        (stats.flattenedToolUses, stats.flattenedToolResults, stats.synthesizedToolResults +
          if (partner collected index (trim toolUse.toolUseId)).isNone then 1 else 0)
      else (stats.flattenedToolUses + 1, stats.flattenedToolResults, stats.synthesizedToolResults) := by
  by_cases fit : structured counts activeToolNames toolUse = true
  · rw [useStats, if_pos fit, if_pos fit, pairStats]
    cases found : partner collected index (trim toolUse.toolUseId) with
    | none =>
      simp only [toolCounters]
      split <;> rfl
    | some x =>
      simp only [repairResult_counters]
      simp only [toolCounters]
      split <;> rfl
  · rw [useStats, if_neg fit, if_neg fit, archiveUseStats]
    simp only [toolCounters]
    split <;> rfl

theorem calls_counters (calls : List (Nat × KiroToolUse)) (stats : KiroToolHistoryStats) :
    toolCounters (calls.foldl
        (fun stats call => useStats counts activeToolNames collected call.1 stats call.2) stats) =
      (stats.flattenedToolUses +
          (calls.filter (fun c => !structured counts activeToolNames c.2)).length,
        stats.flattenedToolResults,
        stats.synthesizedToolResults +
          (calls.filter (fun c => structured counts activeToolNames c.2)).countP
            (fun c => (partner collected c.1 (trim c.2.toolUseId)).isNone)) := by
  induction calls generalizing stats with
  | nil => rfl
  | cons call rest ih =>
    have here := useStats_counters counts activeToolNames collected call.1 stats call.2
    simp only [toolCounters] at here
    rw [List.foldl_cons, ih]
    by_cases fit : structured counts activeToolNames call.2 = true
    · rw [if_pos fit] at here
      simp only [Prod.mk.injEq] at here
      simp only [here, List.filter_cons, fit, if_true, List.countP_cons, Bool.not_true,
        Bool.false_eq_true, if_false]
      simp only [Prod.mk.injEq, true_and]
      omega
    · rw [if_neg fit] at here
      simp only [Prod.mk.injEq] at here
      simp [here, fit, Nat.add_assoc, Nat.add_comm 1]

end Counters

/-! ### The account of a whole repair -/

theorem sourcedCalls_uses (index : Nat) (messages : List ConversationMessage) :
    (sourcedCalls index messages).map Prod.snd = messages.flatMap toolUsesOf := by
  induction messages generalizing index with
  | nil => rfl
  | cons message rest ih => simp [sourcedCalls, ih, Function.comp_def]

theorem claimed_distinct (messages : List ConversationMessage) (activeToolNames : List String)
    (collected : List Sourced) :
    (claimedNumbers messages (structured (toolUseIdCounts messages) activeToolNames)
      (fun c => partner collected c.1 (trim c.2.toolUseId))).Nodup := by
  have ids : (((sourcedCalls 0 messages).filter (fun c =>
      structured (toolUseIdCounts messages) activeToolNames c.2)).map
        (fun c => trim c.2.toolUseId)).Nodup := by
    have distinct := structured_ids_distinct messages activeToolNames
    rw [keptUses, ← sourcedCalls_uses 0, List.filter_map, trimmedIds, List.map_map] at distinct
    exact distinct
  refine List.Pairwise.filterMap _ ?_ (List.pairwise_map.mp ids)
  intro first second apart number claimed other claimedToo same
  subst same
  obtain ⟨x, found, rfl⟩ := Option.map_eq_some_iff.mp claimed
  obtain ⟨y, foundToo, number⟩ := Option.map_eq_some_iff.mp claimedToo
  obtain ⟨insideX, idX, _⟩ := partner_mem found
  obtain ⟨insideY, idY, _⟩ := partner_mem foundToo
  rw [List.mem_zipIdx_iff_getElem?] at insideX insideY
  rw [number, insideX] at insideY
  exact apart (by rw [← idX, ← idY, Option.some.inj insideY])

theorem repairedOf_length (payload : KiroPayload) :
    (repairedOf payload).length = (messagesOf payload).length := by
  simp [repairedOf]

theorem addToolResults_content (user : KiroUserInputMessage) (results : List KiroToolResult) :
    (addToolResults user results).content = user.content := by
  cases results <;> rfl

theorem takeToolResults_content (user : KiroUserInputMessage) :
    (takeToolResults user).1.content = user.content := by
  unfold takeToolResults
  split
  · rfl
  · split <;> rfl

theorem passed_conserved {payload : KiroPayload} {template : KiroUserInputMessage}
    {front : List Placed} {due : List KiroToolResult} (passed : Passed payload template front due) :
    Conserved (messagesOf payload) (structured (countsOf payload) (activeNamesOf payload))
      (fun c => partner (collectedOf payload) c.1 (trim c.2.toolUseId))
      (front ++ [(some (takenHistory payload).1.length, .user (addToolResults
        (repairedUser payload (takenHistory payload).1.length (currentOf payload)) due))])
      (withInsertions (pairedStats payload) (insertions front)) := by
  have numbers : claimedNumbers (messagesOf payload)
      (structured (countsOf payload) (activeNamesOf payload))
      (fun c => partner (collectedOf payload) c.1 (trim c.2.toolUseId)) =
      taken (messagesOf payload) (activeNamesOf payload) :=
    (takenFrom_calls _ _ _ 0 (messagesOf payload)).symm
  have cases := weave_cases template (scheduledOf payload) 0 (repairedOf payload) none []
  have origins := weave_origins template (scheduledOf payload) 0 (repairedOf payload) none []
  have counters := calls_counters (countsOf payload) (activeNamesOf payload) (collectedOf payload)
    (sourcedCalls 0 (messagesOf payload)) (takenHistory payload).2
  have start := takenHistory_counters payload
  rw [← statsFrom_calls] at counters
  simp only [toolCounters, Prod.mk.injEq] at counters start
  rw [start.1, start.2.1, start.2.2, Nat.zero_add, Nat.zero_add] at counters
  -- the image of a message is its repaired form, up to the results a user receives
  have image : ∀ n original message, (messagesOf payload)[n]? = some original →
      (some n, message) ∈ weave template (scheduledOf payload) 0 (repairedOf payload) none [] →
      Carried (repairedAt (messagesOf payload) (activeNamesOf payload) n original) message := by
    intro n original message place member
    rcases cases _ member with inserted | ⟨m, repaired, origin, found, carried⟩
    · cases inserted.1
    · rw [Nat.zero_add] at origin
      cases Option.some.inj origin
      rw [repairedOf, List.getElem?_mapIdx, place] at found
      cases found
      exact carried
  obtain ⟨past, split, _, _⟩ := repairedOf_split payload
  have ends : EndsInUser false (repairedOf payload) := split ▸ endsInUser_snoc false past _
  have delivers := weave_delivers template (scheduledOf payload) 0 (repairedOf payload) none []
    (by simp) (repairedOf_bare payload) ends
  rw [← passed.woven]
  constructor
  · rw [origins, repairedOf_length, List.range_eq_range']
  · intro message member
    rcases cases _ member with inserted | ⟨_, _, origin, _⟩
    · exact ⟨template, inserted.2⟩
    · cases origin
  · intro n assistant message place member
    exact image n _ message place member
  · intro n user message place member
    obtain ⟨results, same⟩ := image n _ message place member
    refine ⟨_, same, ?_⟩
    rw [numbers, addToolResults_content, ← takeToolResults_content user]
  · have schedule : scheduledAnswers (messagesOf payload)
        (structured (countsOf payload) (activeNamesOf payload))
        (fun c => partner (collectedOf payload) c.1 (trim c.2.toolUseId)) = scheduledOf payload := by
      funext n
      rw [scheduledAnswers, scheduledOf, callsAt]
      cases (messagesOf payload)[n]? <;> rfl
    rw [schedule]
    exact delivers
  · intro call _ x found
    exact partner_mem found
  · intro call _ missing s member same
    obtain ⟨k, place⟩ := List.mem_iff_getElem?.mp member
    have skipped := List.find?_eq_none.mp missing (s, k) (List.mem_zipIdx_iff_getElem?.mpr place)
    simpa [same] using skipped
  · exact claimed_distinct _ _ _
  · exact counters.1
  · rw [archivedResults, numbers]
    simp only [withInsertions, pairedStats, counters.2.1, Nat.zero_add]
    rfl
  · exact counters.2.2

def keeps (payload : KiroPayload) : KiroToolUse → Bool :=
  structured (toolUseIdCounts (conversationOf payload)) (activeNamesOf payload)

def claims (payload : KiroPayload) (call : Nat × KiroToolUse) : Option (Sourced × Nat) :=
  partner (sourcedResults 0 (conversationOf payload)) call.1 (trim call.2.toolUseId)

/-- No tool data is lost or duplicated, and the counters count what became of it. -/
theorem sanitize_conserves (payload : KiroPayload) :
    ∃ placed, placed.map Prod.snd = conversationOf (sanitizeKiroToolHistory payload).1 ∧
      Conserved (conversationOf payload) (keeps payload) (claims payload) placed
        (sanitizeKiroToolHistory payload).2 := by
  obtain ⟨template, front, due, passed⟩ := sanitize_passed payload
  have same := messagesOf_sameTools payload
  have counts : toolUseIdCounts (conversationOf payload) = countsOf payload := by
    rw [countsOf, toolUseIdCounts, ← sourcedCalls_uses 0, sameTools_calls same, sourcedCalls_uses,
      toolUseIdCounts]
  have kept : keeps payload = structured (countsOf payload) (activeNamesOf payload) := by
    rw [keeps, counts]
  have claimed : claims payload =
      fun c => partner (collectedOf payload) c.1 (trim c.2.toolUseId) := by
    funext call
    rw [claims, sameTools_results same, collectedOf]
  rw [kept, claimed, passed.result]
  refine ⟨_, ?_, conserved_of_sameTools same (passed_conserved passed)⟩
  have items : ∀ messages : List ConversationMessage,
      (messages.map historyItem).flatMap itemMessages = messages := by
    intro messages
    induction messages with
    | nil => rfl
    | cons message rest ih => cases message <;> simp [historyItem, itemMessages, ih]
  simp only [conversationOf, withConversation, originalOf, items, List.map_append]
  rfl

end KiroProxy.ToolHistory

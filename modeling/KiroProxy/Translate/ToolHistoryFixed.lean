import KiroProxy.Translate.ToolHistoryRepair

/-! A canonical payload is a fixed point: every pass takes results out, finds them
again by their ids and puts them back where they stood. -/
namespace KiroProxy.ToolHistory

open Text (trim)

theorem retainDefinitions_fixed (tools : List KiroTool) (names : List String)
    (stats : KiroToolHistoryStats) (proper : ProperNames (names ++ definedNames tools)) :
    retainDefinitions tools names stats = (tools, names ++ definedNames tools, stats) := by
  induction tools generalizing names with
  | nil => simp [retainDefinitions, definedNames]
  | cons tool rest ih =>
    cases tool with
    | cachePoint point =>
      simp only [retainDefinitions, ih names proper]
      rfl
    | specification spec =>
      have split : names ++ definedNames (.specification spec :: rest) =
          (names ++ [spec.name]) ++ definedNames rest := by
        simp [definedNames, KiroTool.specification?]
      rw [split] at proper ⊢
      have member : spec.name ∈ (names ++ [spec.name]) ++ definedNames rest := by simp
      have trimmed := proper.trimmed spec.name member
      have unseen : spec.name ∉ names := by
        have distinct := List.Nodup.of_append_left proper.distinct
        intro seen
        exact List.disjoint_of_nodup_append distinct seen (by simp)
      have first : spec.name ≠ "" ∧ spec.name ∉ names := ⟨proper.named spec.name member, unseen⟩
      simp only [retainDefinitions, trimmed, if_pos first, ih _ proper]

variable {user : KiroUserInputMessage} {due : Option (List KiroToolUse)} {messages : List ConversationMessage}
  {n : Nat} {result : KiroToolResult} {toolUse : KiroToolUse}

theorem clearDefinitions_fixed (tidy : TidyPast user) (stats : KiroToolHistoryStats) :
    clearDefinitions user stats = (user, stats) := by
  obtain ⟨content, model, origin, images, documents, point, config, context⟩ := user
  cases context with
  | none => rfl
  | some context =>
    obtain ⟨tools, env, filled⟩ := tidy context rfl
    obtain ⟨results, definitions, state⟩ := context
    simp only at tools env filled
    subst tools env
    simp [clearDefinitions, filled]

theorem takeHistory_fixed (past : List ConversationMessage) (stats : KiroToolHistoryStats)
    (tidy : ∀ user, .user user ∈ past → TidyPast user) :
    takeHistory (past.map historyItem) stats = (past, stats) := by
  induction past with
  | nil => rfl
  | cons message rest ih =>
    have tail := ih (fun user member => tidy user (List.mem_cons_of_mem _ member))
    cases message with
    | user user =>
      simp [takeHistory, historyItem, clearDefinitions_fixed (tidy user List.mem_cons_self), tail]
    | assistant assistant => simp [takeHistory, historyItem, tail]

theorem tidy_of_tidyPast (tidy : TidyPast user) : Tidy user :=
  fun context present bare => (tidy context present).2.2 bare.1

theorem take_add (tidy : Tidy user) :
    addToolResults (takeToolResults user).1 user.toolResults = user := by
  obtain ⟨content, model, origin, images, documents, point, config, context⟩ := user
  cases context with
  | none => rfl
  | some context =>
    have kept := tidy context rfl
    obtain ⟨results, definitions, state⟩ := context
    cases results with
    | nil =>
      have other : ¬ ((definitions.isEmpty && state.isNone) = true) := by
        simpa using kept
      simp only [takeToolResults, if_neg other, KiroUserInputMessage.toolResults, Option.map_some,
        Option.getD_some]
      rfl
    | cons result rest =>
      cases definitions <;> cases state <;> rfl

/-! ### Reading the contract by position -/

def nextDue : ConversationMessage → Option (List KiroToolUse)
  | .user _ => none
  | .assistant assistant => some assistant.toolUses

theorem contract_tail {message : ConversationMessage} {rest : List ConversationMessage}
    (contract : Contract due (message :: rest)) :
    Contract (nextDue message) rest := by
  cases message with
  | user user =>
    cases due with
    | none => exact contract.elim
    | some uses => exact contract.2
  | assistant assistant =>
    cases due with
    | none => exact contract
    | some uses => exact contract.elim

theorem contract_after (contract : Contract due messages) {assistant : KiroAssistantMessage}
    (place : messages[n]? = some (.assistant assistant)) :
    ∃ user, messages[n + 1]? = some (.user user) ∧
      List.Forall₂ Answers assistant.toolUses user.toolResults := by
  induction messages generalizing due n with
  | nil => simp at place
  | cons message rest ih =>
    have tail := contract_tail contract
    cases n with
    | succ n => simpa using ih tail (by simpa using place)
    | zero =>
      have here : message = .assistant assistant := by simpa using place
      subst here
      cases rest with
      | nil => exact tail.elim
      | cons next rest =>
        cases next with
        | assistant other => exact tail.elim
        | user user => exact ⟨user, rfl, tail.1⟩

theorem contract_before (contract : Contract due messages) (place : messages[n]? = some (.user user)) :
    (n = 0 ∧ List.Forall₂ Answers (due.getD []) user.toolResults) ∨
      ∃ m assistant, n = m + 1 ∧ messages[m]? = some (.assistant assistant) ∧
        List.Forall₂ Answers assistant.toolUses user.toolResults := by
  induction messages generalizing due n with
  | nil => simp at place
  | cons message rest ih =>
    cases n with
    | zero =>
      have here : message = .user user := by simpa using place
      subst here
      cases due with
      | none => exact contract.elim
      | some uses => exact .inl ⟨rfl, contract.1⟩
    | succ n =>
      right
      rcases ih (contract_tail contract) (by simpa using place) with ⟨rfl, answers⟩ | earlier
      · cases message with
        | assistant assistant => exact ⟨0, assistant, rfl, rfl, answers⟩
        | user other =>
          cases rest with
          | nil => simp at place
          | cons next rest =>
            have tail := contract_tail contract
            have same : next = .user user := by simpa using place
            subst same
            exact tail.elim
      · obtain ⟨m, assistant, rfl, found, answers⟩ := earlier
        exact ⟨m + 1, assistant, rfl, by simpa using found, answers⟩

theorem contract_ids (contract : Contract due messages) (index : Nat) :
    (sourcedResults index messages).map (fun s => s.2.toolUseId) =
      ((due.getD []) ++ messages.flatMap toolUsesOf).map (·.toolUseId) := by
  induction messages generalizing due index with
  | nil =>
    cases due with
    | none => rfl
    | some uses => exact contract.elim
  | cons message rest ih =>
    have tail := ih (contract_tail contract) (index + 1)
    cases message with
    | user user =>
      cases due with
      | none => exact contract.elim
      | some uses =>
        have ids := answers_ids contract.1
        simp only [sourcedResults, List.map_append, List.map_map, Function.comp_def, tail]
        simp [nextDue, toolUsesOf, ids]
    | assistant assistant =>
      cases due with
      | some uses => exact contract.elim
      | none => simpa [sourcedResults, nextDue, toolUsesOf] using tail

theorem mem_sourcedResults (index : Nat) (place : messages[n]? = some (.user user))
    (carried : result ∈ user.toolResults) :
    (index + n, result) ∈ sourcedResults index messages := by
  induction messages generalizing index n with
  | nil => simp at place
  | cons message rest ih =>
    cases n with
    | zero =>
      have here : message = .user user := by simpa using place
      subst here
      exact List.mem_append_left _ (List.mem_map.mpr ⟨result, carried, rfl⟩)
    | succ n =>
      have later := ih (index + 1) (n := n) (by simpa using place)
      rw [show index + (n + 1) = index + 1 + n by omega]
      cases message with
      | user other => exact List.mem_append_right _ later
      | assistant assistant => exact later

theorem weave_fixed (template : KiroUserInputMessage) (scheduled : Nat → List KiroToolResult)
    (messages : List ConversationMessage) (index : Nat) (due : Option (List KiroToolUse))
    (last : Option Bool) (pending : List KiroToolResult) (contract : Contract due messages)
    (role : due = none ↔ last = some true)
    (awaiting : ∀ user rest, messages = .user user :: rest → pending = user.toolResults)
    (schedule : ∀ k assistant user, messages[k]? = some (.assistant assistant) →
      messages[k + 1]? = some (.user user) → scheduled (index + k) = user.toolResults)
    (tidy : ∀ user, .user user ∈ messages → Tidy user) :
    (weave template scheduled index (messages.map withoutResults) last pending).map Prod.snd =
        messages ∧
      insertions (weave template scheduled index (messages.map withoutResults) last pending) = 0 := by
  induction messages generalizing index due last pending with
  | nil => exact ⟨rfl, rfl⟩
  | cons message rest ih =>
    have tailContract := contract_tail contract
    have tailSchedule : ∀ k assistant user, rest[k]? = some (.assistant assistant) →
        rest[k + 1]? = some (.user user) → scheduled (index + 1 + k) = user.toolResults := by
      intro k assistant user here next
      rw [show index + 1 + k = index + (k + 1) by omega]
      exact schedule (k + 1) assistant user (by simpa using here) (by simpa using next)
    have tailTidy : ∀ user, .user user ∈ rest → Tidy user :=
      fun user member => tidy user (List.mem_cons_of_mem _ member)
    cases message with
    | user user =>
      cases due with
      | none => exact contract.elim
      | some uses =>
        have fresh : last ≠ some true := fun same => by simpa using role.mpr same
        have restored := take_add (tidy user List.mem_cons_self)
        have tail := ih (index + 1) none (some true) [] tailContract (by simp)
          (by
            intro other more same
            subst same
            exact tailContract.elim) tailSchedule tailTidy
        simp [weave, withoutResults, fresh, awaiting user rest rfl, restored, tail]
    | assistant assistant =>
      cases due with
      | some uses => exact contract.elim
      | none =>
        have ready : last = some true := role.mp rfl
        have tail := ih (index + 1) (some assistant.toolUses) (some false) (scheduled index)
          tailContract (by simp)
          (by
            intro user more same
            subst same
            exact schedule 0 assistant user rfl rfl) tailSchedule tailTidy
        simp [weave, withoutResults, ready, tail]

/-! ### Every call finds its own result again -/

theorem normalizeResult_fixed (answers : Answers toolUse result) : normalizeResult result = (result, false) := by
  have status : normalizedStatus result.status = result.status := by
    rcases answers.status with same | same <;> rw [same] <;> decide
  have filled : result.content.isEmpty = false := by simpa using answers.content
  simp [normalizeResult, status, filled]

section Fixed

variable {past : List ConversationMessage} {current : KiroUserInputMessage}
  (canonical : Canonical past current)

include canonical

theorem canonical_admitted (member : toolUse ∈ (conversation past current).flatMap toolUsesOf) :
    Admitted (definedNames current.tools) toolUse :=
  canonical.admitted toolUse (by simpa [conversation, toolUsesOf] using member)

theorem canonical_structured (member : toolUse ∈ (conversation past current).flatMap toolUsesOf) :
    structured (toolUseIdCounts (conversation past current)) (definedNames current.tools) toolUse =
      true := by
  have good := canonical_admitted canonical member
  have ids : ((conversation past current).flatMap toolUsesOf).map (fun u => trim u.toolUseId) =
      (past.flatMap toolUsesOf).map (·.toolUseId) := by
    rw [show (conversation past current).flatMap toolUsesOf = past.flatMap toolUsesOf by
      simp [conversation, toolUsesOf]]
    exact List.map_congr_left (fun u inside => (canonical.admitted u inside).idTrimmed)
  have single : toolUseIdCounts (conversation past current) toolUse.toolUseId ≤ 1 := by
    rw [toolUseIdCounts, Indexed.foldl_count, ids, Nat.zero_add]
    exact List.nodup_iff_count_le_one.mp (canonical.distinct.filter _) _
  have once : ¬ 1 < toolUseIdCounts (conversation past current) toolUse.toolUseId := by omega
  simp [structured, malformed, undefinedTool, duplicateId, good.idTrimmed, good.idNamed,
    good.nameTrimmed, good.nameNamed, good.defined, good.object, once]

theorem canonical_keptUses {message : ConversationMessage} (member : message ∈ conversation past current) :
    keptUses (toolUseIdCounts (conversation past current)) (definedNames current.tools)
      (toolUsesOf message) = toolUsesOf message := by
  rw [keptUses, List.filter_eq_self]
  intro toolUse inside
  exact canonical_structured canonical (List.mem_flatMap.mpr ⟨message, member, inside⟩)

theorem canonical_trimmed (toolUse : KiroToolUse)
    (member : toolUse ∈ (conversation past current).flatMap toolUsesOf) :
    trimmedUse toolUse = toolUse := by
  have good := canonical_admitted canonical member
  simp [trimmedUse, good.idTrimmed, good.nameTrimmed]

theorem canonical_collected_ids :
    ((sourcedResults 0 (conversation past current)).map (fun s => s.2.toolUseId)) =
      (past.flatMap toolUsesOf).map (·.toolUseId) := by
  rw [contract_ids canonical.contract 0]
  simp [conversation, toolUsesOf]

theorem canonical_result_trimmed {s : Sourced}
    (member : s ∈ sourcedResults 0 (conversation past current)) :
    trim s.2.toolUseId = s.2.toolUseId := by
  have listed : s.2.toolUseId ∈ (past.flatMap toolUsesOf).map (·.toolUseId) := by
    rw [← canonical_collected_ids canonical]
    exact List.mem_map_of_mem member
  obtain ⟨toolUse, inside, same⟩ := List.mem_map.mp listed
  rw [← same]
  exact (canonical.admitted toolUse inside).idTrimmed

theorem canonical_partner {k : Nat} (trimmed : trim toolUse.toolUseId = toolUse.toolUseId)
    (answers : Answers toolUse result)
    (place : ((n + 1, result), k) ∈ (sourcedResults 0 (conversation past current)).zipIdx) :
    partner (sourcedResults 0 (conversation past current)) n (trim toolUse.toolUseId) =
      some ((n + 1, result), k) := by
  have member : (n + 1, result) ∈ sourcedResults 0 (conversation past current) :=
    List.mem_of_getElem? (List.mem_zipIdx_iff_getElem?.mp place)
  have same : trim result.toolUseId = trim toolUse.toolUseId := by rw [answers.id]
  cases found : partner (sourcedResults 0 (conversation past current)) n (trim toolUse.toolUseId) with
  | none =>
    have missing := List.find?_eq_none.mp found _ place
    simp [same] at missing
  | some x =>
    obtain ⟨inside, id, _⟩ := partner_mem found
    have key : x.1.2.toolUseId = result.toolUseId := by
      rw [← canonical_result_trimmed canonical
        (List.mem_of_getElem? (List.mem_zipIdx_iff_getElem?.mp inside)), id, trimmed, answers.id]
    have distinct : ((sourcedResults 0 (conversation past current)).map
        (fun s => s.2.toolUseId)).Nodup := by
      rw [canonical_collected_ids canonical]
      exact canonical.distinct
    rw [Indexed.entry_of_key _ (fun s => s.2.toolUseId) distinct inside place key]

theorem canonical_taken (x : Sourced × Nat)
    (member : x ∈ (sourcedResults 0 (conversation past current)).zipIdx) :
    ∃ n assistant toolUse, (conversation past current)[n]? = some (.assistant assistant) ∧
      toolUse ∈ assistant.toolUses ∧ Answers toolUse x.1.2 ∧
      partner (sourcedResults 0 (conversation past current)) n (trim toolUse.toolUseId) = some x := by
  obtain ⟨⟨source, result⟩, k⟩ := x
  obtain ⟨_, user, place, carried⟩ := sourced_user 0 _ _
    (List.mem_of_getElem? (List.mem_zipIdx_iff_getElem?.mp member))
  rw [Nat.sub_zero] at place
  rcases contract_before canonical.contract place with ⟨_, none⟩ | ⟨n, assistant, same, found, answers⟩
  · cases none' : user.toolResults with
    | nil => simp [none'] at carried
    | cons first rest =>
      rw [none'] at none
      cases none
  · simp only at same
    subst same
    obtain ⟨toolUse, inside, answered⟩ := answers_result answers carried
    have good := canonical_admitted canonical
      (List.mem_flatMap.mpr ⟨_, List.mem_of_getElem? found, inside⟩)
    exact ⟨n, assistant, toolUse, found, inside, answered,
      canonical_partner canonical good.idTrimmed answered member⟩

theorem canonical_unclaimed :
    unclaimed (sourcedResults 0 (conversation past current))
      (taken (conversation past current) (definedNames current.tools)) = [] := by
  rw [unclaimed, List.filter_eq_nil_iff]
  intro x member
  obtain ⟨n, assistant, toolUse, place, inside, _, found⟩ := canonical_taken canonical x member
  have kept : toolUse ∈ keptUses (toolUseIdCounts (conversation past current))
      (definedNames current.tools) (toolUsesOf (.assistant assistant)) := by
    rw [canonical_keptUses canonical (List.mem_of_getElem? place)]
    exact inside
  have gone := mem_takenFrom (toolUseIdCounts (conversation past current))
    (definedNames current.tools) (sourcedResults 0 (conversation past current)) 0 place kept
    (by simpa using found)
  intro missing
  exact of_decide_eq_true missing gone

theorem canonical_repairedAt (n : Nat) (message : ConversationMessage)
    (member : message ∈ conversation past current) :
    repairedAt (conversation past current) (definedNames current.tools) n message =
      withoutResults message := by
  have kept := canonical_keptUses canonical member
  rw [repairedAt, unclaimedAt, canonical_unclaimed canonical]
  cases message with
  | user user => rfl
  | assistant assistant =>
    have texts : archivedUses (toolUseIdCounts (conversation past current))
        (definedNames current.tools) assistant.toolUses = [] := by
      rw [archivedUses, List.filter_eq_nil_iff]
      intro toolUse inside
      simp [canonical_structured canonical (List.mem_flatMap.mpr ⟨_, member, inside⟩)]
    have calls : assistant.toolUses.map trimmedUse = assistant.toolUses.map id :=
      List.map_congr_left (fun toolUse inside =>
        canonical_trimmed canonical toolUse (List.mem_flatMap.mpr ⟨_, member, inside⟩))
    simp only [toolUsesOf] at kept
    simp [withoutResults, repairMessage, archiveMessage, texts, kept, calls, archiveAll]

theorem canonical_scheduled {assistant : KiroAssistantMessage}
    (place : (conversation past current)[n]? = some (.assistant assistant))
    (next : (conversation past current)[n + 1]? = some (.user user)) :
    dueFrom (toolUseIdCounts (conversation past current)) (definedNames current.tools)
      (sourcedResults 0 (conversation past current)) n (.assistant assistant) =
      user.toolResults := by
  obtain ⟨other, same, answers⟩ := contract_after canonical.contract place
  have eq : other = user := by
    rw [next] at same
    cases same
    rfl
  subst eq
  rw [dueFrom, canonical_keptUses canonical (List.mem_of_getElem? place)]
  simp only [toolUsesOf]
  have each : ∀ toolUse result, toolUse ∈ assistant.toolUses → result ∈ other.toolResults →
      Answers toolUse result →
      resultFor (sourcedResults 0 (conversation past current)) n toolUse = result := by
    intro toolUse result inside carried answered
    have listed : (n + 1, result) ∈ sourcedResults 0 (conversation past current) := by
      simpa using mem_sourcedResults 0 next carried
    obtain ⟨k, position⟩ := List.mem_iff_getElem?.mp listed
    have good := canonical_admitted canonical
      (List.mem_flatMap.mpr ⟨_, List.mem_of_getElem? place, inside⟩)
    have found := canonical_partner canonical good.idTrimmed answered
      (List.mem_zipIdx_iff_getElem?.mpr position)
    rw [resultFor, found]
    simp only [repairedResult, normalizeResult_fixed answered, good.idTrimmed]
    rw [← answered.id]
  clear same next
  revert answers each
  generalize assistant.toolUses = uses
  generalize other.toolResults = results
  intro answers each
  induction answers with
  | nil => rfl
  | cons head _ ih =>
    rw [List.map_cons, each _ _ List.mem_cons_self List.mem_cons_self head]
    rw [ih (fun u r inside carried => each u r (List.mem_cons_of_mem _ inside)
      (List.mem_cons_of_mem _ carried))]

theorem canonical_stats (n : Nat) (message : ConversationMessage) (toolUse : KiroToolUse)
    (place : (conversation past current)[n]? = some message)
    (inside : toolUse ∈ toolUsesOf message) (stats : KiroToolHistoryStats) :
    useStats (toolUseIdCounts (conversation past current)) (definedNames current.tools)
      (sourcedResults 0 (conversation past current)) n stats toolUse = stats := by
  have member := List.mem_flatMap.mpr ⟨message, List.mem_of_getElem? place, inside⟩
  have good := canonical_admitted canonical member
  cases message with
  | user user => cases inside
  | assistant assistant =>
    obtain ⟨user, next, answers⟩ := contract_after canonical.contract place
    obtain ⟨result, carried, answered⟩ : ∃ result ∈ user.toolResults, Answers toolUse result := by
      have listed : toolUse.toolUseId ∈ user.toolResults.map (·.toolUseId) := by
        rw [answers_ids answers]
        exact List.mem_map_of_mem inside
      obtain ⟨result, carried, same⟩ := List.mem_map.mp listed
      obtain ⟨other, _, answered⟩ := answers_result answers carried
      exact ⟨result, carried, same, answered.status, answered.content⟩
    have listed : (n + 1, result) ∈ sourcedResults 0 (conversation past current) := by
      simpa using mem_sourcedResults 0 next carried
    obtain ⟨k, position⟩ := List.mem_iff_getElem?.mp listed
    have found := canonical_partner canonical good.idTrimmed answered
      (List.mem_zipIdx_iff_getElem?.mpr position)
    rw [useStats, canonical_structured canonical member, if_pos rfl, pairStats, found]
    simp [repairResult, normalizeResult_fixed answered, good.idTrimmed, good.nameTrimmed, answered.id]

theorem sanitize_canonical (payload : KiroPayload) :
    sanitizeKiroToolHistory (withConversation payload current (past.map historyItem)) =
      (withConversation payload current (past.map historyItem), {}) := by
  let input := withConversation payload current (past.map historyItem)
  have definitions : definitionsOf input =
      (current.userInputMessageContext, definedNames current.tools, {}) := by
    have proper := canonical.names
    change sanitizeCurrentToolDefinitions current.userInputMessageContext {} = _
    unfold KiroUserInputMessage.tools at proper ⊢
    cases context : current.userInputMessageContext with
    | none => rfl
    | some value =>
      simp only [context, Option.map_some, Option.getD_some] at proper ⊢
      simp [sanitizeCurrentToolDefinitions, retainDefinitions_fixed value.tools [] {} proper]
  have history : takenHistory input = (past, {}) := by
    rw [takenHistory, definitions]
    exact takeHistory_fixed past {} canonical.tidyPast
  have names : activeNamesOf input = definedNames current.tools := by
    rw [activeNamesOf, definitions]
  have latest : currentOf input = current := by
    rw [currentOf, definitions]
    rfl
  have messages : messagesOf input = conversation past current := by
    rw [messagesOf, history, latest]
  have repaired : repairedOf input = (conversation past current).map withoutResults := by
    rw [repairedOf, messages, names]
    apply List.ext_getElem?
    intro n
    rw [List.getElem?_mapIdx, List.getElem?_map]
    cases place : (conversation past current)[n]? with
    | none => rfl
    | some message =>
      simp [canonical_repairedAt canonical n message (List.mem_of_getElem? place)]
  have stats : pairedStats input = {} := by
    simp only [pairedStats, countsOf, collectedOf, messages, names, history]
    rw [canonical_unclaimed canonical, statsFrom_fixed]
    · rfl
    · intro n message toolUse place inside s
      rw [Nat.zero_add]
      exact canonical_stats canonical n message toolUse place inside s
  obtain ⟨template, front, due, passed⟩ := sanitize_passed input
  have fixed := weave_fixed template (scheduledOf input) (conversation past current) 0 (some []) none []
    canonical.contract (by simp)
    (by
      intro user rest same
      have first := canonical.contract
      rw [same] at first
      cases answers : user.toolResults with
      | nil => rfl
      | cons result more =>
        have none := first.1
        rw [answers] at none
        cases none)
    (by
      intro k assistant user place next
      rw [Nat.zero_add, scheduledOf, messages, place]
      simpa [countsOf, collectedOf, messages, names] using
        canonical_scheduled canonical place next)
    (by
      intro user member
      rcases List.mem_append.mp member with old | new
      · exact tidy_of_tidyPast (canonical.tidyPast user old)
      · cases List.mem_singleton.mp new
        exact canonical.tidy)
  rw [← repaired, passed.woven, List.map_append] at fixed
  have halves := List.append_inj' fixed.1 rfl
  have last : addToolResults (repairedUser input (takenHistory input).1.length (currentOf input)) due =
      current := by
    simpa using halves.2
  have none : insertions front = 0 := by simpa [insertions] using fixed.2
  rw [passed.result, last, halves.1, none, stats]
  rfl

end Fixed

/-- Running the repair again leaves the whole payload as it is and reports no repair. -/
theorem sanitize_idempotent (payload : KiroPayload) :
    sanitizeKiroToolHistory (sanitizeKiroToolHistory payload).1 =
        ((sanitizeKiroToolHistory payload).1, {}) ∧
      (sanitizeKiroToolHistory (sanitizeKiroToolHistory payload).1).2.repaired = false := by
  obtain ⟨template, front, due, passed⟩ := sanitize_passed payload
  have again := sanitize_canonical (passed_canonical passed) payload
  rw [passed.result]
  exact ⟨again, by rw [again]; rfl⟩

end KiroProxy.ToolHistory

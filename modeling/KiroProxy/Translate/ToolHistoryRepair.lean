import KiroProxy.Translate.ToolHistorySound

/-! The whole repair: what it makes of any payload is canonical, and a canonical
payload comes out as it went in. -/
namespace KiroProxy.ToolHistory

open Text (trim)

section Anatomy

variable (payload : KiroPayload)

def originalOf : KiroUserInputMessage := payload.conversationState.currentMessage.userInputMessage

def definitionsOf : Option KiroMessageContext × List String × KiroToolHistoryStats :=
  sanitizeCurrentToolDefinitions (originalOf payload).userInputMessageContext {}

def activeNamesOf : List String := (definitionsOf payload).2.1

def currentOf : KiroUserInputMessage :=
  { originalOf payload with userInputMessageContext := (definitionsOf payload).1 }

def takenHistory : List ConversationMessage × KiroToolHistoryStats :=
  takeHistory payload.conversationState.history (definitionsOf payload).2.2

def messagesOf : List ConversationMessage := (takenHistory payload).1 ++ [.user (currentOf payload)]

def countsOf : String → Nat := toolUseIdCounts (messagesOf payload)

def collectedOf : List Sourced := sourcedResults 0 (messagesOf payload)

def repairedOf : List ConversationMessage :=
  (messagesOf payload).mapIdx (repairedAt (messagesOf payload) (activeNamesOf payload))

def scheduledOf (n : Nat) : List KiroToolResult :=
  (((messagesOf payload)[n]?).map
    (dueFrom (countsOf payload) (activeNamesOf payload) (collectedOf payload) n)).getD []

def pairedStats : KiroToolHistoryStats :=
  let stats := statsFrom (countsOf payload) (activeNamesOf payload) (collectedOf payload) 0
    (messagesOf payload) (takenHistory payload).2
  { stats with flattenedToolResults := stats.flattenedToolResults +
      (unclaimed (collectedOf payload) (taken (messagesOf payload) (activeNamesOf payload))).length }

/-- A user message after the pairing pass: results out, unclaimed ones in its text. -/
def repairedUser (index : Nat) (user : KiroUserInputMessage) : KiroUserInputMessage :=
  { (takeToolResults user).1 with
    content := archiveAll (takeToolResults user).1.content
      ((unclaimedAt (collectedOf payload) (taken (messagesOf payload) (activeNamesOf payload))
        index).map renderToolResult) }

theorem repairedAt_user (index : Nat) (user : KiroUserInputMessage) :
    repairedAt (messagesOf payload) (activeNamesOf payload) index (.user user) =
      .user (repairedUser payload index user) := rfl

theorem repairedOf_split : ∃ past, repairedOf payload =
      past ++ [.user (repairedUser payload (takenHistory payload).1.length (currentOf payload))] ∧
    past.length = (takenHistory payload).1.length ∧
    ∀ n, past[n]? = ((takenHistory payload).1[n]?).map
      (repairedAt (messagesOf payload) (activeNamesOf payload) n) := by
  refine ⟨(takenHistory payload).1.mapIdx (repairedAt (messagesOf payload) (activeNamesOf payload)),
    ?_, List.length_mapIdx, fun n => List.getElem?_mapIdx⟩
  rw [repairedOf, ← repairedAt_user]
  exact List.mapIdx_concat

structure Passed (template : KiroUserInputMessage) (front : List Placed)
    (due : List KiroToolResult) : Prop where
  woven : weave template (scheduledOf payload) 0 (repairedOf payload) none [] =
    front ++ [(some (takenHistory payload).1.length, .user (addToolResults
      (repairedUser payload (takenHistory payload).1.length (currentOf payload)) due))]
  result : sanitizeKiroToolHistory payload =
    (withConversation payload (addToolResults
        (repairedUser payload (takenHistory payload).1.length (currentOf payload)) due)
      ((front.map Prod.snd).map historyItem),
      withInsertions (pairedStats payload) (insertions front))

theorem sanitizeKiroToolHistory_eq : sanitizeKiroToolHistory payload =
    (let out := repairToolPairs (messagesOf payload) (activeNamesOf payload) (takenHistory payload).2
    let normal := normalizeRoles out.1 out.2.1 out.2.2
    match normal.1.getLast? with
    | some (.user user) =>
      (withConversation payload user (normal.1.dropLast.map historyItem), normal.2)
    | _ =>
      (withConversation payload (syntheticUser (currentOf payload) "Continue." [])
        (normal.1.dropLast.map historyItem), countInserted normal.2)) := rfl

theorem sanitize_passed : ∃ template front due, Passed payload template front due := by
  obtain ⟨past, split, length, _⟩ := repairedOf_split payload
  have paired := repairToolPairs_spec (messagesOf payload) (activeNamesOf payload)
    (takenHistory payload).2
  have texts : (repairToolPairs (messagesOf payload) (activeNamesOf payload)
      (takenHistory payload).2).1 = repairedOf payload := by
    apply List.ext_getElem?
    intro n
    rw [paired.1 n, repairedOf, List.getElem?_mapIdx]
  have schedule : (repairToolPairs (messagesOf payload) (activeNamesOf payload)
      (takenHistory payload).2).2.1 = scheduledOf payload := funext paired.2.1
  have ends : EndsInUser false (repairedOf payload) := split ▸ endsInUser_snoc false past _
  obtain ⟨template, normal⟩ := normalizeRoles_weave (repairedOf payload) (scheduledOf payload)
    (pairedStats payload) ends
  obtain ⟨front, due, woven⟩ := weave_snoc template (scheduledOf payload) 0 past
    (repairedUser payload (takenHistory payload).1.length (currentOf payload)) none []
  rw [← split, Nat.zero_add, length] at woven
  have count : insertions (front ++ [(some (takenHistory payload).1.length,
      ConversationMessage.user (addToolResults
        (repairedUser payload (takenHistory payload).1.length (currentOf payload)) due))]) =
      insertions front := by
    simp [insertions]
  refine ⟨template, front, due, woven, ?_⟩
  rw [woven, count] at normal
  have stats : (repairToolPairs (messagesOf payload) (activeNamesOf payload)
      (takenHistory payload).2).2.2 = pairedStats payload := paired.2.2
  rw [sanitizeKiroToolHistory_eq]
  simp only [texts, schedule, stats, normal]
  simp

end Anatomy

/-! ### Definitions and contexts -/

theorem retainDefinitions_names (tools : List KiroTool) (names : List String)
    (stats : KiroToolHistoryStats) :
    (retainDefinitions tools names stats).2.1 =
      names ++ definedNames (retainDefinitions tools names stats).1 := by
  induction tools generalizing names stats with
  | nil => simp [retainDefinitions, definedNames]
  | cons tool rest ih =>
    cases tool with
    | cachePoint point => simpa [retainDefinitions, definedNames, KiroTool.specification?] using ih names stats
    | specification spec =>
      by_cases first : trim spec.name ≠ "" ∧ trim spec.name ∉ names
      · simp only [retainDefinitions, if_pos first]
        rw [ih]
        simp [definedNames, KiroTool.specification?]
      · simp only [retainDefinitions, if_neg first]
        exact ih _ _

theorem retainDefinitions_proper (tools : List KiroTool) (names : List String)
    (stats : KiroToolHistoryStats) (proper : ProperNames names) :
    ProperNames (retainDefinitions tools names stats).2.1 := by
  induction tools generalizing names stats with
  | nil => exact proper
  | cons tool rest ih =>
    cases tool with
    | cachePoint point => exact ih names stats proper
    | specification spec =>
      by_cases first : trim spec.name ≠ "" ∧ trim spec.name ∉ names
      · simp only [retainDefinitions, if_pos first]
        apply ih
        refine ⟨?_, ?_, ?_⟩
        · exact List.nodup_append'.mpr ⟨proper.distinct, by simp, by simpa using first.2⟩
        · intro name member
          rcases List.mem_append.mp member with old | new
          · exact proper.trimmed name old
          · rw [List.mem_singleton.mp new, Text.trim_trim]
        · intro name member
          rcases List.mem_append.mp member with old | new
          · exact proper.named name old
          · rw [List.mem_singleton.mp new]
            exact first.1
      · simp only [retainDefinitions, if_neg first]
        exact ih names _ proper

theorem currentOf_names (payload : KiroPayload) :
    definedNames (currentOf payload).tools = activeNamesOf payload ∧
      ProperNames (activeNamesOf payload) := by
  unfold activeNamesOf currentOf definitionsOf sanitizeCurrentToolDefinitions
    KiroUserInputMessage.tools
  have empty : ProperNames [] := ⟨List.nodup_nil, by simp, by simp⟩
  cases (originalOf payload).userInputMessageContext with
  | none => exact ⟨rfl, empty⟩
  | some context =>
    refine ⟨?_, retainDefinitions_proper context.tools [] {} empty⟩
    simp only [Option.map_some, Option.getD_some]
    simpa using (retainDefinitions_names context.tools [] {}).symm

/-- A user message whose results were taken keeps a context only for something else. -/
def Emptied (user : KiroUserInputMessage) : Prop :=
  ∀ context, user.userInputMessageContext = some context →
    context.toolResults = [] ∧ ¬ (context.tools = [] ∧ context.envState = none)

theorem takeToolResults_emptied (user : KiroUserInputMessage) : Emptied (takeToolResults user).1 := by
  intro context present
  unfold takeToolResults at present
  split at present
  · rename_i none
    rw [none] at present
    cases present
  · split at present
    · cases present
    · rename_i other
      cases Option.some.inj present
      exact ⟨rfl, by simpa using other⟩

variable {template user : KiroUserInputMessage} {front : List Placed} {due : List KiroToolResult}

theorem emptied_results (emptied : Emptied user) :
    user.toolResults = [] := by
  unfold KiroUserInputMessage.toolResults
  cases context : user.userInputMessageContext with
  | none => rfl
  | some value => exact (emptied value context).1

theorem repairedUser_emptied (payload : KiroPayload) (index : Nat) (user : KiroUserInputMessage) :
    Emptied (repairedUser payload index user) :=
  takeToolResults_emptied user

theorem takeToolResults_tools (user : KiroUserInputMessage) :
    (takeToolResults user).1.tools = user.tools := by
  unfold takeToolResults KiroUserInputMessage.tools
  cases context : user.userInputMessageContext with
  | none => simp [context]
  | some value =>
    simp only [Option.map_some, Option.getD_some]
    split
    · rename_i bare
      have empty : value.tools = [] := by simpa using (Bool.and_eq_true_iff.mp bare).1
      rw [empty]
      rfl
    · rfl

theorem addToolResults_tools (user : KiroUserInputMessage) (results : List KiroToolResult) :
    (addToolResults user results).tools = user.tools := by
  unfold addToolResults KiroUserInputMessage.tools
  cases results with
  | nil => rfl
  | cons result rest => cases user.userInputMessageContext <;> rfl

theorem addToolResults_tidy (emptied : Emptied user) (results : List KiroToolResult) :
    Tidy (addToolResults user results) := by
  intro context present
  unfold addToolResults at present
  cases results with
  | nil => exact fun bare => (emptied context present).2 bare.2
  | cons result rest =>
    cases Option.some.inj present
    simp

theorem addToolResults_tidyPast (bare : user.userInputMessageContext = none) (results : List KiroToolResult) :
    TidyPast (addToolResults user results) := by
  intro context present
  unfold addToolResults at present
  cases results with
  | nil =>
    rw [List.isEmpty_nil, if_pos rfl, bare] at present
    cases present
  | cons result rest =>
    cases Option.some.inj present
    simp [bare]

theorem syntheticUser_tidyPast (template : KiroUserInputMessage) (content : String)
    (results : List KiroToolResult) : TidyPast (syntheticUser template content results) := by
  intro context present
  unfold syntheticUser at present
  cases results with
  | nil => cases present
  | cons result rest =>
    cases Option.some.inj present
    simp

theorem takeHistory_bare (history : List KiroHistoryMessage) (stats : KiroToolHistoryStats)
    (user : KiroUserInputMessage) (member : .user user ∈ (takeHistory history stats).1) :
    (takeToolResults user).1.userInputMessageContext = none := by
  induction history generalizing stats with
  | nil => simp [takeHistory] at member
  | cons item rest ih =>
    simp only [takeHistory, List.mem_append] at member
    rcases member with (here | here) | later
    · cases given : item.userInputMessage with
      | none => simp [given] at here
      | some original =>
        simp only [given, List.mem_singleton, ConversationMessage.user.injEq] at here
        subst here
        unfold clearDefinitions
        split
        · rename_i none
          simp [takeToolResults, none]
        · split <;> simp [takeToolResults]
    · cases given : item.assistantResponseMessage <;> simp [given] at here
    · exact ih _ later

/-! ### The output is canonical -/

theorem resultFor_answers (collected : List Sourced) (index : Nat) (toolUse : KiroToolUse) :
    Answers (trimmedUse toolUse) (resultFor collected index toolUse) := by
  unfold resultFor
  split
  · rename_i x _
    refine ⟨rfl, ?_, ?_⟩
    · simp only [repairedResult, normalizeResult, normalizedStatus]
      split
      · exact .inl rfl
      · exact .inr rfl
    · simp only [repairedResult, normalizeResult]
      split
      · simp
      · rename_i filled
        simpa using filled
  · exact ⟨rfl, .inr rfl, by simp [missingResult]⟩

theorem structured_admitted {counts : String → Nat} {activeNames : List String}
    {toolUse : KiroToolUse} (fit : structured counts activeNames toolUse = true) :
    Admitted activeNames (trimmedUse toolUse) := by
  simp only [structured, malformed, undefinedTool, Bool.not_eq_true', Bool.or_eq_false_iff,
    decide_eq_false_iff_not, Bool.not_eq_false', Bool.and_eq_false_iff] at fit
  obtain ⟨⟨⟨⟨name, id⟩, _⟩, object⟩, defined⟩ := fit
  refine ⟨Text.trim_trim _, id, Text.trim_trim _, name, ?_, object⟩
  change trim toolUse.name ∈ activeNames
  rcases defined with unnamed | listed
  · exact absurd name (by simpa using unnamed)
  · simpa using listed

theorem contract_of_placed (scheduled : Nat → List KiroToolResult) (placed : List Placed)
    (userNext : Bool) (due : List KiroToolResult) (uses : List KiroToolUse)
    (delivers : Delivers scheduled due placed) (roles : Alternates userNext placed)
    (answered : ∀ n assistant, (some n, .assistant assistant) ∈ placed →
      List.Forall₂ Answers assistant.toolUses (scheduled n))
    (silent : ∀ assistant, (none, .assistant assistant) ∈ placed → assistant.toolUses = [])
    (awaited : userNext = true → List.Forall₂ Answers uses due) :
    Contract (if userNext then some uses else none) (placed.map Prod.snd) := by
  induction placed generalizing userNext due uses with
  | nil =>
    have ended : userNext = false := roles
    simp [ended, Contract]
  | cons x rest ih =>
    obtain ⟨origin, message⟩ := x
    have answeredRest : ∀ n assistant, (some n, .assistant assistant) ∈ rest →
        List.Forall₂ Answers assistant.toolUses (scheduled n) :=
      fun n a member => answered n a (List.mem_cons_of_mem _ member)
    have silentRest : ∀ assistant, (none, .assistant assistant) ∈ rest → assistant.toolUses = [] :=
      fun a member => silent a (List.mem_cons_of_mem _ member)
    obtain ⟨role, rolesRest⟩ := roles
    cases message with
    | user user =>
      subst role
      have tail := ih false [] [] delivers.2 rolesRest answeredRest silentRest (by simp)
      exact ⟨delivers.1 ▸ awaited rfl, by simpa using tail⟩
    | assistant assistant =>
      subst role
      cases origin with
      | none =>
        have quiet := silent assistant List.mem_cons_self
        have tail := ih true [] [] delivers.2 rolesRest answeredRest silentRest
          (fun _ => List.Forall₂.nil)
        simpa [Contract, isUser, quiet] using tail
      | some n =>
        have tail := ih true (scheduled n) assistant.toolUses delivers.2 rolesRest answeredRest
          silentRest (fun _ => answered n assistant List.mem_cons_self)
        simpa [Contract, isUser] using tail

theorem toolUsesOf_repairedAt (messages : List ConversationMessage) (activeNames : List String)
    (index : Nat) (message : ConversationMessage) :
    toolUsesOf (repairedAt messages activeNames index message) =
      (keptUses (toolUseIdCounts messages) activeNames (toolUsesOf message)).map trimmedUse := by
  cases message <;> rfl

theorem repairedOf_uses (payload : KiroPayload) :
    (repairedOf payload).flatMap toolUsesOf =
      (keptUses (countsOf payload) (activeNamesOf payload)
        ((messagesOf payload).flatMap toolUsesOf)).map trimmedUse := by
  rw [keptUses, List.filter_flatMap, List.map_flatMap]
  exact Indexed.flatMap_mapIdx _ _ _ _
    (toolUsesOf_repairedAt (messagesOf payload) (activeNamesOf payload))

theorem repairedOf_bare (payload : KiroPayload) (user : KiroUserInputMessage)
    (member : .user user ∈ repairedOf payload) : user.toolResults = [] := by
  obtain ⟨n, place⟩ := List.mem_iff_getElem?.mp member
  rw [repairedOf, List.getElem?_mapIdx] at place
  obtain ⟨original, _, same⟩ := Option.map_eq_some_iff.mp place
  cases original with
  | assistant assistant => cases same
  | user original =>
    cases same
    exact emptied_results (repairedUser_emptied payload n original)

theorem repairedOf_answered (payload : KiroPayload) {n : Nat} {assistant : KiroAssistantMessage}
    (place : (repairedOf payload)[n]? = some (.assistant assistant)) :
    List.Forall₂ Answers assistant.toolUses (scheduledOf payload n) := by
  rw [repairedOf, List.getElem?_mapIdx] at place
  obtain ⟨original, found, same⟩ := Option.map_eq_some_iff.mp place
  cases original with
  | user user => cases same
  | assistant original =>
    cases same
    simp only [scheduledOf, found, Option.map_some, Option.getD_some, dueFrom, toolUsesOf]
    rw [List.forall₂_map_left_iff, List.forall₂_map_right_iff]
    apply List.forall₂_same.mpr
    exact fun toolUse _ => resultFor_answers (collectedOf payload) n toolUse

/-- Whatever stands in the history after the repair is an inserted message or a
repaired message of the history before it. -/
theorem passed_front {payload : KiroPayload} (passed : Passed payload template front due) {x : Placed}
    (member : x ∈ front) :
    (x.1 = none ∧ Inserted template x.2) ∨ ∃ n original, x.1 = some n ∧
      (takenHistory payload).1[n]? = some original ∧
      Carried (repairedAt (messagesOf payload) (activeNamesOf payload) n original) x.2 := by
  obtain ⟨past, split, length, places⟩ := repairedOf_split payload
  have cases := weave_cases template (scheduledOf payload) 0 (repairedOf payload) none []
  have origins := weave_origins template (scheduledOf payload) 0 (repairedOf payload) none []
  rw [passed.woven] at cases origins
  rw [split, List.length_append, List.length_singleton, ← length, List.range'_concat,
    List.filterMap_append] at origins
  have bounded : front.filterMap Prod.fst = List.range' 0 past.length :=
    List.append_inj_left' origins rfl
  rcases cases x (List.mem_append_left _ member) with inserted | ⟨n, repaired, origin, place, carried⟩
  · exact .inl inserted
  · right
    rw [Nat.zero_add] at origin
    have inside : n ∈ front.filterMap Prod.fst := List.mem_filterMap.mpr ⟨x, member, origin⟩
    have bound : n < past.length := by simpa [bounded] using inside
    rw [split, List.getElem?_append_left bound, places n] at place
    obtain ⟨original, found, rfl⟩ := Option.map_eq_some_iff.mp place
    exact ⟨n, original, origin, found, carried⟩

theorem passed_contract {payload : KiroPayload} (passed : Passed payload template front due) :
    Contract (some []) (front.map Prod.snd ++ [.user (addToolResults
      (repairedUser payload (takenHistory payload).1.length (currentOf payload)) due)]) := by
  obtain ⟨past, split, _, _⟩ := repairedOf_split payload
  have ends : EndsInUser false (repairedOf payload) := split ▸ endsInUser_snoc false past _
  have delivers := weave_delivers template (scheduledOf payload) 0 (repairedOf payload) none []
    (by simp) (repairedOf_bare payload) ends
  have roles := weave_alternates template (scheduledOf payload) 0 (repairedOf payload) none [] ends
  have cases := weave_cases template (scheduledOf payload) 0 (repairedOf payload) none []
  have whole := contract_of_placed (scheduledOf payload) _ true [] [] delivers roles
    (by
      intro n assistant member
      rcases cases _ member with inserted | ⟨m, repaired, origin, place, carried⟩
      · cases inserted.1
      · cases Option.some.inj origin
        rw [Nat.zero_add]
        cases repaired with
        | user user =>
          obtain ⟨results, same⟩ := carried
          cases same
        | assistant original =>
          cases carried
          exact repairedOf_answered payload place)
    (by
      intro assistant member
      rcases cases _ member with inserted | ⟨m, repaired, origin, _, _⟩
      · rcases inserted.2 with same | ⟨content, results, _, same⟩
        · cases same; rfl
        · cases same
      · cases origin)
    (fun _ => List.Forall₂.nil)
  rw [passed.woven, List.map_append] at whole
  exact whole

theorem passed_uses {payload : KiroPayload} (passed : Passed payload template front due) :
    (front.map Prod.snd).flatMap toolUsesOf = (keptUses (countsOf payload) (activeNamesOf payload)
      ((messagesOf payload).flatMap toolUsesOf)).map trimmedUse := by
  have uses := weave_uses template (scheduledOf payload) 0 (repairedOf payload) none []
  rw [passed.woven, repairedOf_uses] at uses
  simpa [toolUsesOf] using uses

theorem passed_tidyPast {payload : KiroPayload} (passed : Passed payload template front due)
    (user : KiroUserInputMessage) (member : .user user ∈ front.map Prod.snd) : TidyPast user := by
  obtain ⟨x, inside, same⟩ := List.mem_map.mp member
  rcases passed_front passed inside with inserted | ⟨n, original, _, found, carried⟩
  · rcases inserted.2 with assistant | ⟨content, results, _, synthetic⟩
    · rw [assistant] at same; cases same
    · rw [synthetic] at same
      cases same
      exact syntheticUser_tidyPast template content results
  · cases original with
    | assistant assistant =>
      rw [same] at carried
      cases carried
    | user original =>
      obtain ⟨results, placed⟩ := carried
      rw [placed] at same
      cases same
      have bare : (repairedUser payload n original).userInputMessageContext = none :=
        takeHistory_bare _ _ original (List.mem_of_getElem? found)
      exact addToolResults_tidyPast bare results

theorem passed_canonical {payload : KiroPayload} (passed : Passed payload template front due) :
    Canonical (front.map Prod.snd)
      (addToolResults (repairedUser payload (takenHistory payload).1.length (currentOf payload)) due) := by
  have names := currentOf_names payload
  have tools : (addToolResults (repairedUser payload (takenHistory payload).1.length
      (currentOf payload)) due).tools = (currentOf payload).tools :=
    (addToolResults_tools _ due).trans (takeToolResults_tools (currentOf payload))
  refine ⟨passed_contract passed, ?_, ?_, ?_, passed_tidyPast passed,
    addToolResults_tidy (repairedUser_emptied payload _ _) due⟩
  · rw [tools, names.1]
    exact names.2
  · intro toolUse member
    rw [passed_uses passed] at member
    obtain ⟨original, kept, rfl⟩ := List.mem_map.mp member
    rw [tools, names.1]
    exact structured_admitted (List.mem_filter.mp kept).2
  · rw [passed_uses passed, List.map_map]
    exact structured_ids_distinct (messagesOf payload) (activeNamesOf payload)

/-- After the repair the checker accepts, and its verdict means what it says: roles
alternate from a user on, the history carries no definitions, every call is unique,
defined and has an object input, and the next user answers exactly these calls. -/
theorem sanitize_validates (payload : KiroPayload) :
    validateKiroToolHistory (sanitizeKiroToolHistory payload).1 = .ok () ∧
      ∃ past current, (sanitizeKiroToolHistory payload).1 =
          withConversation payload current (past.map historyItem) ∧
        Canonical past current := by
  obtain ⟨template, front, due, passed⟩ := sanitize_passed payload
  have canonical := passed_canonical passed
  rw [passed.result]
  exact ⟨validate_canonical canonical payload, _, _, rfl, canonical⟩

end KiroProxy.ToolHistory

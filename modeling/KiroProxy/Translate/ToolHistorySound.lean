import KiroProxy.Translate.ToolHistoryCheck
import KiroProxy.Translate.ToolHistoryPairs
import KiroProxy.Translate.ToolHistoryRoles

/-! The repaired payload is canonical; a canonical payload passes the checker and
is a fixed point of the repair. -/
namespace KiroProxy.ToolHistory

open Text (trim)

structure Admitted (activeNames : List String) (toolUse : KiroToolUse) : Prop where
  idTrimmed : trim toolUse.toolUseId = toolUse.toolUseId
  idNamed : toolUse.toolUseId ≠ ""
  nameTrimmed : trim toolUse.name = toolUse.name
  nameNamed : toolUse.name ≠ ""
  defined : toolUse.name ∈ activeNames
  object : toolUse.input.isObject = true

structure Answers (toolUse : KiroToolUse) (result : KiroToolResult) : Prop where
  id : result.toolUseId = toolUse.toolUseId
  status : result.status = "success" ∨ result.status = "error"
  content : result.content ≠ []

/-- Roles alternate and end in a user; each user answers the calls before it, in order.
The first argument holds the calls awaiting their answers when a user comes next. -/
def Contract : Option (List KiroToolUse) → List ConversationMessage → Prop
  | none, [] => True
  | some uses, .user user :: rest => List.Forall₂ Answers uses user.toolResults ∧ Contract none rest
  | none, .assistant assistant :: rest => Contract (some assistant.toolUses) rest
  | _, _ => False

/-- No context object without content; in the history it holds results only. -/
def TidyPast (user : KiroUserInputMessage) : Prop :=
  ∀ context, user.userInputMessageContext = some context →
    context.tools = [] ∧ context.envState = none ∧ context.toolResults ≠ []

def Tidy (user : KiroUserInputMessage) : Prop :=
  ∀ context, user.userInputMessageContext = some context →
    ¬ (context.toolResults = [] ∧ context.tools = [] ∧ context.envState = none)

structure ProperNames (names : List String) : Prop where
  distinct : names.Nodup
  trimmed : ∀ name ∈ names, trim name = name
  named : ∀ name ∈ names, name ≠ ""

abbrev conversation (past : List ConversationMessage) (current : KiroUserInputMessage) :
    List ConversationMessage :=
  past ++ [.user current]

structure Canonical (past : List ConversationMessage) (current : KiroUserInputMessage) : Prop where
  contract : Contract (some []) (conversation past current)
  names : ProperNames (definedNames current.tools)
  admitted : ∀ toolUse ∈ past.flatMap toolUsesOf, Admitted (definedNames current.tools) toolUse
  distinct : ((past.flatMap toolUsesOf).map (·.toolUseId)).Nodup
  tidyPast : ∀ user, .user user ∈ past → TidyPast user
  tidy : Tidy current

/-! ### The checker accepts a canonical conversation -/

theorem validateAssistantUses_ok (activeNames : List String) (location : String)
    (uses : List KiroToolUse) (allIds : List String)
    (admitted : ∀ toolUse ∈ uses, Admitted activeNames toolUse)
    (fresh : (allIds ++ uses.map (·.toolUseId)).Nodup) :
    validateAssistantUses activeNames location uses allIds =
      .ok (uses.map (·.toolUseId), allIds ++ uses.map (·.toolUseId)) := by
  induction uses generalizing allIds with
  | nil => simp [validateAssistantUses]
  | cons toolUse rest ih =>
    have good := admitted toolUse List.mem_cons_self
    have unseen : toolUse.toolUseId ∉ allIds := by
      intro seen
      exact (List.disjoint_of_nodup_append fresh) seen (by simp)
    have tail := ih (allIds ++ [toolUse.toolUseId])
      (fun u member => admitted u (List.mem_cons_of_mem _ member)) (by simpa using fresh)
    have named : ¬ (trim toolUse.toolUseId = "" ∨ trim toolUse.name = "") := by
      simp [good.idTrimmed, good.nameTrimmed, good.idNamed, good.nameNamed]
    simp only [validateAssistantUses, if_neg named, good.object, Bool.true_eq_false, if_false,
      good.defined, not_true, unseen, tail]
    simp [bind, Except.bind]

theorem validateResults_ok (expected : List String) (location : String)
    (results : List KiroToolResult) (allIds : List String)
    (answered : ∀ result ∈ results, trim result.toolUseId ≠ "" ∧
      (result.status = "success" ∨ result.status = "error") ∧ result.content ≠ [] ∧
      result.toolUseId ∈ expected)
    (fresh : (allIds ++ results.map (·.toolUseId)).Nodup) :
    validateResults expected location results allIds =
      .ok (allIds ++ results.map (·.toolUseId)) := by
  induction results generalizing allIds with
  | nil => simp [validateResults]
  | cons result rest ih =>
    obtain ⟨named, status, content, known⟩ := answered result List.mem_cons_self
    have unseen : result.toolUseId ∉ allIds := by
      intro seen
      exact (List.disjoint_of_nodup_append fresh) seen (by simp)
    have tail := ih (allIds ++ [result.toolUseId])
      (fun r member => answered r (List.mem_cons_of_mem _ member)) (by simpa using fresh)
    have valid : ¬ (result.status ≠ "success" ∧ result.status ≠ "error") := by
      rcases status with s | s <;> simp [s]
    have filled : result.content.isEmpty = false := by simpa using content
    simp only [validateResults, if_neg named, if_neg valid, filled, Bool.false_eq_true, if_false,
      known, not_true, unseen, tail]
    simp

variable {uses : List KiroToolUse}

theorem answers_ids {results : List KiroToolResult} (answers : List.Forall₂ Answers uses results) :
    results.map (·.toolUseId) = uses.map (·.toolUseId) := by
  induction answers with
  | nil => rfl
  | cons head _ ih => simp [head.id, ih]

theorem answers_result {results : List KiroToolResult} (answers : List.Forall₂ Answers uses results)
    {result : KiroToolResult} (member : result ∈ results) : ∃ toolUse ∈ uses, Answers toolUse result := by
  induction answers with
  | nil => cases member
  | cons head _ ih =>
    rcases List.mem_cons.mp member with rfl | later
    · exact ⟨_, List.mem_cons_self, head⟩
    · obtain ⟨toolUse, inside, answered⟩ := ih later
      exact ⟨toolUse, List.mem_cons_of_mem _ inside, answered⟩

theorem validateUserResults_ok (location : String) {activeNames : List String} {user : KiroUserInputMessage}
    (answers : List.Forall₂ Answers uses user.toolResults) (admitted : ∀ toolUse ∈ uses, Admitted activeNames toolUse)
    (allIds : List String) (fresh : (allIds ++ uses.map (·.toolUseId)).Nodup) :
    validateUserResults user (uses.map (·.toolUseId)) allIds location =
      .ok (allIds ++ uses.map (·.toolUseId)) := by
  have count : user.toolResults.length = (uses.map (·.toolUseId)).length := by
    rw [List.length_map, answers.length_eq]
  rw [validateUserResults, if_neg (not_not.mpr count), ← answers_ids answers]
  apply validateResults_ok
  · intro result member
    obtain ⟨toolUse, inside, answered⟩ := answers_result answers member
    have good := admitted toolUse inside
    refine ⟨?_, answered.status, answered.content, List.mem_map_of_mem member⟩
    rw [answered.id, good.idTrimmed]
    exact good.idNamed
  · rw [answers_ids answers]
    exact fresh

/- The induction runs over the history with the current message still behind it: the
checker's state at each item is what the contract expects there. -/
theorem validateItems_ok (activeNames : List String) (past : List ConversationMessage)
    (current : KiroUserInputMessage) (index : Nat) (due : Option (List KiroToolUse))
    (state : ValidationState)
    (contract : Contract due (past ++ [.user current]))
    (role : state.previousWasUser = due.isNone)
    (expected : state.previousUses = (due.getD []).map (·.toolUseId))
    (started : due = none → index ≠ 0)
    (admitted : ∀ toolUse ∈ due.getD [] ++ past.flatMap toolUsesOf, Admitted activeNames toolUse)
    (freshUses : (state.allUseIds ++ (past.flatMap toolUsesOf).map (·.toolUseId)).Nodup)
    (freshResults : (state.allResultIds ++
      (due.getD [] ++ past.flatMap toolUsesOf).map (·.toolUseId)).Nodup)
    (tidy : ∀ user, .user user ∈ past → TidyPast user) :
    ∃ final, validateItems activeNames index (past.map historyItem) state = .ok final ∧
      final.previousWasUser = false ∧
      (past = [] → final = state) ∧
      ∃ ids, validateUserResults current final.previousUses final.allResultIds "current message" =
        .ok ids := by
  induction past generalizing index due state with
  | nil =>
    cases due with
    | none => exact contract.elim
    | some uses =>
      refine ⟨state, rfl, by simpa using role, fun _ => rfl,
        state.allResultIds ++ uses.map (·.toolUseId), ?_⟩
      rw [expected]
      exact validateUserResults_ok _ contract.1 (by simpa using admitted) _ (by simpa using freshResults)
  | cons message rest ih =>
    cases message with
    | user user =>
      cases due with
      | none => exact contract.elim
      | some uses =>
        simp only [Option.getD_some, List.flatMap_cons, toolUsesOf, List.nil_append] at *
        have bare : user.tools = [] := by
          unfold KiroUserInputMessage.tools
          cases context : user.userInputMessageContext with
          | none => rfl
          | some value => simp [(tidy user List.mem_cons_self value context).1]
        rw [List.map_append, ← List.append_assoc] at freshResults
        have checked := validateUserResults_ok s!"history message {index}" contract.1
          (fun u member => admitted u (List.mem_append_left _ member)) state.allResultIds
          (List.Nodup.of_append_left freshResults)
        obtain ⟨final, ran, roles, _, last⟩ := ih (index + 1) none
          { state with allResultIds := state.allResultIds ++ uses.map (·.toolUseId)
                       previousUses := [], previousWasUser := true }
          contract.2 rfl rfl (by simp) (fun u member => admitted u (by simpa using Or.inr (by simpa using member)))
          freshUses (by simpa using freshResults)
          (fun u member => tidy u (List.mem_cons_of_mem _ member))
        refine ⟨final, ?_, roles, by simp, last⟩
        simp only [List.map_cons, historyItem, validateItems, validateItem, role, Option.isNone_some,
          Bool.false_eq_true, if_false, bare, List.isEmpty_nil, Bool.true_eq_false, expected, checked]
        exact ran
    | assistant assistant =>
      cases due with
      | some uses => exact contract.elim
      | none =>
        simp only [Option.getD_none, List.nil_append, List.flatMap_cons, toolUsesOf,
          List.map_append] at *
        rw [← List.append_assoc] at freshUses
        have checked := validateAssistantUses_ok activeNames s!"history message {index}"
          assistant.toolUses state.allUseIds
          (fun u member => admitted u (List.mem_append_left _ member))
          (List.Nodup.of_append_left freshUses)
        obtain ⟨final, ran, roles, _, last⟩ := ih (index + 1) (some assistant.toolUses)
          { state with allUseIds := state.allUseIds ++ assistant.toolUses.map (·.toolUseId)
                       previousUses := assistant.toolUses.map (·.toolUseId), previousWasUser := false }
          contract rfl rfl (by simp) admitted freshUses (by simpa using freshResults)
          (fun u member => tidy u (List.mem_cons_of_mem _ member))
        refine ⟨final, ?_, roles, by simp, last⟩
        have follows : ¬ (index = 0 ∨ state.previousWasUser = false) := by
          simpa [role] using started
        simp only [List.map_cons, historyItem, validateItems, validateItem, if_neg follows, checked]
        exact ran

theorem validate_canonical {past : List ConversationMessage} {current : KiroUserInputMessage}
    (canonical : Canonical past current) (payload : KiroPayload) :
    validateKiroToolHistory (withConversation payload current (past.map historyItem)) = .ok () := by
  have named : ((definedNames current.tools).any (fun name => decide (trim name = ""))) = false := by
    simp only [List.any_eq_false, decide_eq_true_eq]
    intro name member
    rw [canonical.names.trimmed name member]
    exact canonical.names.named name member
  have single : (definedNames current.tools).length = (definedNames current.tools).dedup.length := by
    rw [List.dedup_eq_self.mpr canonical.names.distinct]
  obtain ⟨final, ran, roles, fresh, ids, last⟩ := validateItems_ok (definedNames current.tools) past
    current 0 (some []) {} canonical.contract rfl rfl (by simp) (by simpa using canonical.admitted)
    (by simpa using canonical.distinct) (by simpa using canonical.distinct) canonical.tidyPast
  have uses : (if past = [] then [] else final.previousUses) = final.previousUses := by
    split
    · rename_i empty
      rw [fresh empty]
    · rfl
  simp only [validateKiroToolHistory, withConversation, named, Bool.false_eq_true, if_false, single,
    ne_eq, not_true, ran, bind, Except.bind]
  simp [roles, uses, last]

end KiroProxy.ToolHistory

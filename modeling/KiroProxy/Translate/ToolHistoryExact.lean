import KiroProxy.Lib.Bytes
import KiroProxy.Translate.ToolHistoryCheck

/-! What the checker of the tool history accepts, said without its error texts and positions. -/
namespace KiroProxy.ToolHistory

open Text (trim)

/-- The results of a user answer the calls whose ids are due, and none was answered before. -/
structure ResultsOk (due seen : List String) (user : KiroUserInputMessage) : Prop where
  count : user.toolResults.length = due.length
  each : ∀ result ∈ user.toolResults, trim result.toolUseId ≠ "" ∧
    (result.status = "success" ∨ result.status = "error") ∧ result.content ≠ [] ∧ result.toolUseId ∈ due
  distinct : (user.toolResults.map (·.toolUseId)).Nodup
  fresh : ∀ result ∈ user.toolResults, result.toolUseId ∉ seen

structure UsesOk (names seen : List String) (uses : List KiroToolUse) : Prop where
  each : ∀ toolUse ∈ uses, trim toolUse.toolUseId ≠ "" ∧ trim toolUse.name ≠ "" ∧ toolUse.input.isObject = true ∧
    toolUse.name ∈ names
  distinct : (uses.map (·.toolUseId)).Nodup
  fresh : ∀ toolUse ∈ uses, toolUse.toolUseId ∉ seen

variable {allIds answered due seen used : List String} {location : String} {user : KiroUserInputMessage}
  {uses : List KiroToolUse} {turn : KiroHistoryMessage}

theorem validateResults_iff {expected final : List String} {results : List KiroToolResult} :
    validateResults expected location results allIds = .ok final ↔
      (∀ result ∈ results, trim result.toolUseId ≠ "" ∧ (result.status = "success" ∨ result.status = "error") ∧
        result.content ≠ [] ∧ result.toolUseId ∈ expected) ∧
      (results.map (·.toolUseId)).Nodup ∧ (∀ result ∈ results, result.toolUseId ∉ allIds) ∧
      final = allIds ++ results.map (·.toolUseId) := by
  induction results generalizing allIds with
  | nil =>
    rw [validateResults, Except.ok.injEq]
    constructor
    · rintro rfl
      simp
    · rintro ⟨-, -, -, rfl⟩
      simp
  | cons result rest ih =>
    rw [validateResults]
    split
    case isTrue blank => simp [blank]
    case isFalse named =>
      split
      case isTrue status => simp [status]
      case isFalse status =>
        have valid : result.status = "success" ∨ result.status = "error" := by
          rw [← not_and_or.trans (or_congr not_not not_not)]
          exact status
        split
        case isTrue empty => simp [List.isEmpty_iff.1 empty]
        case isFalse filled =>
          split
          case isTrue unknown => simp [unknown]
          case isFalse known =>
            split
            case isTrue seen => simp [seen]
            case isFalse unseen =>
              rw [ih]
              simp only [List.mem_append, List.mem_singleton, not_or, List.map_cons, List.nodup_cons, List.mem_map,
                List.forall_mem_cons, List.append_assoc, List.cons_append, List.nil_append]
              have content : result.content ≠ [] := by simpa [List.isEmpty_iff] using filled
              have member : result.toolUseId ∈ expected := by simpa using known
              constructor
              · rintro ⟨each, distinct, fresh, rfl⟩
                refine ⟨⟨⟨named, valid, content, member⟩, each⟩, ⟨?_, distinct⟩, ⟨unseen, fun r m => (fresh r m).1⟩, rfl⟩
                rintro ⟨other, inside, same⟩
                exact (fresh other inside).2 same
              · rintro ⟨⟨-, each⟩, ⟨apart, distinct⟩, ⟨-, fresh⟩, rfl⟩
                exact ⟨each, distinct, fun r m => ⟨fresh r m, fun same => apart ⟨r, m, same⟩⟩, rfl⟩

theorem validateUserResults_iff {expected final : List String} :
    validateUserResults user expected allIds location = .ok final ↔
      ResultsOk expected allIds user ∧ final = allIds ++ user.toolResults.map (·.toolUseId) := by
  unfold validateUserResults
  dsimp only
  split
  case isTrue differ =>
    simp only [reduceCtorEq, false_iff, not_and]
    exact fun ok => absurd ok.count differ
  case isFalse same =>
    rw [validateResults_iff]
    constructor
    · rintro ⟨each, distinct, fresh, rfl⟩
      exact ⟨⟨by simpa using same, each, distinct, fresh⟩, rfl⟩
    · rintro ⟨ok, rfl⟩
      exact ⟨ok.each, ok.distinct, ok.fresh, rfl⟩

theorem validateAssistantUses_iff {activeNames : List String} {result : List String × List String} :
    validateAssistantUses activeNames location uses allIds = .ok result ↔
      UsesOk activeNames allIds uses ∧ result = (uses.map (·.toolUseId), allIds ++ uses.map (·.toolUseId)) := by
  induction uses generalizing allIds result with
  | nil =>
    simp only [validateAssistantUses, List.map_nil, List.append_nil, Except.ok.injEq]
    constructor
    · rintro rfl
      exact ⟨⟨by simp, by simp, by simp⟩, rfl⟩
    · rintro ⟨-, rfl⟩
      rfl
  | cons toolUse rest ih =>
    rw [validateAssistantUses]
    split
    case isTrue unnamed =>
      refine ⟨fun accepted => (by cases accepted), fun both => ?_⟩
      obtain ⟨id, name, -⟩ := both.1.each toolUse List.mem_cons_self
      exact absurd unnamed (not_or.2 ⟨id, name⟩)
    case isFalse named =>
      split
      case isTrue shapeless =>
        refine ⟨fun accepted => (by cases accepted), fun both => ?_⟩
        obtain ⟨-, -, object, -⟩ := both.1.each toolUse List.mem_cons_self
        simp [object] at shapeless
      case isFalse shaped =>
        split
        case isTrue unknown =>
          refine ⟨fun accepted => (by cases accepted), fun both => ?_⟩
          exact absurd (both.1.each toolUse List.mem_cons_self).2.2.2 unknown
        case isFalse known =>
          split
          case isTrue seen =>
            refine ⟨fun accepted => (by cases accepted), fun both => ?_⟩
            exact absurd seen (both.1.fresh toolUse List.mem_cons_self)
          case isFalse unseen =>
            rw [Bytes.bind_ok]
            constructor
            · rintro ⟨ids, tail, last⟩
              obtain ⟨ok, rfl⟩ := ih.1 tail
              obtain rfl := Except.ok.inj last
              have own := not_or.1 named
              refine ⟨⟨?_, ?_, ?_⟩, by simp⟩
              · exact List.forall_mem_cons.2 ⟨⟨own.1, own.2, by simpa using shaped, by simpa using known⟩, ok.each⟩
              · refine List.nodup_cons.2 ⟨fun again => ?_, ok.distinct⟩
                obtain ⟨other, inside, same⟩ := List.mem_map.1 again
                exact ok.fresh other inside (by simp [same])
              · exact List.forall_mem_cons.2 ⟨unseen, fun other inside seen => ok.fresh other inside (by simp [seen])⟩
            · rintro ⟨ok, rfl⟩
              refine ⟨_, ih.2 ⟨⟨?_, ?_, ?_⟩, rfl⟩, by simp⟩
              · exact (List.forall_mem_cons.1 ok.each).2
              · exact (List.nodup_cons.1 ok.distinct).2
              · intro other inside seen
                obtain old | same := List.mem_append.1 seen
                · exact ok.fresh other (List.mem_cons_of_mem _ inside) old
                · refine (List.nodup_cons.1 ok.distinct).1 (List.mem_map.2 ⟨other, inside, ?_⟩)
                  exact List.mem_singleton.1 same

def useIds (assistant : KiroAssistantMessage) : List String := assistant.toolUses.map (·.toolUseId)

def resultIds (user : KiroUserInputMessage) : List String := user.toolResults.map (·.toolUseId)

/-- A history and a current message behind it that the checker accepts. The first argument after
them holds the ids that await their results when a user comes next; the other two hold the ids
used and those answered so far. -/
def Checked (names : List String) (current : KiroUserInputMessage) :
    Option (List String) → List String → List String → List KiroHistoryMessage → Prop
  | some due, _, answered, [] => ResultsOk due answered current
  | none, _, _, [] => False
  | some due, used, answered, turn :: rest => ∃ user, turn = userTurn user ∧ user.tools = [] ∧
      ResultsOk due answered user ∧ Checked names current none used (answered ++ resultIds user) rest
  | none, used, answered, turn :: rest => ∃ assistant, turn = assistantTurn assistant ∧
      UsesOk names used assistant.toolUses ∧
      Checked names current (some (useIds assistant)) (used ++ useIds assistant) answered rest

def Closes (current : KiroUserInputMessage) (state : ValidationState) : Prop :=
  state.previousWasUser = false ∧ ResultsOk state.previousUses state.allResultIds current

theorem validateItem_user {names : List String} {index : Nat} {state next : ValidationState}
    (user_next : state.previousWasUser = false) :
    validateItem names index turn state = .ok next ↔ ∃ user, turn = userTurn user ∧ user.tools = [] ∧
      ResultsOk state.previousUses state.allResultIds user ∧
      next = { state with allResultIds := state.allResultIds ++ resultIds user, previousUses := [], previousWasUser := true } := by
  obtain ⟨own, other⟩ := turn
  cases own with
  | none =>
    have refused : ∀ next, validateItem names index { userInputMessage := none, assistantResponseMessage := other } state ≠
        .ok next := by
      intro next
      cases other <;> simp [validateItem, user_next]
    refine ⟨fun accepted => absurd accepted (refused next), ?_⟩
    rintro ⟨user, same, -⟩
    cases same
  | some user =>
    cases other with
    | some assistant =>
      refine ⟨fun accepted => (by cases accepted), ?_⟩
      rintro ⟨user, same, -⟩
      cases same
    | none =>
      simp only [validateItem, user_next, Bool.false_eq_true, if_false]
      split
      case isTrue tooled =>
        refine ⟨fun accepted => (by cases accepted), ?_⟩
        rintro ⟨other, same, bare, -⟩
        cases same
        simp [bare] at tooled
      case isFalse bare =>
        rw [Bytes.bind_ok]
        constructor
        · rintro ⟨ids, answered, last⟩
          obtain ⟨ok, rfl⟩ := validateUserResults_iff.1 answered
          exact ⟨user, rfl, by simpa using bare, ok, (Except.ok.inj last).symm⟩
        · rintro ⟨other, same, -, ok, rfl⟩
          cases same
          exact ⟨_, validateUserResults_iff.2 ⟨ok, rfl⟩, rfl⟩

theorem validateItem_assistant {names : List String} {index : Nat} {state next : ValidationState}
    (assistant_next : state.previousWasUser = true) (started : index ≠ 0) :
    validateItem names index turn state = .ok next ↔ ∃ assistant, turn = assistantTurn assistant ∧
      UsesOk names state.allUseIds assistant.toolUses ∧
      next = { state with allUseIds := state.allUseIds ++ useIds assistant, previousUses := useIds assistant
                          previousWasUser := false } := by
  obtain ⟨own, other⟩ := turn
  cases own with
  | some user =>
    have refused : ∀ next, validateItem names index { userInputMessage := some user, assistantResponseMessage := other } state ≠
        .ok next := by
      intro next
      cases other <;> simp [validateItem, assistant_next]
    refine ⟨fun accepted => absurd accepted (refused next), ?_⟩
    rintro ⟨assistant, same, -⟩
    cases same
  | none =>
    cases other with
    | none =>
      refine ⟨fun accepted => (by cases accepted), ?_⟩
      rintro ⟨assistant, same, -⟩
      cases same
    | some assistant =>
      have follows : ¬ (index = 0 ∨ state.previousWasUser = false) := by simp [started, assistant_next]
      simp only [validateItem, if_neg follows]
      rw [Bytes.bind_ok]
      constructor
      · rintro ⟨ids, used, last⟩
        obtain ⟨ok, rfl⟩ := validateAssistantUses_iff.1 used
        exact ⟨assistant, rfl, ok, (Except.ok.inj last).symm⟩
      · rintro ⟨other, same, ok, rfl⟩
        cases same
        exact ⟨_, validateAssistantUses_iff.2 ⟨ok, rfl⟩, rfl⟩

theorem validateItems_iff (names : List String) (current : KiroUserInputMessage) (history : List KiroHistoryMessage)
    (index : Nat) (state : ValidationState) (started : state.previousWasUser = true → index ≠ 0) :
    (∃ final, validateItems names index history state = .ok final ∧ Closes current final) ↔
      Checked names current (if state.previousWasUser then none else some state.previousUses) state.allUseIds
        state.allResultIds history := by
  induction history generalizing index state with
  | nil =>
    cases role : state.previousWasUser with
    | true => simp [validateItems, Closes, role, Checked]
    | false => simp [validateItems, Closes, role, Checked]
  | cons turn rest ih =>
    cases role : state.previousWasUser with
    | false =>
      simp only [Bool.false_eq_true, if_false, Checked]
      constructor
      · rintro ⟨final, ran, closes⟩
        obtain ⟨next, item, later⟩ := Bytes.bind_ok.1 ran
        obtain ⟨user, same, bare, ok, rfl⟩ := (validateItem_user role).1 item
        exact ⟨user, same, bare, ok, (ih (index + 1) _ (by simp)).1 ⟨final, later, closes⟩⟩
      · rintro ⟨user, same, bare, ok, checked⟩
        obtain ⟨final, later, closes⟩ := (ih (index + 1) { state with
          allResultIds := state.allResultIds ++ resultIds user, previousUses := [], previousWasUser := true } (by simp)).2 checked
        exact ⟨final, Bytes.bind_ok.2 ⟨_, (validateItem_user role).2 ⟨user, same, bare, ok, rfl⟩, later⟩, closes⟩
    | true =>
      simp only [if_true, Checked]
      constructor
      · rintro ⟨final, ran, closes⟩
        obtain ⟨next, item, later⟩ := Bytes.bind_ok.1 ran
        obtain ⟨assistant, same, ok, rfl⟩ := (validateItem_assistant role (started role)).1 item
        exact ⟨assistant, same, ok, (ih (index + 1) _ (by simp)).1 ⟨final, later, closes⟩⟩
      · rintro ⟨assistant, same, ok, checked⟩
        obtain ⟨final, later, closes⟩ := (ih (index + 1) { state with
          allUseIds := state.allUseIds ++ useIds assistant, previousUses := useIds assistant
          previousWasUser := false } (by simp)).2 checked
        exact ⟨final, Bytes.bind_ok.2 ⟨_, (validateItem_assistant role (started role)).2 ⟨assistant, same, ok, rfl⟩, later⟩,
          closes⟩

theorem nodup_iff_length_dedup {names : List String} : names.length = names.dedup.length ↔ names.Nodup := by
  constructor
  · intro same
    have whole := (List.dedup_sublist names).eq_of_length same.symm
    rw [← whole]
    exact List.nodup_dedup names
  · intro distinct
    rw [List.dedup_eq_self.2 distinct]

theorem validate_iff (payload : KiroPayload) :
    let current := payload.conversationState.currentMessage.userInputMessage
    validateKiroToolHistory payload = .ok () ↔
      (∀ name ∈ definedNames current.tools, trim name ≠ "") ∧ (definedNames current.tools).Nodup ∧
        Checked (definedNames current.tools) current (some []) [] [] payload.conversationState.history := by
  intro current
  have loop := validateItems_iff (definedNames current.tools) current payload.conversationState.history 0 {} (by simp)
  simp only [Bool.false_eq_true, if_false] at loop
  rw [← loop, validateKiroToolHistory]
  dsimp only
  split
  case isTrue blank =>
    obtain ⟨name, member, empty⟩ := List.any_eq_true.1 blank
    refine ⟨fun accepted => (by cases accepted), fun held => absurd (of_decide_eq_true empty) (held.1 name member)⟩
  case isFalse named =>
    have names : ∀ name ∈ definedNames current.tools, trim name ≠ "" := by
      intro name member empty
      exact named (List.any_eq_true.2 ⟨name, member, decide_eq_true empty⟩)
    split
    case isTrue repeated =>
      refine ⟨fun accepted => (by cases accepted), fun held => absurd (nodup_iff_length_dedup.2 held.2.1) repeated⟩
    case isFalse single =>
      have distinct : (definedNames current.tools).Nodup := nodup_iff_length_dedup.1 (not_not.1 single)
      have uses : ∀ final, validateItems (definedNames current.tools) 0 payload.conversationState.history {} = .ok final →
          (if final.previousWasUser = false ∧ payload.conversationState.history.isEmpty then [] else final.previousUses) =
            final.previousUses := by
        intro final ran
        split
        case isTrue none =>
          rw [List.isEmpty_iff.1 none.2] at ran
          rw [← Except.ok.inj ran]
        case isFalse => rfl
      rw [Bytes.bind_ok]
      constructor
      · rintro ⟨final, ran, closing⟩
        rw [uses final ran] at closing
        refine ⟨names, distinct, final, ran, ?_⟩
        split at closing
        case isTrue => cases closing
        case isFalse =>
          split at closing
          case isTrue => cases closing
          case isFalse open_end =>
            obtain ⟨ids, answered, _⟩ := Bytes.bind_ok.1 closing
            refine ⟨?_, (validateUserResults_iff.1 answered).1⟩
            by_contra user
            rw [Bool.not_eq_false] at user
            refine open_end ⟨?_, user⟩
            by_contra empty
            rw [Bool.not_eq_false, List.isEmpty_iff] at empty
            rw [empty] at ran
            rw [← Except.ok.inj ran] at user
            cases user
      · rintro ⟨-, -, final, ran, role, ok⟩
        refine ⟨final, ran, ?_⟩
        rw [uses final ran, role]
        simp only [Bool.false_eq_true, false_and, and_false, if_false]
        exact Bytes.bind_ok.2 ⟨_, validateUserResults_iff.2 ⟨ok, rfl⟩, rfl⟩

/-! ### Parts of an accepted history -/

theorem ResultsOk.fewer {fewer : List String} (ok : ResultsOk due seen user) (subset : fewer ⊆ seen) :
    ResultsOk due fewer user :=
  ⟨ok.count, ok.each, ok.distinct, fun result member again => ok.fresh result member (subset again)⟩

theorem ResultsOk.congr {first second : KiroUserInputMessage} (same : second.toolResults = first.toolResults)
    (ok : ResultsOk due seen first) : ResultsOk due seen second :=
  ⟨by rw [same, ok.count], by rw [same]; exact ok.each, by rw [same]; exact ok.distinct, by rw [same]; exact ok.fresh⟩

theorem ResultsOk.ids (ok : ResultsOk due seen user) :
    ∀ id ∈ resultIds user, id ∈ due := by
  intro id member
  obtain ⟨result, inside, rfl⟩ := List.mem_map.1 member
  exact (ok.each result inside).2.2.2

theorem ResultsOk.nil_iff (ok : ResultsOk due seen user) :
    user.toolResults = [] ↔ due = [] := by
  rw [← List.length_eq_zero_iff, ok.count, List.length_eq_zero_iff]

theorem ResultsOk.of_none (bare : user.toolResults = []) :
    ResultsOk [] seen user :=
  ⟨by rw [bare]; rfl, by simp [bare], by simp [bare], by simp [bare]⟩

theorem UsesOk.fewer {names more fewer : List String} (ok : UsesOk names seen uses) (wider : names ⊆ more)
    (subset : fewer ⊆ seen) : UsesOk more fewer uses := by
  refine ⟨fun toolUse member => ?_, ok.distinct, fun toolUse member again => ok.fresh toolUse member (subset again)⟩
  obtain ⟨id, name, object, known⟩ := ok.each toolUse member
  exact ⟨id, name, object, wider known⟩

theorem UsesOk.of_none {names : List String} (bare : uses = []) : UsesOk names seen uses :=
  ⟨by simp [bare], by simp [bare], by simp [bare]⟩

variable {names : List String} {current : KiroUserInputMessage}

theorem Checked.fewer {history : List KiroHistoryMessage} {due : Option (List String)}
    {lessUsed lessAnswered : List String} (usedLess : lessUsed ⊆ used) (answeredLess : lessAnswered ⊆ answered)
    (checked : Checked names current due used answered history) :
    Checked names current due lessUsed lessAnswered history := by
  have grown : ∀ {less more : List String} (ids : List String), less ⊆ more → less ++ ids ⊆ more ++ ids :=
    fun ids subset => List.append_subset.2 ⟨List.subset_append_of_subset_left _ subset, List.subset_append_right _ ids⟩
  induction history generalizing due used answered lessUsed lessAnswered with
  | nil =>
    cases due with
    | none => exact checked
    | some due => exact ResultsOk.fewer checked answeredLess
  | cons turn rest ih =>
    cases due with
    | some due =>
      obtain ⟨user, same, bare, ok, later⟩ := checked
      exact ⟨user, same, bare, ok.fewer answeredLess,
        ih usedLess (grown _ answeredLess) later⟩
    | none =>
      obtain ⟨assistant, same, ok, later⟩ := checked
      exact ⟨assistant, same, ok.fewer (List.Subset.refl _) usedLess,
        ih (grown _ usedLess) answeredLess later⟩

theorem Checked.even {history : List KiroHistoryMessage} {due : Option (List String)}
    (checked : Checked names current due used answered history) :
    history.length % 2 = if due.isSome then 0 else 1 := by
  induction history generalizing due used answered with
  | nil =>
    cases due with
    | none => exact checked.elim
    | some due => rfl
  | cons turn rest ih =>
    cases due with
    | some due =>
      obtain ⟨user, -, -, -, later⟩ := checked
      have shorter := ih later
      simp only [Option.isSome_none, Bool.false_eq_true, if_false] at shorter
      simp only [List.length_cons, Option.isSome_some, if_true]
      omega
    | none =>
      obtain ⟨assistant, -, -, later⟩ := checked
      have shorter := ih later
      simp only [Option.isSome_some, if_true] at shorter
      simp only [List.length_cons, Option.isSome_none, Bool.false_eq_true, if_false]
      omega

theorem Checked.later {front back : List KiroHistoryMessage} {due : Option (List String)}
    (checked : Checked names current due used answered (front ++ back)) :
    ∃ due' used' answered', (due'.isSome ↔ (due.isSome ↔ front.length % 2 = 0)) ∧
      Checked names current due' used' answered' back := by
  induction front generalizing due used answered with
  | nil => exact ⟨due, used, answered, by simp, checked⟩
  | cons turn rest ih =>
    cases due with
    | some due =>
      obtain ⟨user, -, -, -, later⟩ := checked
      obtain ⟨due', used', answered', role, last⟩ := ih later
      refine ⟨due', used', answered', ?_, last⟩
      rw [role]
      simp only [Option.isSome_none, Bool.false_eq_true, false_iff, List.length_cons, Option.isSome_some, true_iff]
      omega
    | none =>
      obtain ⟨assistant, -, -, later⟩ := checked
      obtain ⟨due', used', answered', role, last⟩ := ih later
      refine ⟨due', used', answered', ?_, last⟩
      rw [role]
      simp only [Option.isSome_none, Bool.false_eq_true, false_iff, List.length_cons, Option.isSome_some, true_iff]
      omega

theorem Checked.restart {rest : List KiroHistoryMessage} (bare : turnResults turn = [])
    (checked : Checked names current (some due) used answered (turn :: rest)) :
    Checked names current (some []) [] [] (turn :: rest) := by
  obtain ⟨user, rfl, -, ok, -⟩ := id checked
  obtain rfl := ok.nil_iff.1 bare
  exact checked.fewer (List.nil_subset _) (List.nil_subset _)

end KiroProxy.ToolHistory

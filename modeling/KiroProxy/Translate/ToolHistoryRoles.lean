import KiroProxy.Translate.ToolHistory
import Mathlib.Data.List.Forall2
import Mathlib.Data.List.Range

/-! Role normalization as one list: every placed message with the index it comes from,
and no index for a message that the pass inserts. -/
namespace KiroProxy.ToolHistory

/-- A message of the output and, unless inserted, the index of its original. -/
abbrev Placed := Option Nat × ConversationMessage

section Weave

variable (template : KiroUserInputMessage) (scheduled : Nat → List KiroToolResult)

/-- `last` tells whether the message placed before is a user message; none stands at the start. -/
def weave : Nat → List ConversationMessage → Option Bool → List KiroToolResult → List Placed
  | _, [], _, _ => []
  | index, .user user :: rest, last, pending =>
    let placed := (some index, .user (addToolResults user pending)) ::
      weave (index + 1) rest (some true) []
    if last = some true then (none, .assistant syntheticAssistant) :: placed else placed
  | index, .assistant assistant :: rest, last, pending =>
    let placed := (some index, .assistant assistant) ::
      weave (index + 1) rest (some false) (scheduled index)
    if last = some true then placed
    else
      let content := if last = none then "Begin conversation."
        else "Continue after the previous tool call."
      (none, .user (syntheticUser template content pending)) :: placed

def lastRole (output : List ConversationMessage) : Option Bool := output.getLast?.map isUser

theorem lastRole_snoc (output : List ConversationMessage) (message : ConversationMessage) :
    lastRole (output ++ [message]) = some (isUser message) := by
  simp [lastRole]

theorem lastRole_pair (output : List ConversationMessage) (first second : ConversationMessage) :
    lastRole (output ++ [first, second]) = some (isUser second) := by
  simp [lastRole, List.getLast?_append]

theorem lastRole_user (output : List ConversationMessage) :
    output.getLast?.any isUser = decide (lastRole output = some true) := by
  unfold lastRole
  cases output.getLast? with
  | none => rfl
  | some message => cases h : isUser message <;> simp [h]

theorem lastRole_empty (output : List ConversationMessage) :
    output.isEmpty = decide (lastRole output = none) := by
  cases output <;> simp [lastRole]

def insertions (placed : List Placed) : Nat := placed.countP (fun x => x.1.isNone)

def withInsertions (stats : KiroToolHistoryStats) (n : Nat) : KiroToolHistoryStats :=
  { stats with insertedMessages := stats.insertedMessages + n }

@[simp] theorem insertions_none (message : ConversationMessage) (rest : List Placed) :
    insertions ((none, message) :: rest) = insertions rest + 1 := by
  simp [insertions]

@[simp] theorem insertions_some (index : Nat) (message : ConversationMessage) (rest : List Placed) :
    insertions ((some index, message) :: rest) = insertions rest := by
  simp [insertions]

theorem withInsertions_countInserted (stats : KiroToolHistoryStats) (n : Nat) :
    withInsertions (countInserted stats) n = withInsertions stats (n + 1) := by
  simp [withInsertions, countInserted, Nat.add_assoc, Nat.add_comm 1 n]

theorem placeMessages_weave (index : Nat) (messages : List ConversationMessage) (state : RolesState) :
    let woven := weave template scheduled index messages (lastRole state.output) state.pendingResults
    let out := placeMessages template scheduled index messages state
    out.output = state.output ++ woven.map Prod.snd ∧
      out.stats = withInsertions state.stats (insertions woven) := by
  induction messages generalizing index state with
  | nil => simp [placeMessages, weave, withInsertions, insertions]
  | cons message rest ih =>
    have tail := ih (index + 1) (placeMessage template scheduled index message state)
    simp only [placeMessages]
    rw [tail.1, tail.2]
    cases message with
    | user user =>
      by_cases repeated : lastRole state.output = some true
      · simp [placeMessage, separateUsers, lastRole_user, repeated, weave, isUser, lastRole_pair,
          withInsertions_countInserted]
      · simp [placeMessage, separateUsers, lastRole_user, repeated, weave, isUser, lastRole_snoc]
    | assistant assistant =>
      by_cases ready : lastRole state.output = some true
      · simp [placeMessage, separateAssistants, lastRole_user, ready, weave, isUser, lastRole_snoc]
      · simp [placeMessage, separateAssistants, lastRole_user, lastRole_empty, ready, weave, isUser,
          lastRole_pair, withInsertions_countInserted]

/-! ### Nothing moves and nothing is dropped -/

/-- A placed message is its original; only a user message may have received results. -/
def Carried : ConversationMessage → ConversationMessage → Prop
  | .assistant assistant, placed => placed = .assistant assistant
  | .user user, placed => ∃ results, placed = .user (addToolResults user results)

def Inserted (placed : ConversationMessage) : Prop :=
  placed = .assistant syntheticAssistant ∨
    ∃ content results, (content = "Begin conversation." ∨
        content = "Continue after the previous tool call.") ∧
      placed = .user (syntheticUser template content results)

/-- Every user message holds exactly the results due from the assistant before it. -/
def Delivers : List KiroToolResult → List Placed → Prop
  | due, [] => due = []
  | due, (_, .user user) :: rest => user.toolResults = due ∧ Delivers [] rest
  | due, (some index, .assistant _) :: rest => due = [] ∧ Delivers (scheduled index) rest
  | due, (none, .assistant _) :: rest => due = [] ∧ Delivers [] rest

theorem weave_origins (index : Nat) (messages : List ConversationMessage) (last : Option Bool)
    (pending : List KiroToolResult) :
    (weave template scheduled index messages last pending).filterMap Prod.fst =
      List.range' index messages.length := by
  induction messages generalizing index last pending with
  | nil => rfl
  | cons message rest ih =>
    cases message with
    | user user =>
      by_cases repeated : last = some true <;> simp [weave, repeated, ih, List.range'_succ]
    | assistant assistant =>
      by_cases ready : last = some true <;> simp [weave, ready, ih, List.range'_succ]

theorem weave_snoc (index : Nat) (messages : List ConversationMessage) (user : KiroUserInputMessage)
    (last : Option Bool) (pending : List KiroToolResult) :
    ∃ front due, weave template scheduled index (messages ++ [.user user]) last pending =
      front ++ [(some (index + messages.length), .user (addToolResults user due))] := by
  induction messages generalizing index last pending with
  | nil =>
    by_cases repeated : last = some true
    · exact ⟨[(none, .assistant syntheticAssistant)], pending, by simp [weave, repeated]⟩
    · exact ⟨[], pending, by simp [weave, repeated]⟩
  | cons message rest ih =>
    have place : index + 1 + rest.length = index + (message :: rest).length := by
      simp; omega
    cases message with
    | user first =>
      obtain ⟨front, due, tail⟩ := ih (index + 1) (some true) []
      rw [place] at tail
      by_cases repeated : last = some true
      · exact ⟨(none, .assistant syntheticAssistant) ::
          (some index, .user (addToolResults first pending)) :: front, due,
          by simp [weave, repeated, tail]⟩
      · exact ⟨(some index, .user (addToolResults first pending)) :: front, due,
          by simp [weave, repeated, tail]⟩
    | assistant assistant =>
      obtain ⟨front, due, tail⟩ := ih (index + 1) (some false) (scheduled index)
      rw [place] at tail
      by_cases ready : last = some true
      · exact ⟨(some index, .assistant assistant) :: front, due, by simp [weave, ready, tail]⟩
      · exact ⟨(none, .user (syntheticUser template (if last = none then "Begin conversation."
          else "Continue after the previous tool call.") pending)) ::
          (some index, .assistant assistant) :: front, due, by simp [weave, ready, tail]⟩

theorem weave_uses (index : Nat) (messages : List ConversationMessage) (last : Option Bool)
    (pending : List KiroToolResult) :
    ((weave template scheduled index messages last pending).map Prod.snd).flatMap toolUsesOf =
      messages.flatMap toolUsesOf := by
  induction messages generalizing index last pending with
  | nil => rfl
  | cons message rest ih =>
    cases message with
    | user user =>
      by_cases repeated : last = some true <;>
        simp [weave, repeated, ih, toolUsesOf, syntheticAssistant]
    | assistant assistant =>
      by_cases ready : last = some true <;> simp [weave, ready, ih, toolUsesOf]

theorem weave_cases (index : Nat) (messages : List ConversationMessage) (last : Option Bool)
    (pending : List KiroToolResult) :
    ∀ x ∈ weave template scheduled index messages last pending,
      (x.1 = none ∧ Inserted template x.2) ∨
        ∃ n original, x.1 = some (index + n) ∧ messages[n]? = some original ∧ Carried original x.2 := by
  induction messages generalizing index last pending with
  | nil => simp [weave]
  | cons message rest ih =>
    have later : ∀ last pending, ∀ x ∈ weave template scheduled (index + 1) rest last pending,
        (x.1 = none ∧ Inserted template x.2) ∨ ∃ n original, x.1 = some (index + n) ∧
          (message :: rest)[n]? = some original ∧ Carried original x.2 := by
      intro last pending x member
      rcases ih (index + 1) last pending x member with inserted | ⟨n, original, place, at_n, carried⟩
      · exact .inl inserted
      · exact .inr ⟨n + 1, original, by rw [place]; congr 1; omega, by simpa using at_n, carried⟩
    intro x member
    cases message with
    | user user =>
      have here : x ∈ (some index, ConversationMessage.user (addToolResults user pending)) ::
          weave template scheduled (index + 1) rest (some true) [] →
          (x.1 = none ∧ Inserted template x.2) ∨ ∃ n original, x.1 = some (index + n) ∧
            (ConversationMessage.user user :: rest)[n]? = some original ∧ Carried original x.2 := by
        intro inside
        rcases List.mem_cons.mp inside with rfl | inside
        · exact .inr ⟨0, .user user, rfl, rfl, pending, rfl⟩
        · exact later _ _ x inside
      by_cases repeated : last = some true
      · simp only [weave, repeated, if_true, List.mem_cons] at member
        rcases member with rfl | inside
        · exact .inl ⟨rfl, .inl rfl⟩
        · exact here (List.mem_cons.mpr inside)
      · simp only [weave, repeated, if_false] at member
        exact here member
    | assistant assistant =>
      have here : x ∈ (some index, ConversationMessage.assistant assistant) ::
          weave template scheduled (index + 1) rest (some false) (scheduled index) →
          (x.1 = none ∧ Inserted template x.2) ∨ ∃ n original, x.1 = some (index + n) ∧
            (ConversationMessage.assistant assistant :: rest)[n]? = some original ∧
            Carried original x.2 := by
        intro inside
        rcases List.mem_cons.mp inside with rfl | inside
        · exact .inr ⟨0, .assistant assistant, rfl, rfl, rfl⟩
        · exact later _ _ x inside
      by_cases ready : last = some true
      · simp only [weave, ready, if_true] at member
        exact here member
      · simp only [weave, ready, if_false, List.mem_cons] at member
        rcases member with rfl | inside
        · refine .inl ⟨rfl, .inr ⟨_, _, ?_, rfl⟩⟩
          split
          · exact .inl rfl
          · exact .inr rfl
        · exact here (List.mem_cons.mpr inside)

def EndsInUser : Bool → List ConversationMessage → Prop
  | last, [] => last = true
  | _, message :: rest => EndsInUser (isUser message) rest

theorem endsInUser_snoc (last : Bool) (messages : List ConversationMessage)
    (user : KiroUserInputMessage) : EndsInUser last (messages ++ [.user user]) := by
  induction messages generalizing last with
  | nil => rfl
  | cons message rest ih => exact ih (isUser message)

theorem addToolResults_results (user : KiroUserInputMessage) (results : List KiroToolResult) :
    (addToolResults user results).toolResults = user.toolResults ++ results := by
  unfold addToolResults KiroUserInputMessage.toolResults
  cases results with
  | nil => simp
  | cons result rest => cases user.userInputMessageContext <;> simp

theorem syntheticUser_results (content : String) (results : List KiroToolResult) :
    (syntheticUser template content results).toolResults = results := by
  cases results <;> rfl

theorem weave_delivers (index : Nat) (messages : List ConversationMessage) (last : Option Bool)
    (pending : List KiroToolResult) (settled : last = some true → pending = [])
    (bare : ∀ user, .user user ∈ messages → user.toolResults = [])
    (ends : EndsInUser (decide (last = some true)) messages) :
    Delivers scheduled pending (weave template scheduled index messages last pending) := by
  induction messages generalizing index last pending with
  | nil => exact settled (by simpa [EndsInUser] using ends)
  | cons message rest ih =>
    have bareRest : ∀ user, .user user ∈ rest → user.toolResults = [] :=
      fun user member => bare user (List.mem_cons_of_mem _ member)
    cases message with
    | user user =>
      have empty := bare user List.mem_cons_self
      have tail := ih (index + 1) (some true) [] (fun _ => rfl) bareRest
        (by simpa [EndsInUser, isUser] using ends)
      by_cases repeated : last = some true
      · simp [weave, repeated, Delivers, addToolResults_results, empty, settled repeated, tail]
      · simp [weave, repeated, Delivers, addToolResults_results, empty, tail]
    | assistant assistant =>
      have tail := ih (index + 1) (some false) (scheduled index) (by simp) bareRest
        (by simpa [EndsInUser, isUser] using ends)
      by_cases ready : last = some true
      · simp [weave, ready, Delivers, settled ready, tail]
      · simp [weave, ready, Delivers, syntheticUser_results, tail]

/-! ### Roles alternate -/

def Alternates : Bool → List Placed → Prop
  | userNext, [] => userNext = false
  | userNext, x :: rest => isUser x.2 = userNext ∧ Alternates (!userNext) rest

theorem alternates_last (placed : List Placed) (userNext : Bool) (roles : Alternates userNext placed)
    (nonempty : placed ≠ []) : (placed.map Prod.snd).getLast?.any isUser = true := by
  induction placed generalizing userNext with
  | nil => exact absurd rfl nonempty
  | cons x rest ih =>
    cases rest with
    | nil =>
      have user : isUser x.2 = true := by
        have flipped := roles.2
        rw [roles.1]
        simpa [Alternates] using flipped
      simpa using user
    | cons y rest => simpa using ih (!userNext) roles.2 (by simp)

theorem weave_alternates (index : Nat) (messages : List ConversationMessage) (last : Option Bool)
    (pending : List KiroToolResult) (ends : EndsInUser (decide (last = some true)) messages) :
    Alternates (decide (last ≠ some true)) (weave template scheduled index messages last pending) := by
  induction messages generalizing index last pending with
  | nil =>
    have user : last = some true := by simpa [EndsInUser] using ends
    simp [weave, Alternates, user]
  | cons message rest ih =>
    cases message with
    | user user =>
      have tail := ih (index + 1) (some true) [] (by simpa [EndsInUser, isUser] using ends)
      by_cases repeated : last = some true
      · simpa [weave, repeated, Alternates, isUser] using tail
      · simpa [weave, repeated, Alternates, isUser] using tail
    | assistant assistant =>
      have tail := ih (index + 1) (some false) (scheduled index)
        (by simpa [EndsInUser, isUser] using ends)
      by_cases ready : last = some true
      · simpa [weave, ready, Alternates, isUser] using tail
      · simpa [weave, ready, Alternates, isUser] using tail

end Weave

theorem normalizeRoles_weave (messages : List ConversationMessage)
    (scheduled : Nat → List KiroToolResult) (stats : KiroToolHistoryStats)
    (ends : EndsInUser false messages) :
    ∃ template, normalizeRoles messages scheduled stats =
      ((weave template scheduled 0 messages none []).map Prod.snd,
        withInsertions stats (insertions (weave template scheduled 0 messages none []))) := by
  let template := (messages.reverse.findSome? userOf).getD defaultTemplate
  have placed := placeMessages_weave template scheduled 0 messages { stats := stats }
  simp only [lastRole, List.getLast?_nil, Option.map_none, List.nil_append] at placed
  have roles := weave_alternates template scheduled 0 messages none [] (by simpa using ends)
  have nonempty : weave template scheduled 0 messages none [] ≠ [] := by
    intro empty
    rw [empty] at roles
    cases roles
  have last := alternates_last _ _ roles nonempty
  rw [← placed.1] at last
  refine ⟨template, ?_⟩
  simp only [normalizeRoles]
  rw [if_pos last, placed.1, placed.2]

end KiroProxy.ToolHistory

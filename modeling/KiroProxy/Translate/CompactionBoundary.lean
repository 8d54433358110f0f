import KiroProxy.Translate.Claude

/-! `normalize_compaction_boundary`: what stands before the last completed compaction is left out,
and failed compactions are taken out of the assistant's messages. -/
namespace KiroProxy.Claude

def completedCompaction (block : Value) : Bool :=
  block.kind == some "compaction" && ((block.getStr "content").map (· != "")).getD false

def noopCompaction (block : Value) : Bool :=
  block.kind == some "compaction" && ((block.get "content").map Value.isNull).getD true

def completedIndex (content : Value) : Option Nat :=
  content.asArray.bind fun blocks => (blocks.zipIdx.reverse.find? fun block => completedCompaction block.1).map (·.2)

/-- The last completed compaction of an assistant: its message and its place there. -/
def compactionBoundary (messages : List ClaudeMessage) : Option (Nat × Nat) :=
  (messages.zipIdx.reverse.filter fun message => message.1.role = "assistant").findSome? fun message =>
    (completedIndex message.1.content).map fun place => (message.2, place)

def dropBlocks (count : Nat) (message : ClaudeMessage) : ClaudeMessage :=
  match message.content with
  | .array blocks => { message with content := .array (blocks.drop count) }
  | _ => message

/-- The effort that the last system message before the boundary has set. -/
def carriedEffort (messages : List ClaudeMessage) : Option String :=
  (messages.reverse.filter fun message => message.role = "system").findSome? fun message =>
    message.outputConfig.bind (·.effort)

def applyBoundary (request : ClaudeRequest) : ClaudeRequest :=
  match compactionBoundary request.messages with
  | none => request
  | some (message, block) => { request with
      messages := (request.messages.drop message).modifyHead (dropBlocks block)
      outputConfig := match carriedEffort (request.messages.take message) with
        | some effort => some { request.outputConfig.getD {} with effort := some effort }
        | none => request.outputConfig }

/-- A message without failed compactions: none where nothing else was in it. -/
def withoutNoops (message : ClaudeMessage) : Option ClaudeMessage :=
  if message.role ≠ "assistant" then some message
  else match message.content with
    | .array blocks =>
      let kept := blocks.filter fun block => !noopCompaction block
      if blocks.isEmpty || !kept.isEmpty then some { message with content := .array kept } else none
    | _ => some message

structure CompactionNormalizationStats where
  boundaryApplied : Bool
  removedNoopBlocks : Nat
  removedNoopMessages : Nat
  deriving DecidableEq

def noopBlocks (message : ClaudeMessage) : Nat :=
  if message.role ≠ "assistant" then 0 else (message.content.blocks.filter noopCompaction).length

def normalizeCompactionBoundary (request : ClaudeRequest) : ClaudeRequest × CompactionNormalizationStats :=
  let bounded := applyBoundary request
  ({ bounded with messages := bounded.messages.filterMap withoutNoops },
   { boundaryApplied := (compactionBoundary request.messages).isSome
     removedNoopBlocks := (bounded.messages.map noopBlocks).sum
     removedNoopMessages := (bounded.messages.filter fun message => (withoutNoops message).isNone).length })

/-! ### Failed compactions -/

def emptied (message : ClaudeMessage) : Bool :=
  message.role = "assistant" && !message.content.blocks.isEmpty && message.content.blocks.all noopCompaction

def stripped (message : ClaudeMessage) : ClaudeMessage :=
  match message.content with
  | .array blocks =>
    if message.role = "assistant" then { message with content := .array (blocks.filter fun block => !noopCompaction block) }
    else message
  | _ => message

theorem withoutNoops_eq (message : ClaudeMessage) :
    withoutNoops message = if emptied message then none else some (stripped message) := by
  unfold withoutNoops emptied stripped
  by_cases assistant : message.role = "assistant"
  · rw [if_neg (by simpa using assistant)]
    cases content : message.content with
    | array blocks =>
      have all : (blocks.filter fun block => !noopCompaction block).isEmpty = blocks.all noopCompaction := by
        rw [Bool.eq_iff_iff, List.isEmpty_iff, List.filter_eq_nil_iff, List.all_eq_true]
        simp
      have same : (blocks.isEmpty || !(blocks.filter fun block => !noopCompaction block).isEmpty) =
          !(!blocks.isEmpty && blocks.all noopCompaction) := by
        rw [all]
        cases blocks.isEmpty <;> simp
      simp only [assistant, decide_true, Bool.true_and, Value.blocks, Value.asArray, Option.getD_some, if_true, same]
      cases (!blocks.isEmpty && blocks.all noopCompaction) <;> rfl
    | _ => simp [Value.blocks, Value.asArray]
  · rw [if_pos assistant]
    simp only [assistant, decide_false, Bool.false_and, Bool.false_eq_true, if_false]
    cases message.content <;> rfl

theorem filterMap_withoutNoops (messages : List ClaudeMessage) :
    messages.filterMap withoutNoops = (messages.filter fun message => !emptied message).map stripped := by
  induction messages with
  | nil => rfl
  | cons message rest ih =>
    cases lost : emptied message with
    | true =>
      rw [List.filterMap_cons_none (by simp [withoutNoops_eq, lost]), List.filter_cons_of_neg (by simp [lost]), ih]
    | false =>
      rw [List.filterMap_cons_some (by rw [withoutNoops_eq, lost]; rfl), List.filter_cons_of_pos (by simp [lost]),
        List.map_cons, ih]

theorem noop_not_completed {block : Value} (completed : completedCompaction block = true) : noopCompaction block = false := by
  unfold completedCompaction Value.getStr at completed
  unfold noopCompaction
  cases content : block.get "content" with
  | none => simp [content] at completed
  | some inner => cases inner <;> simp_all [Value.isNull, Value.asStr]

/-! ### The boundary -/

theorem completedIndex_none {content : Value} :
    completedIndex content = none ↔ ∀ block ∈ content.blocks, completedCompaction block = false := by
  unfold completedIndex Value.blocks
  cases content.asArray with
  | none => simp
  | some blocks =>
    simp only [Option.bind_some, Option.map_eq_none_iff, List.find?_eq_none, List.mem_reverse, Bool.not_eq_true,
      Option.getD_some]
    constructor
    · intro none block member
      obtain ⟨index, bound, rfl⟩ := List.mem_iff_getElem.1 member
      exact none (blocks[index], index) (List.mem_zipIdx_iff_getElem?.2 (by simp [bound]))
    · intro none block member
      exact none block.1 (List.fst_mem_of_mem_zipIdx member)

theorem completedIndex_front {block : Value} {rest : List Value} (completed : completedCompaction block = true)
    (others : ∀ block ∈ rest, completedCompaction block = false) : completedIndex (.array (block :: rest)) = some 0 := by
  have later : (rest.zipIdx 1).reverse.find? (fun block => completedCompaction block.1) = none := by
    rw [List.find?_eq_none]
    intro other member
    rw [List.mem_reverse] at member
    simp [others other.1 (List.fst_mem_of_mem_zipIdx member)]
  simp [completedIndex, Value.asArray, List.zipIdx_cons, later, completed]

theorem compactionBoundary_last (front rest : List ClaudeMessage) (message : ClaudeMessage) {place : Nat}
    (role : message.role = "assistant") (completed : completedIndex message.content = some place)
    (others : ∀ later ∈ rest, completedIndex later.content = none) :
    compactionBoundary (front ++ message :: rest) = some (front.length, place) := by
  have later : ((rest.zipIdx (front.length + 1)).filter fun message => message.1.role = "assistant").reverse.findSome?
      (fun message => (completedIndex message.1.content).map fun place => (message.2, place)) = none := by
    rw [List.findSome?_eq_none_iff]
    intro other member
    have inside := (List.mem_filter.1 (List.mem_reverse.1 member)).1
    simp [others other.1 (List.fst_mem_of_mem_zipIdx inside)]
  simp [compactionBoundary, List.zipIdx_append, List.zipIdx_cons, List.filter_append, List.findSome?_append, later, role,
    completed]

end KiroProxy.Claude

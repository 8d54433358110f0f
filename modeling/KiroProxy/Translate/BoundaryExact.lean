import KiroProxy.Translate.CompactionBoundary
import Mathlib.Data.List.Induction

/-! What `normalize_compaction_boundary` leaves of a request: everything from the last completed compaction on, without
failed compactions. The effort that was set before the boundary stays in force behind it. -/
namespace KiroProxy.Claude

/-! ### Effort -/

def effortStep (state : Option String × Option String) (message : ClaudeMessage) : Option String × Option String :=
  if message.role = "system" then ((message.outputConfig.bind (·.effort)).or state.1, state.2)
  else if message.role = "user" then (state.1, state.1)
  else state

def effectiveEffort (request : ClaudeRequest) : Option String :=
  let pending := request.outputConfig.bind (·.effort)
  (request.messages.foldl effortStep (pending, pending)).2

theorem effortStep_assistant {message : ClaudeMessage} (role : message.role = "assistant")
    (state : Option String × Option String) : effortStep state message = state := by
  simp [effortStep, role]

theorem effortStep_congr {message other : ClaudeMessage} (role : other.role = message.role)
    (config : other.outputConfig = message.outputConfig) (state : Option String × Option String) :
    effortStep state other = effortStep state message := by
  simp [effortStep, role, config]

theorem carriedEffort_snoc (front : List ClaudeMessage) (message : ClaudeMessage) :
    carriedEffort (front ++ [message]) =
      if message.role = "system" then (message.outputConfig.bind (·.effort)).or (carriedEffort front)
      else carriedEffort front := by
  unfold carriedEffort
  rw [List.reverse_append, List.reverse_singleton, List.singleton_append]
  by_cases system : message.role = "system"
  · rw [List.filter_cons_of_pos (by simpa using system), if_pos system, List.findSome?_cons]
    cases message.outputConfig.bind (·.effort) <;> rfl
  · rw [List.filter_cons_of_neg (by simpa using system), if_neg system]

theorem foldl_effort_pending (messages : List ClaudeMessage) (state : Option String × Option String) :
    (messages.foldl effortStep state).1 = (carriedEffort messages).or state.1 := by
  induction messages using List.reverseRecOn with
  | nil => rfl
  | append_singleton front message ih =>
    rw [List.foldl_append, List.foldl_cons, List.foldl_nil, carriedEffort_snoc]
    generalize front.foldl effortStep state = reached at ih ⊢
    unfold effortStep
    split
    · rw [ih, Option.or_assoc]
    · split
      · exact ih
      · exact ih

variable {messages : List ClaudeMessage}

theorem foldl_effort_user (user : ∃ message ∈ messages, message.role = "user")
    {state other : Option String × Option String} (same : state.1 = other.1) :
    (messages.foldl effortStep state).2 = (messages.foldl effortStep other).2 := by
  induction messages generalizing state other with
  | nil => simp at user
  | cons message rest ih =>
    rw [List.foldl_cons, List.foldl_cons]
    by_cases later : ∃ message ∈ rest, message.role = "user"
    · apply ih later
      unfold effortStep
      split
      · rw [same]
      · split
        · exact same
        · exact same
    · have here : message.role = "user" := by
        obtain ⟨found, member, role⟩ := user
        rcases List.mem_cons.1 member with rfl | inside
        · exact role
        · exact absurd ⟨found, inside, role⟩ later
      have step : effortStep state message = effortStep other message := by simp [effortStep, here, same]
      rw [step]

/-! ### What is cleaned -/

def cleaned (messages : List ClaudeMessage) : List ClaudeMessage :=
  (messages.filter fun message => !emptied message).map stripped

theorem stripped_role (message : ClaudeMessage) : (stripped message).role = message.role := by
  unfold stripped
  split
  · split <;> rfl
  · rfl

theorem stripped_config (message : ClaudeMessage) : (stripped message).outputConfig = message.outputConfig := by
  unfold stripped
  split
  · split <;> rfl
  · rfl

theorem stripped_blocks {message : ClaudeMessage} {block : Value} (inside : block ∈ (stripped message).content.blocks) :
    block ∈ message.content.blocks := by
  unfold stripped at inside
  split at inside
  · rename_i blocks content
    split at inside
    · rw [content]
      exact (List.mem_filter.1 inside).1
    · exact inside
  · exact inside

theorem foldl_effort_cleaned (messages : List ClaudeMessage) (state : Option String × Option String) :
    (cleaned messages).foldl effortStep state = messages.foldl effortStep state := by
  unfold cleaned
  induction messages generalizing state with
  | nil => rfl
  | cons message rest ih =>
    cases lost : emptied message with
    | true =>
      have assistant : message.role = "assistant" := by
        simp only [emptied, Bool.and_eq_true, decide_eq_true_eq] at lost
        exact lost.1.1
      rw [List.filter_cons_of_neg (by simp [lost]), List.foldl_cons, effortStep_assistant assistant, ih]
    | false =>
      rw [List.filter_cons_of_pos (by simp [lost]), List.map_cons, List.foldl_cons, List.foldl_cons, ih,
        effortStep_congr (stripped_role message) (stripped_config message)]

theorem stripped_clean {message : ClaudeMessage} (kept : emptied message = false) :
    emptied (stripped message) = false ∧ stripped (stripped message) = stripped message := by
  by_cases assistant : message.role = "assistant"
  · cases content : message.content with
    | array blocks =>
      have whole : stripped message = { message with content := .array (blocks.filter fun block => !noopCompaction block) } := by
        unfold stripped
        rw [content]
        exact if_pos assistant
      constructor
      · have some : ¬blocks = [] → ∃ block ∈ blocks, noopCompaction block = false := by
          simpa [emptied, assistant, content, Value.blocks, Value.asArray] using kept
        by_cases none : blocks = []
        · simp [whole, none, emptied, Value.blocks, Value.asArray]
        · obtain ⟨block, inside, noop⟩ := some none
          have filled : block ∈ blocks.filter fun block => !noopCompaction block :=
            List.mem_filter.2 ⟨inside, by rw [noop]; rfl⟩
          rw [whole, emptied, Bool.and_eq_false_iff]
          refine .inr (Bool.eq_false_iff.2 fun all => ?_)
          have lost := List.all_eq_true.1 all block filled
          rw [noop] at lost
          cases lost
      · rw [whole]
        unfold stripped
        dsimp only
        rw [if_pos assistant, List.filter_filter]
        simp
    | _ =>
      have same : stripped message = message := by
        unfold stripped
        rw [content]
      rw [same]
      exact ⟨kept, same⟩
  · have same : stripped message = message := by
      unfold stripped
      split
      · exact if_neg assistant
      · rfl
    rw [same]
    exact ⟨kept, same⟩

theorem cleaned_cleaned (messages : List ClaudeMessage) : cleaned (cleaned messages) = cleaned messages := by
  induction messages with
  | nil => rfl
  | cons message rest ih =>
    unfold cleaned at ih ⊢
    cases lost : emptied message with
    | true => rw [List.filter_cons_of_neg (by simp [lost]), ih]
    | false =>
      obtain ⟨kept, same⟩ := stripped_clean lost
      rw [List.filter_cons_of_pos (by simp [lost]), List.map_cons, List.filter_cons_of_pos (by simp [kept]), List.map_cons,
        ih, same]

/-! ### Where the boundary is -/

def Uncompacted (messages : List ClaudeMessage) : Prop :=
  ∀ message ∈ messages, message.role = "assistant" → ∀ block ∈ message.content.blocks, completedCompaction block = false

structure Boundary (messages front rest : List ClaudeMessage) (message : ClaudeMessage) (before after : List Value)
    (block : Value) : Prop where
  parts : messages = front ++ message :: rest
  role : message.role = "assistant"
  content : message.content = .array (before ++ block :: after)
  completed : completedCompaction block = true
  last : ∀ later ∈ after, completedCompaction later = false
  latest : Uncompacted rest

theorem completedIndex_snoc (blocks : List Value) (block : Value) :
    completedIndex (.array (blocks ++ [block])) =
      if completedCompaction block then some blocks.length else completedIndex (.array blocks) := by
  simp only [completedIndex, Value.asArray, Option.bind_some, List.zipIdx_append, List.reverse_append]
  cases here : completedCompaction block <;> simp [here]

theorem completedIndex_cases {blocks : List Value} {place : Nat} (found : completedIndex (.array blocks) = some place) :
    ∃ before block after, blocks = before ++ block :: after ∧ before.length = place ∧
      completedCompaction block = true ∧ ∀ later ∈ after, completedCompaction later = false := by
  induction blocks using List.reverseRecOn with
  | nil => cases found
  | append_singleton front last ih =>
    rw [completedIndex_snoc] at found
    split at found
    · rename_i here
      exact ⟨front, last, [], rfl, Option.some.inj found, here, by simp⟩
    · rename_i other
      obtain ⟨before, block, after, rfl, length, completed, others⟩ := ih found
      refine ⟨before, block, after ++ [last], by simp, length, completed, fun later member => ?_⟩
      rcases List.mem_append.1 member with inside | member
      · exact others later inside
      · rw [List.mem_singleton.1 member]
        exact Bool.eq_false_iff.2 other

theorem compactionBoundary_snoc (messages : List ClaudeMessage) (message : ClaudeMessage) :
    compactionBoundary (messages ++ [message]) =
      if message.role = "assistant" then
        ((completedIndex message.content).map fun place => (messages.length, place)).or (compactionBoundary messages)
      else compactionBoundary messages := by
  unfold compactionBoundary
  rw [List.zipIdx_append, List.reverse_append]
  by_cases assistant : message.role = "assistant"
  · cases found : completedIndex message.content <;> simp [assistant, found]
  · simp [assistant]

theorem uncompacted_snoc {last : ClaudeMessage} (none : Uncompacted messages)
    (other : ¬(last.role = "assistant" ∧ (completedIndex last.content).isSome)) :
    Uncompacted (messages ++ [last]) := by
  intro message member
  rcases List.mem_append.1 member with inside | member
  · exact none message inside
  · rw [List.mem_singleton.1 member]
    intro assistant
    exact completedIndex_none.1 (Option.not_isSome_iff_eq_none.1 fun found => other ⟨assistant, found⟩)

theorem boundary_cases (messages : List ClaudeMessage) :
    Uncompacted messages ∨
      ∃ front message rest before block after, Boundary messages front rest message before after block := by
  induction messages using List.reverseRecOn with
  | nil => exact .inl (by simp [Uncompacted])
  | append_singleton front last ih =>
    by_cases here : last.role = "assistant" ∧ (completedIndex last.content).isSome
    · obtain ⟨place, found⟩ := Option.isSome_iff_exists.1 here.2
      cases content : last.content with
      | array blocks =>
        rw [content] at found
        obtain ⟨before, block, after, rfl, -, completed, others⟩ := completedIndex_cases found
        exact .inr ⟨front, last, [], before, block, after,
          ⟨rfl, here.1, content, completed, others, by simp [Uncompacted]⟩⟩
      | _ => simp [content, completedIndex, Value.asArray] at found
    · rcases ih with none | ⟨first, message, rest, before, block, after, boundary⟩
      · exact .inl (uncompacted_snoc none here)
      · refine .inr ⟨first, message, rest ++ [last], before, block, after, ?_⟩
        exact { boundary with
          parts := by rw [boundary.parts, List.append_assoc, List.cons_append]
          latest := uncompacted_snoc boundary.latest here }

theorem compactionBoundary_none (none : Uncompacted messages) :
    compactionBoundary messages = .none := by
  induction messages using List.reverseRecOn with
  | nil => rfl
  | append_singleton front last ih =>
    rw [compactionBoundary_snoc, ih fun message member => none message (List.mem_append_left _ member)]
    split
    · rename_i assistant
      rw [completedIndex_none.2 (none last (List.mem_append_right _ List.mem_cons_self) assistant)]
      rfl
    · rfl

theorem completedIndex_last {before after : List Value} {block : Value} (completed : completedCompaction block = true)
    (last : ∀ later ∈ after, completedCompaction later = false) :
    completedIndex (.array (before ++ block :: after)) = some before.length := by
  induction after using List.reverseRecOn with
  | nil => rw [completedIndex_snoc, if_pos completed]
  | append_singleton front later ih =>
    have other := last later (List.mem_append_right _ List.mem_cons_self)
    rw [← List.cons_append, ← List.append_assoc, completedIndex_snoc, if_neg (by simp [other])]
    exact ih fun later member => last later (List.mem_append_left _ member)

theorem Boundary.found {front rest : List ClaudeMessage} {message : ClaudeMessage} {before after : List Value}
    {block : Value} (boundary : Boundary messages front rest message before after block) :
    compactionBoundary messages = some (front.length, before.length) := by
  obtain ⟨rfl, role, content, completed, last, latest⟩ := boundary
  induction rest using List.reverseRecOn with
  | nil =>
    rw [compactionBoundary_snoc, if_pos role, content, completedIndex_last completed last]
    rfl
  | append_singleton rest later ih =>
    have same := ih fun message member => latest message (List.mem_append_left _ member)
    rw [← List.cons_append, ← List.append_assoc, compactionBoundary_snoc, same]
    split
    · rename_i assistant
      have absent := completedIndex_none.2 (latest later (List.mem_append_right _ List.mem_cons_self) assistant)
      rw [absent]
      rfl
    · rfl

theorem uncompacted_cleaned (none : Uncompacted messages) :
    Uncompacted (cleaned messages) := by
  intro message member assistant block inside
  obtain ⟨whole, kept, rfl⟩ := List.mem_map.1 member
  refine none whole (List.mem_filter.1 kept).1 ?_ block (stripped_blocks inside)
  rwa [stripped_role] at assistant

/-! ### What is left -/

theorem normalize_messages (request : ClaudeRequest) :
    (normalizeCompactionBoundary request).1 = { applyBoundary request with
      messages := cleaned (applyBoundary request).messages } := by
  unfold cleaned
  rw [← filterMap_withoutNoops]
  rfl

def fromBoundary (message : ClaudeMessage) (block : Value) (after : List Value) : ClaudeMessage :=
  { message with content := .array (block :: after) }

section Bounded

variable {request : ClaudeRequest} {front rest : List ClaudeMessage} {message : ClaudeMessage} {before after : List Value}
  {block : Value}

theorem applyBoundary_bounded (boundary : Boundary request.messages front rest message before after block) :
    (applyBoundary request).messages = fromBoundary message block after :: rest ∧
      (applyBoundary request).outputConfig.bind (·.effort) =
        (carriedEffort front).or (request.outputConfig.bind (·.effort)) := by
  unfold applyBoundary
  rw [boundary.found]
  have later : request.messages.drop front.length = message :: rest := by rw [boundary.parts, List.drop_left]
  have earlier : request.messages.take front.length = front := by rw [boundary.parts, List.take_left]
  constructor
  · dsimp only
    rw [later, List.modifyHead_cons, dropBlocks, boundary.content]
    simp only [List.drop_left]
    rfl
  · dsimp only
    rw [earlier]
    cases carriedEffort front with
    | none => rfl
    | some effort => rfl

theorem cleaned_bounded (boundary : Boundary messages front rest message before after block) :
    cleaned (fromBoundary message block after :: rest) =
      fromBoundary message block (after.filter fun later => !noopCompaction later) :: cleaned rest := by
  have stays := noop_not_completed boundary.completed
  have kept : emptied (fromBoundary message block after) = false := by
    simp [emptied, fromBoundary, Value.blocks, Value.asArray, stays]
  unfold cleaned
  rw [List.filter_cons_of_pos (by simp [kept]), List.map_cons]
  congr 1
  unfold stripped fromBoundary
  dsimp only
  rw [if_pos boundary.role, List.filter_cons_of_pos (by simp [stays])]

end Bounded

inductive Left (request result : ClaudeRequest) : Prop
  | whole : Uncompacted request.messages → result = { request with messages := cleaned request.messages } →
      effectiveEffort result = effectiveEffort request → Left request result
  | bounded {front rest message before after block} : Boundary request.messages front rest message before after block →
      result = { request with
        messages := cleaned (fromBoundary message block after :: rest)
        outputConfig := result.outputConfig } →
      ((∃ later ∈ rest, later.role = "user") → effectiveEffort result = effectiveEffort request) → Left request result

theorem applyBoundary_frame (request : ClaudeRequest) :
    applyBoundary request = { request with
      messages := (applyBoundary request).messages
      outputConfig := (applyBoundary request).outputConfig } := by
  unfold applyBoundary
  split <;> rfl

theorem normalize_left (request : ClaudeRequest) : Left request (normalizeCompactionBoundary request).1 := by
  rw [normalize_messages]
  rcases boundary_cases request.messages with none | ⟨front, message, rest, before, block, after, boundary⟩
  · have whole : applyBoundary request = request := by rw [applyBoundary, compactionBoundary_none none]
    rw [whole]
    refine .whole none rfl ?_
    rw [effectiveEffort, effectiveEffort, foldl_effort_cleaned]
  · obtain ⟨messages, effort⟩ := applyBoundary_bounded boundary
    refine .bounded boundary ?_ fun user => ?_
    · rw [applyBoundary_frame, messages]
    · rw [effectiveEffort, effectiveEffort]
      dsimp only
      rw [foldl_effort_cleaned, messages, boundary.parts, List.foldl_append, List.foldl_cons, List.foldl_cons,
        effortStep_assistant boundary.role,
        effortStep_assistant (show (fromBoundary message block after).role = "assistant" from boundary.role)]
      apply foldl_effort_user user
      rw [foldl_effort_pending]
      exact effort

theorem dropBlocks_zero (message : ClaudeMessage) : dropBlocks 0 message = message := by
  unfold dropBlocks
  split
  · rename_i blocks content
    rw [List.drop_zero, ← content]
  · rfl

theorem Boundary.cleaned {front rest : List ClaudeMessage} {message : ClaudeMessage} {before after : List Value}
    {block : Value} (boundary : Boundary messages front rest message before after block) :
    Boundary (fromBoundary message block (after.filter fun later => !noopCompaction later) :: Claude.cleaned rest) []
      (Claude.cleaned rest) (fromBoundary message block (after.filter fun later => !noopCompaction later)) []
      (after.filter fun later => !noopCompaction later) block where
  parts := rfl
  role := boundary.role
  content := rfl
  completed := boundary.completed
  last later member := boundary.last later (List.mem_filter.1 member).1
  latest := uncompacted_cleaned boundary.latest

theorem applyBoundary_front {request : ClaudeRequest} (found : compactionBoundary request.messages = some (0, 0)) :
    applyBoundary request = request := by
  unfold applyBoundary
  rw [found]
  have same : (request.messages.drop 0).modifyHead (dropBlocks 0) = request.messages := by
    cases request.messages with
    | nil => rfl
    | cons message rest => rw [List.drop_zero, List.modifyHead_cons, dropBlocks_zero]
  dsimp only
  rw [same]
  rfl

theorem normalize_twice (request : ClaudeRequest) :
    (normalizeCompactionBoundary (normalizeCompactionBoundary request).1).1 = (normalizeCompactionBoundary request).1 := by
  have again : applyBoundary (normalizeCompactionBoundary request).1 = (normalizeCompactionBoundary request).1 := by
    cases normalize_left request with
    | whole none left _ =>
      rw [left, applyBoundary, compactionBoundary_none (uncompacted_cleaned none)]
    | bounded boundary left _ =>
      apply applyBoundary_front
      rw [left, cleaned_bounded boundary]
      exact boundary.cleaned.found
  have cleaned : ∃ messages, (normalizeCompactionBoundary request).1.messages = cleaned messages := by
    rw [normalize_messages]
    exact ⟨_, rfl⟩
  obtain ⟨messages, same⟩ := cleaned
  rw [normalize_messages (normalizeCompactionBoundary request).1, again, same, cleaned_cleaned, ← same]

theorem compaction_boundary_exact (request : ClaudeRequest) :
    Left request (normalizeCompactionBoundary request).1 ∧
      (normalizeCompactionBoundary (normalizeCompactionBoundary request).1).1 = (normalizeCompactionBoundary request).1 :=
  ⟨normalize_left request, normalize_twice request⟩

end KiroProxy.Claude

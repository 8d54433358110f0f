import KiroProxy.Translate.ServerHistory
import KiroProxy.Translate.ToolNameTrip
import KiroProxy.Lib.Lookup

/-! Three readers of the past calls of the proxy's own tools, which agree on what is still open: validation, the resumption
of a turn, and the translator. -/
namespace KiroProxy.Claude

def allBlocks (request : ClaudeRequest) : List Value := request.messages.flatMap (·.content.blocks)

def useId (block : Value) : Option String :=
  if block.kind = some "tool_use" ∨ block.kind = some "server_tool_use" then block.getStr "id" else none

/-! ### What validation leaves -/

section Accepted

theorem blocks_placed (message : ClaudeMessage) (index : Nat) :
    (message.content.blocks.zipIdx.map fun (block, blockIndex) =>
      ("messages." ++ toString index ++ ".content." ++ toString blockIndex, block)).map (·.2) =
      message.content.blocks := by
  rw [List.map_map]
  exact List.zipIdx_map_fst 0 message.content.blocks

theorem places_blocks (request : ClaudeRequest) : (places request).map (·.2) = allBlocks request := by
  have messages := congrArg (List.flatMap fun message => message.content.blocks) (List.zipIdx_map_fst 0 request.messages)
  rw [List.flatMap_map] at messages
  unfold places allBlocks
  rw [List.map_flatMap]
  simp only [blocks_placed]
  exact messages

theorem defineToolUse_cases {place : String × Value} {defined next : DefinedToolUses}
    (defines : defineToolUse defined place = .ok next) :
    useId place.2 = none ∧ next.allToolUses = defined.allToolUses ∨
      ∃ id, useId place.2 = some id ∧ id ∉ defined.allToolUses.map (·.1) ∧
        next.allToolUses = (id, place.1) :: defined.allToolUses := by
  unfold defineToolUse at defines
  dsimp only at defines
  split at defines
  case isTrue neither =>
    cases defines
    exact .inl ⟨if_neg (not_or.2 neither), rfl⟩
  case isFalse either =>
    have call : useId place.2 = place.2.getStr "id" := if_pos (by simpa [not_and_or, imp_iff_not_or] using either)
    split at defines
    case h_1 unnamed =>
      cases defines
      exact .inl ⟨call.trans unnamed, rfl⟩
    case h_2 id named =>
      split at defines
      · cases defines
      case h_2 fresh =>
        refine .inr ⟨id, call.trans named, ?_, ?_⟩
        · intro known
          obtain ⟨entry, member, same⟩ := List.mem_map.1 known
          exact (by simpa using List.lookup_eq_none_iff.1 fresh entry member : ¬ id = entry.1) same.symm
        · split at defines
          · split at defines
            · cases defines
            · cases defines
              rfl
          · cases defines
            rfl

theorem defineToolUse_ids {places : List (String × Value)} {defined next : DefinedToolUses}
    (defines : places.foldlM defineToolUse defined = .ok next) :
    (places.filterMap fun place => useId place.2).Nodup ∧
      ∀ id ∈ places.filterMap fun place => useId place.2, id ∉ defined.allToolUses.map (·.1) := by
  induction places generalizing defined with
  | nil => simp
  | cons place rest ih =>
    rw [List.foldlM_cons] at defines
    obtain ⟨middle, first, later⟩ := Bytes.bind_ok.1 defines
    obtain ⟨distinct, apart⟩ := ih later
    rcases defineToolUse_cases first with ⟨none, same⟩ | ⟨id, some, fresh, grown⟩
    · rw [List.filterMap_cons_none (by exact none)]
      rw [same] at apart
      exact ⟨distinct, apart⟩
    · rw [List.filterMap_cons_some (by exact some)]
      rw [grown] at apart
      refine ⟨List.nodup_cons.2 ⟨fun again => apart id again List.mem_cons_self, distinct⟩, ?_⟩
      intro other member
      rcases List.mem_cons.1 member with rfl | inside
      · exact fresh
      · exact fun known => apart other inside (List.mem_cons_of_mem _ known)

theorem distinct_of_history {request : ClaudeRequest} (accepted : validateServerToolHistory request = .ok ()) :
    ((allBlocks request).filterMap useId).Nodup := by
  obtain ⟨defined, defines, -⟩ := Bytes.bind_ok.1 accepted
  have distinct := (defineToolUse_ids defines).1
  rwa [← places_blocks, List.filterMap_map]

structure CallSound (role : String) (block : Value) : Prop where
  assistant : role = "assistant"
  id : ∃ id, block.getStr "id" = some id ∧ id ≠ ""
  name : ∃ name, block.getStr "name" = some name

def IsCall (block : Value) : Prop := block.kind = some "tool_use" ∨ block.kind = some "server_tool_use"

theorem getStr_of_emptyStr {block : Value} {name : String} (given : ¬ emptyStr block name = true) :
    ∃ text, block.getStr name = some text ∧ text ≠ "" := by
  cases held : block.getStr name with
  | none => simp [emptyStr, held] at given
  | some text => exact ⟨text, rfl, by simpa [emptyStr, held] using given⟩

theorem toolUse_sound {block : Value} {field : String} (accepted : validateToolUse block field = .ok ()) :
    CallSound "assistant" block := by
  unfold validateToolUse at accepted
  split at accepted
  · cases accepted
  case isFalse id =>
    split at accepted
    · cases accepted
    case isFalse name =>
      obtain ⟨text, named, -⟩ := getStr_of_emptyStr name
      exact ⟨rfl, getStr_of_emptyStr id, text, named⟩

variable {crates : Crates} {others : OtherChecks}

theorem call_checked {nested : String → Value → Except ValidationError Unit} {checks : OtherChecks} {role field : String}
    {block : Value} (call : IsCall block) (accepted : validateBlockWith crates checks (some nested) role field block = .ok ()) :
    role = "assistant" ∧ checks.assistantBlock block field = .ok () := by
  unfold validateBlockWith at accepted
  split at accepted
  case h_5 kind _ _ _ held =>
    have listed : kind = "tool_use" ∨ kind = "server_tool_use" := by simpa [IsCall, held] using call
    have own : assistantKinds.contains kind = true := by rcases listed with rfl | rfl <;> decide
    have unlike : kind ≠ "search_result" ∧ kind ≠ "tool_result" := by rcases listed with rfl | rfl <;> decide
    dsimp only at accepted
    rw [if_neg unlike.1, if_neg unlike.2, if_pos own] at accepted
    split at accepted
    case isTrue =>
      rcases listed with rfl | rfl <;> cases accepted
    case isFalse assistant => exact ⟨not_not.1 assistant, accepted⟩
  all_goals
    rename_i kind
    simp [IsCall, kind] at call

theorem call_sound {role field : String} {block : Value} (call : IsCall block)
    (accepted : validateClaudeBlock crates others.withServerTools role field block = .ok ()) : CallSound role block := by
  obtain ⟨rfl, checked⟩ := call_checked call accepted
  have tool_use : validateAssistantBlock block field = validateToolUse block field := by
    rcases call with kind | kind
    · simp only [validateAssistantBlock, kind]
    · simp only [validateAssistantBlock, kind]
  exact toolUse_sound (tool_use.symm.trans checked)

def TextOrBlocks (content : Value) : Prop := (∃ text, content = .string text) ∨ ∃ items, content = .array items

theorem content_calls {content : Value} {role field : String}
    (accepted : validateClaudeContent crates others.withServerTools content role field = .ok ()) :
    TextOrBlocks content ∧ ∀ block ∈ content.blocks, IsCall block → CallSound role block := by
  unfold validateClaudeContent at accepted
  split at accepted
  case h_1 text => exact ⟨.inl ⟨text, rfl⟩, fun block inside => absurd inside List.not_mem_nil⟩
  case h_2 items =>
    obtain ⟨_, each, _⟩ := Bytes.bind_ok.1 accepted
    refine ⟨.inr ⟨items, rfl⟩, fun block inside call => ?_⟩
    obtain ⟨place, passed⟩ := validateEach_ok each block inside
    exact call_sound call passed
  case h_3 => cases accepted

structure CallsSound (request : ClaudeRequest) : Prop where
  shape : ∀ message ∈ request.messages, TextOrBlocks message.content
  calls : ∀ message ∈ request.messages, ∀ block ∈ message.content.blocks, IsCall block → CallSound message.role block
  history : validateServerToolHistory request = .ok ()

theorem CallsSound.distinct {request : ClaudeRequest} (sound : CallsSound request) :
    ((allBlocks request).filterMap useId).Nodup := distinct_of_history sound.history

theorem calls_sound {request : ClaudeRequest} (accepted : validateClaude crates others.withServerTools request = .ok ()) :
    CallsSound request := by
  obtain ⟨_, _, checked⟩ := Bytes.bind_ok.1 accepted
  obtain ⟨_, passed, counted⟩ := Bytes.bind_ok.1 checked
  have content (message : ClaudeMessage) (member : message ∈ request.messages) := (messages_checked passed message member).1
  refine ⟨?_, ?_, ?_⟩
  · intro message member
    obtain ⟨field, held⟩ := content message member
    exact (content_calls held).1
  · intro message member
    obtain ⟨field, held⟩ := content message member
    exact (content_calls held).2
  · dsimp only at counted
    split at counted
    · cases counted
    · split at counted
      · cases counted
      · obtain ⟨_, history, _⟩ := Bytes.bind_ok.1 counted
        exact history

end Accepted

/-! ### The calls that the turns show -/

section Turns

variable (shows : Value → Bool)

def shownBlocks (message : ClaudeMessage) : List Value :=
  if message.role = "assistant" then (contentAsBlocks message.content).filter shows else []

variable {shows}

theorem mergeMessage_shown (acc : List ClaudeMessage) (message : ClaudeMessage) :
    (mergeMessage acc message).reverse.flatMap (shownBlocks shows) =
      acc.reverse.flatMap (shownBlocks shows) ++ shownBlocks shows message := by
  cases acc with
  | nil => simp [mergeMessage]
  | cons previous earlier =>
    simp only [mergeMessage]
    split
    case isTrue same =>
      have joined (mark : Option Value) : shownBlocks shows { previous with
          content := .array (contentAsBlocks previous.content ++ contentAsBlocks message.content)
          cacheControl := mark } = shownBlocks shows previous ++ shownBlocks shows message := by
        unfold shownBlocks
        rw [← same]
        dsimp only
        split
        · exact List.filter_append ..
        · rfl
      rw [List.reverse_cons, List.reverse_cons, List.flatMap_append, List.flatMap_append, List.append_assoc,
        List.flatMap_singleton, List.flatMap_singleton, joined]
    case isFalse => simp

theorem mergeMessages_shown (messages acc : List ClaudeMessage) :
    (messages.foldl mergeMessage acc).reverse.flatMap (shownBlocks shows) =
      acc.reverse.flatMap (shownBlocks shows) ++ messages.flatMap (shownBlocks shows) := by
  induction messages generalizing acc with
  | nil => simp
  | cons message rest ih => rw [List.foldl_cons, ih, mergeMessage_shown, List.flatMap_cons, List.append_assoc]

theorem separate_shown (messages : List ClaudeMessage) :
    (separateCompactionInstruction messages).flatMap (shownBlocks shows) = messages.flatMap (shownBlocks shows) := by
  have split_shown (last : ClaudeMessage) :
      (splitInstruction last).flatMap (shownBlocks shows) = shownBlocks shows last := by
    unfold splitInstruction
    split
    case h_1 block user _ =>
      have silent (message : ClaudeMessage) (role : message.role = last.role) : shownBlocks shows message = [] := by
        rw [shownBlocks, role, user]
        rfl
      dsimp only
      split
      · simp [silent]
      · simp
    case h_2 => simp
  unfold separateCompactionInstruction
  split
  case h_1 last ends =>
    obtain ⟨front, rfl⟩ := List.getLast?_eq_some_iff.1 ends
    rw [List.dropLast_concat, List.flatMap_append, List.flatMap_append, split_shown]
    simp
  case h_2 => rfl

theorem conversation_shown (options : TranslationOptions) (request : ClaudeRequest) :
    (conversation options request).flatMap (shownBlocks shows) = request.messages.flatMap (shownBlocks shows) := by
  have plain : (request.messages.filter (·.role ≠ "system")).flatMap (shownBlocks shows) =
      request.messages.flatMap (shownBlocks shows) := by
    induction request.messages with
    | nil => rfl
    | cons message rest ih =>
      by_cases system : message.role = "system"
      · have silent : shownBlocks shows message = [] := if_neg (by rw [system]; decide)
        rw [List.filter_cons_of_neg (by simpa using system), ih, List.flatMap_cons, silent, List.nil_append]
      · rw [List.filter_cons_of_pos (by simpa using system), List.flatMap_cons, ih, List.flatMap_cons]
  have normal : (normalizedNonSystemMessages request.messages).flatMap (shownBlocks shows) =
      request.messages.flatMap (shownBlocks shows) := by
    rw [normalizedNonSystemMessages, mergeMessages_shown, plain]
    rfl
  unfold conversation
  dsimp only
  split
  · rw [separate_shown, normal]
  · exact normal

theorem mergeMessages_shaped {messages acc : List ClaudeMessage} (before : ∀ message ∈ acc, TextOrBlocks message.content)
    (shaped : ∀ message ∈ messages, TextOrBlocks message.content) :
    ∀ message ∈ messages.foldl mergeMessage acc, TextOrBlocks message.content := by
  induction messages generalizing acc with
  | nil => exact before
  | cons message rest ih =>
    refine ih ?_ fun other member => shaped other (List.mem_cons_of_mem message member)
    have own := shaped message List.mem_cons_self
    cases acc with
    | nil => simpa [mergeMessage] using own
    | cons previous earlier =>
      simp only [mergeMessage]
      split
      case isTrue => exact List.forall_mem_cons.2 ⟨.inr ⟨_, rfl⟩, (List.forall_mem_cons.1 before).2⟩
      case isFalse => exact List.forall_mem_cons.2 ⟨own, before⟩

theorem splitInstruction_shaped {last : ClaudeMessage} (shaped : TextOrBlocks last.content) :
    ∀ message ∈ splitInstruction last, TextOrBlocks message.content := by
  have alone : ∀ message ∈ [last], TextOrBlocks message.content := by simpa using shaped
  unfold splitInstruction
  split
  case h_1 block user _ =>
    dsimp only
    split
    case isTrue => exact List.forall_mem_cons.2 ⟨.inr ⟨_, rfl⟩, List.forall_mem_singleton.2 (.inr ⟨_, rfl⟩)⟩
    case isFalse => exact alone
  case h_2 => exact alone

theorem conversation_shaped (options : TranslationOptions) {request : ClaudeRequest}
    (shaped : ∀ message ∈ request.messages, TextOrBlocks message.content) :
    ∀ message ∈ conversation options request, TextOrBlocks message.content := by
  have normal : ∀ message ∈ normalizedNonSystemMessages request.messages, TextOrBlocks message.content := by
    intro message member
    have none : ∀ message ∈ ([] : List ClaudeMessage), TextOrBlocks message.content := by simp
    exact mergeMessages_shaped none (fun other member => shaped other (List.mem_of_mem_filter member))
      message (List.mem_reverse.1 member)
  unfold conversation
  dsimp only
  split
  case isTrue =>
    unfold separateCompactionInstruction
    split
    case h_1 last ends =>
      obtain ⟨front, whole⟩ := List.getLast?_eq_some_iff.1 ends
      rw [whole] at normal ⊢
      rw [List.dropLast_concat]
      intro message member
      obtain inside | inside := List.mem_append.1 member
      · exact normal message (List.mem_append_left _ inside)
      · exact splitInstruction_shaped (normal last (by simp)) message inside
    case h_2 => exact normal
  case isFalse => exact normal

theorem shown_of_shaped {message : ClaudeMessage} (shaped : TextOrBlocks message.content) (completed : List String) :
    (contentAsBlocks message.content).filter (isPendingUse completed) =
      message.content.blocks.filter (isPendingUse completed) := by
  obtain ⟨text, held⟩ | ⟨items, held⟩ := shaped
  · rw [held]
    rfl
  · rw [held]
    rfl

theorem turns_calls (options : TranslationOptions) {request : ClaudeRequest} (sound : CallsSound request)
    (completed : List String) :
    ((conversation options request).filter (·.role = "assistant")).flatMap
        (fun message => message.content.blocks.filter (isPendingUse completed)) =
      (allBlocks request).filter (isPendingUse completed) := by
  have turns (messages : List ClaudeMessage) (shaped : ∀ message ∈ messages, TextOrBlocks message.content) :
      (messages.filter (·.role = "assistant")).flatMap (fun message => message.content.blocks.filter (isPendingUse completed)) =
        messages.flatMap (shownBlocks (isPendingUse completed)) := by
    induction messages with
    | nil => rfl
    | cons message rest ih =>
      obtain ⟨own, later⟩ := List.forall_mem_cons.1 shaped
      rw [List.flatMap_cons, ← ih later, shownBlocks, shown_of_shaped own]
      by_cases role : message.role = "assistant"
      · rw [List.filter_cons_of_pos (by simpa using role), List.flatMap_cons, if_pos role]
      · rw [List.filter_cons_of_neg (by simpa using role), if_neg role, List.nil_append]
  rw [turns _ (conversation_shaped options sound.shape), conversation_shown, allBlocks, List.filter_flatMap]
  refine List.flatMap_congr fun message member => ?_
  rw [shownBlocks, shown_of_shaped (sound.shape message member)]
  split
  case isTrue => rfl
  case isFalse role =>
    symm
    rw [List.filter_eq_nil_iff]
    intro block inside shown
    have call : IsCall block := by
      unfold isPendingUse at shown
      split at shown
      case h_1 kind => exact .inl kind
      case h_2 kind => exact .inr kind
      case h_3 => cases shown
    exact role (sound.calls message member block inside call).assistant

end Turns

/-! ### The same replay twice -/

section Replay

variable (crates : Crates) (registry : ToolNameRegistry) (official : OfficialWebTools)

def serverUses (blocks : List Value) : List KiroToolUse :=
  (blocks.filter (·.kind = some "server_tool_use")).filterMap (historyUse crates registry official)

def blanked (completed : List String) (toolUse : KiroToolUse) : KiroToolUse :=
  if toolUse.toolUseId ∈ completed then { toolUse with toolUseId := "" } else toolUse

structure Replayed (uses : List KiroToolUse) (ids : List String × List String) (s : PendingServerTools) : Prop where
  pending : s.pending = uses.map (blanked ids.2)
  positions : ∀ id index, s.positions.lookup id = some index ↔ uses[index]?.map (·.toolUseId) = some id ∧ id ∉ ids.2
  waiting : ∀ id, id ∈ ids.1 ↔ id ∈ uses.map (·.toolUseId) ∧ id ∉ ids.2
  used : ∀ id ∈ ids.2, id ∈ uses.map (·.toolUseId)

variable {crates registry official} {uses : List KiroToolUse} {ids : List String × List String} {s : PendingServerTools}

theorem place_concat {α β : Type} (f : α → β) (items : List α) (item : α) (index : Nat) (value : β) :
    (items ++ [item])[index]?.map f = some value ↔
      items[index]?.map f = some value ∨ index = items.length ∧ f item = value := by
  rcases Nat.lt_trichotomy index items.length with before | rfl | behind
  · rw [List.getElem?_append_left before]
    simp [Nat.ne_of_lt before]
  · simp
  · rw [List.getElem?_eq_none (by rw [List.length_append]; exact behind), List.getElem?_eq_none (Nat.le_of_lt behind)]
    simp [Nat.ne_of_gt behind]

theorem Replayed.empty : Replayed [] ([], []) {} := ⟨rfl, by simp, by simp, by simp⟩

theorem Replayed.call (at_call : Replayed uses ids s) {toolUse : KiroToolUse}
    (fresh : toolUse.toolUseId ∉ uses.map (·.toolUseId)) :
    Replayed (uses ++ [toolUse]) (toolUse.toolUseId :: ids.1, ids.2) {
      pending := s.pending ++ [toolUse]
      positions := (toolUse.toolUseId, s.pending.length) :: s.positions } := by
  have open_call : toolUse.toolUseId ∉ ids.2 := fun closed => fresh (at_call.used _ closed)
  refine ⟨?_, ?_, ?_, ?_⟩
  · rw [List.map_append, at_call.pending, List.map_singleton, blanked, if_neg open_call]
  · intro id index
    have length : s.pending.length = uses.length := by rw [at_call.pending, List.length_map]
    rw [lookup_cons_if, place_concat, length]
    by_cases same : id = toolUse.toolUseId
    · subst same
      rw [if_pos rfl, Option.some.injEq]
      constructor
      · rintro rfl
        exact ⟨.inr ⟨rfl, rfl⟩, open_call⟩
      · rintro ⟨earlier | ⟨last, -⟩, -⟩
        · obtain ⟨other, held, named⟩ := Option.map_eq_some_iff.1 earlier
          exact absurd (List.mem_map.2 ⟨other, List.mem_of_getElem? held, named⟩) fresh
        · exact last.symm
    · rw [if_neg same, at_call.positions]
      constructor
      · rintro ⟨earlier, opened⟩
        exact ⟨.inl earlier, opened⟩
      · rintro ⟨earlier | ⟨-, named⟩, opened⟩
        · exact ⟨earlier, opened⟩
        · exact absurd named.symm same
  · intro id
    have old := at_call.waiting id
    simp only [List.mem_cons, List.map_append, List.map_cons, List.map_nil, List.mem_append, List.not_mem_nil, or_false, old]
    constructor
    · rintro (rfl | ⟨known, opened⟩)
      · exact ⟨.inr rfl, open_call⟩
      · exact ⟨.inl known, opened⟩
    · rintro ⟨known | rfl, opened⟩
      · exact .inr ⟨known, opened⟩
      · exact .inl rfl
  · intro id closed
    rw [List.map_append]
    exact List.mem_append_left _ (at_call.used id closed)

theorem blanked_cons {id : String} {completed : List String} {toolUse : KiroToolUse} (other : toolUse.toolUseId ≠ id) :
    blanked (id :: completed) toolUse = blanked completed toolUse := by
  simp [blanked, other]

theorem Replayed.result (at_result : Replayed uses ids s) (distinct : (uses.map (·.toolUseId)).Nodup) {id : String}
    {index : Nat} (position : s.positions.lookup id = some index) :
    Replayed uses (ids.1.filter (· ≠ id), id :: ids.2) {
      pending := s.pending.modify index fun toolUse => { toolUse with toolUseId := "" }
      positions := s.positions.filter (·.1 ≠ id) } := by
  obtain ⟨placed, opened⟩ := (at_result.positions id index).1 position
  obtain ⟨toolUse, held, rfl⟩ := Option.map_eq_some_iff.1 placed
  refine ⟨?_, ?_, ?_, ?_⟩
  · rw [at_result.pending]
    refine List.ext_getElem? fun other => ?_
    rw [List.getElem?_modify, List.getElem?_map, List.getElem?_map]
    by_cases same : index = other
    · subst same
      rw [held]
      simp [blanked, opened]
    · cases found : uses[other]? with
      | none => simp [same]
      | some second =>
        have apart : second.toolUseId ≠ toolUse.toolUseId := by
          intro equal
          have short := (List.getElem?_eq_some_iff.1 held).1
          refine same ((List.getElem?_inj (by simpa using short) distinct).1 ?_)
          rw [List.getElem?_map, List.getElem?_map, held, found, Option.map_some, Option.map_some, equal]
        simp [same, blanked_cons apart]
  · intro other place
    rw [lookup_filter (fun key => decide (key ≠ toolUse.toolUseId)), List.mem_cons, not_or]
    by_cases same : other = toolUse.toolUseId
    · simp [same]
    · rw [if_pos (by simpa using same), at_result.positions]
      tauto
  · intro other
    have old := at_result.waiting other
    simp only [List.mem_filter, decide_eq_true_eq, List.mem_cons, not_or, old]
    tauto
  · intro other closed
    rcases List.mem_cons.1 closed with rfl | earlier
    · exact List.mem_map.2 ⟨toolUse, List.mem_of_getElem? held, rfl⟩
    · exact at_result.used other earlier

theorem serverUses_concat (done : List Value) (block : Value) : serverUses crates registry official (done ++ [block]) =
    serverUses crates registry official done ++
      (if block.kind = some "server_tool_use" then historyUse crates registry official block else none).toList := by
  rw [serverUses, List.filter_append, List.filterMap_append, ← serverUses]
  congr 1
  by_cases call : block.kind = some "server_tool_use"
  · rw [List.filter_cons_of_pos (by simpa using call), if_pos call, List.filter_nil, List.filterMap_cons]
    cases historyUse crates registry official block with
    | none => rfl
    | some toolUse => rfl
  · rw [List.filter_cons_of_neg (by simpa using call), if_neg call]
    rfl

def Named (block : Value) : Prop := block.kind = some "server_tool_use" →
  (∃ id, block.getStr "id" = some id ∧ id ≠ "") ∧ ∃ name, block.getStr "name" = some name

variable (crates registry official) in
theorem Named.use {block : Value} (named : Named block) (call : block.kind = some "server_tool_use") :
    ∃ toolUse, historyUse crates registry official block = some toolUse ∧
      block.getStr "id" = some toolUse.toolUseId ∧ toolUse.toolUseId ≠ "" := by
  obtain ⟨⟨id, held, given⟩, name, called⟩ := named call
  exact ⟨_, by rw [historyUse, held, called]; rfl, held, given⟩

theorem Replayed.waits (at_result : Replayed uses ids s) (id : String) :
    id ∈ ids.1 ↔ ∃ index, s.positions.lookup id = some index := by
  rw [at_result.waiting]
  constructor
  · rintro ⟨known, opened⟩
    obtain ⟨toolUse, member, named⟩ := List.mem_map.1 known
    obtain ⟨index, held⟩ := List.getElem?_of_mem member
    exact ⟨index, (at_result.positions id index).2 ⟨by rw [held, Option.map_some, named], opened⟩⟩
  · rintro ⟨index, position⟩
    obtain ⟨placed, opened⟩ := (at_result.positions id index).1 position
    obtain ⟨toolUse, held, named⟩ := Option.map_eq_some_iff.1 placed
    exact ⟨List.mem_map.2 ⟨toolUse, List.mem_of_getElem? held, named⟩, opened⟩

theorem completeServerTool_result (ids : List String × List String) {block : Value}
    (kind : block.kind = some "web_search_tool_result" ∨ block.kind = some "tool_search_tool_result") :
    completeServerTool ids block = match block.getStr "tool_use_id" with
      | some id => if ids.1.contains id then (ids.1.filter (· ≠ id), id :: ids.2) else ids
      | none => ids := by
  unfold completeServerTool
  rcases kind with kind | kind
  · rw [kind]
    rfl
  · rw [kind]
    rfl

variable (crates registry official s) in
theorem step_result {block : Value}
    (kind : block.kind = some "web_search_tool_result" ∨ block.kind = some "tool_search_tool_result") :
    PendingServerTools.step crates registry official s block =
      match (block.getStr "tool_use_id").bind fun id => (s.positions.lookup id).map (id, ·) with
      | none => s
      | some (id, index) => {
          pending := s.pending.modify index fun toolUse => { toolUse with toolUseId := "" }
          positions := s.positions.filter (·.1 ≠ id) } := by
  unfold PendingServerTools.step
  rcases kind with kind | kind
  · rw [kind]
    rfl
  · rw [kind]
    rfl

theorem Replayed.closes (at_result : Replayed uses ids s) (distinct : (uses.map (·.toolUseId)).Nodup) {block : Value}
    (kind : block.kind = some "web_search_tool_result" ∨ block.kind = some "tool_search_tool_result") :
    Replayed uses (completeServerTool ids block) (PendingServerTools.step crates registry official s block) := by
  rw [completeServerTool_result ids kind, step_result crates registry official s kind]
  cases block.getStr "tool_use_id" with
  | none => exact at_result
  | some id =>
    dsimp only [Option.bind_some]
    cases position : s.positions.lookup id with
    | none =>
      have unknown : id ∉ ids.1 := fun waiting => by
        obtain ⟨index, placed⟩ := (at_result.waits id).1 waiting
        rw [position] at placed
        cases placed
      rw [if_neg (by simpa using unknown)]
      exact at_result
    | some index =>
      rw [if_pos (List.contains_iff_mem.2 ((at_result.waits id).2 ⟨index, position⟩))]
      exact at_result.result distinct position

theorem Replayed.step {done : List Value} {block : Value}
    (before : Replayed (serverUses crates registry official done) ids s) (named : Named block)
    (distinct : ((serverUses crates registry official (done ++ [block])).map (·.toolUseId)).Nodup) :
    Replayed (serverUses crates registry official (done ++ [block])) (completeServerTool ids block)
      (PendingServerTools.step crates registry official s block) := by
  rw [serverUses_concat] at distinct ⊢
  by_cases call : block.kind = some "server_tool_use"
  · obtain ⟨toolUse, sent, held, -⟩ := named.use crates registry official call
    rw [if_pos call, sent] at distinct ⊢
    simp only [completeServerTool, PendingServerTools.step, call, held, sent]
    refine before.call fun known => ?_
    rw [List.map_append] at distinct
    exact (List.nodup_append.1 distinct).2.2 _ known _ List.mem_cons_self rfl
  · rw [if_neg call, Option.toList_none, List.append_nil] at distinct ⊢
    by_cases result : block.kind = some "web_search_tool_result" ∨ block.kind = some "tool_search_tool_result"
    · exact before.closes distinct result
    · rw [not_or] at result
      have silent : completeServerTool ids block = ids ∧ PendingServerTools.step crates registry official s block = s := by
        unfold completeServerTool PendingServerTools.step
        simp [result]
      rw [silent.1, silent.2]
      exact before

theorem Replayed.run {done rest : List Value} (before : Replayed (serverUses crates registry official done) ids s)
    (named : ∀ block ∈ rest, Named block)
    (distinct : ((serverUses crates registry official (done ++ rest)).map (·.toolUseId)).Nodup) :
    Replayed (serverUses crates registry official (done ++ rest)) (rest.foldl completeServerTool ids)
      (rest.foldl (PendingServerTools.step crates registry official) s) := by
  induction rest generalizing done ids s with
  | nil => rwa [List.append_nil]
  | cons block rest ih =>
    obtain ⟨own, later⟩ := List.forall_mem_cons.1 named
    rw [List.append_cons] at distinct ⊢
    have so_far : (serverUses crates registry official (done ++ [block])).Sublist
        (serverUses crates registry official (done ++ [block] ++ rest)) :=
      ((List.sublist_append_left _ rest).filter _).filterMap _
    exact ih (before.step own (distinct.sublist (so_far.map _))) later distinct

end Replay

/-! ### What the readers have in common -/

section Agreement

variable {crates : Crates} {registry : ToolNameRegistry} {official : OfficialWebTools}

theorem isCall_of_pending {completed : List String} {block : Value} (shown : isPendingUse completed block = true) :
    IsCall block := by
  unfold isPendingUse at shown
  split at shown
  case h_1 kind => exact .inl kind
  case h_2 kind => exact .inr kind
  case h_3 => cases shown

theorem historyUse_id {block : Value} {toolUse : KiroToolUse} (sent : historyUse crates registry official block = some toolUse) :
    block.getStr "id" = some toolUse.toolUseId := by
  simp only [historyUse, Option.bind_eq_bind, Option.bind_eq_some_iff, Option.pure_def, Option.some.injEq] at sent
  obtain ⟨id, held, name, -, rfl⟩ := sent
  exact held

theorem ids_sublist (picks : Value → Bool) (only : ∀ block, picks block = true → IsCall block) (blocks : List Value) :
    (((blocks.filter picks).filterMap (historyUse crates registry official)).map (·.toolUseId)).Sublist
      (blocks.filterMap useId) := by
  induction blocks with
  | nil => exact List.Sublist.slnil
  | cons block rest ih =>
    by_cases picked : picks block = true
    · have own : useId block = block.getStr "id" := if_pos (only block picked)
      rw [List.filter_cons_of_pos picked]
      cases sent : historyUse crates registry official block with
      | none =>
        rw [List.filterMap_cons_none sent]
        exact ih.trans ((List.sublist_cons_self block rest).filterMap _)
      | some toolUse =>
        rw [List.filterMap_cons_some sent, List.filterMap_cons_some (own.trans (historyUse_id sent)), List.map_cons]
        exact ih.cons_cons _
    · rw [List.filter_cons_of_neg picked]
      exact ih.trans ((List.sublist_cons_self block rest).filterMap _)

theorem eq_of_useId {blocks : List Value} (distinct : (blocks.filterMap useId).Nodup) {first second : Value} {id : String}
    (first_inside : first ∈ blocks) (second_inside : second ∈ blocks) (first_id : useId first = some id)
    (second_id : useId second = some id) : first = second := by
  induction blocks with
  | nil => cases first_inside
  | cons block rest ih =>
    cases own : useId block with
    | none =>
      rw [List.filterMap_cons_none own] at distinct
      have not_here {other : Value} (inside : other ∈ block :: rest) (named : useId other = some id) : other ∈ rest := by
        rcases List.mem_cons.1 inside with rfl | later
        · rw [own] at named
          cases named
        · exact later
      exact ih distinct (not_here first_inside first_id) (not_here second_inside second_id)
    | some here =>
      rw [List.filterMap_cons_some own, List.nodup_cons] at distinct
      have apart {other : Value} (later : other ∈ rest) (named : useId other = some here) : False :=
        distinct.1 (List.mem_filterMap.2 ⟨other, later, named⟩)
      rcases List.mem_cons.1 first_inside with rfl | first_later
      · rcases List.mem_cons.1 second_inside with rfl | second_later
        · rfl
        · exact (apart second_later (second_id.trans (first_id.symm.trans own))).elim
      · rcases List.mem_cons.1 second_inside with rfl | second_later
        · exact (apart first_later (first_id.trans (second_id.symm.trans own))).elim
        · exact ih distinct.2 first_later second_later

theorem filter_own {α β : Type} [DecidableEq β] {f : α → β} {items : List α} (distinct : (items.map f).Nodup) {item : α}
    (inside : item ∈ items) : items.filter (fun other => f other = f item) = [item] := by
  obtain ⟨front, back, rfl⟩ := List.append_of_mem inside
  rw [List.map_append, List.map_cons, List.nodup_append, List.nodup_cons] at distinct
  obtain ⟨-, ⟨not_behind, -⟩, apart⟩ := distinct
  have before : front.filter (fun other => f other = f item) = [] := by
    rw [List.filter_eq_nil_iff]
    intro other member
    simpa using apart _ (List.mem_map_of_mem member) _ List.mem_cons_self
  have behind : back.filter (fun other => f other = f item) = [] := by
    rw [List.filter_eq_nil_iff]
    intro other member
    simpa using fun same => not_behind (List.mem_map.2 ⟨other, member, same⟩)
  rw [List.filter_append, before, List.filter_cons_of_pos (by simp), behind, List.nil_append]

def openServerUses (request : ClaudeRequest) : List Value :=
  (allBlocks request).filter fun block =>
    block.kind = some "server_tool_use" ∧ ∀ id ∈ block.getStr "id", id ∉ completedServerToolIds request

theorem open_uses (completed : List String) {blocks : List Value} (named : ∀ block ∈ blocks, Named block) :
    (blocks.filter fun block => block.kind = some "server_tool_use" ∧ ∀ id ∈ block.getStr "id", id ∉ completed).map
        (historyUse crates registry official) =
      ((serverUses crates registry official blocks).filter (·.toolUseId ∉ completed)).map some := by
  induction blocks with
  | nil => rfl
  | cons block rest ih =>
    obtain ⟨own, later⟩ := List.forall_mem_cons.1 named
    by_cases call : block.kind = some "server_tool_use"
    · obtain ⟨toolUse, sent, held, -⟩ := own.use crates registry official call
      have one_more : serverUses crates registry official (block :: rest) =
          toolUse :: serverUses crates registry official rest := by
        rw [serverUses, List.filter_cons_of_pos (by simpa using call), List.filterMap_cons_some sent, serverUses]
      rw [one_more]
      by_cases closed : toolUse.toolUseId ∈ completed
      · rw [List.filter_cons_of_neg (by simpa [held] using fun _ => closed), ih later,
          List.filter_cons_of_neg (by simpa using closed)]
      · rw [List.filter_cons_of_pos (by simpa [held, call] using closed), List.map_cons, ih later, sent,
          List.filter_cons_of_pos (by simpa using closed), List.map_cons]
    · have none_more : serverUses crates registry official (block :: rest) = serverUses crates registry official rest := by
        rw [serverUses, List.filter_cons_of_neg (by simpa using call), serverUses]
      rw [none_more, List.filter_cons_of_neg (by simp [call]), ih later]

theorem blanked_filter (completed : List String) {uses : List KiroToolUse} (given : ∀ toolUse ∈ uses, toolUse.toolUseId ≠ "") :
    (uses.map (blanked completed)).filter (·.toolUseId ≠ "") = uses.filter (·.toolUseId ∉ completed) := by
  induction uses with
  | nil => rfl
  | cons toolUse rest ih =>
    obtain ⟨own, later⟩ := List.forall_mem_cons.1 given
    rw [List.map_cons, blanked]
    by_cases closed : toolUse.toolUseId ∈ completed
    · rw [if_pos closed, List.filter_cons_of_neg (by simp), ih later, List.filter_cons_of_neg (by simpa using closed)]
    · rw [if_neg closed, List.filter_cons_of_pos (by simpa using own), ih later,
        List.filter_cons_of_pos (by simpa using closed)]

theorem CallsSound.named {request : ClaudeRequest} (sound : CallsSound request) :
    ∀ block ∈ allBlocks request, Named block := by
  intro block inside call
  obtain ⟨message, member, within⟩ := List.mem_flatMap.1 inside
  have own := sound.calls message member block within (.inr call)
  exact ⟨own.id, own.name⟩

theorem mem_serverUses {blocks : List Value} {toolUse : KiroToolUse}
    (listed : toolUse ∈ serverUses crates registry official blocks) :
    ∃ block ∈ blocks, block.kind = some "server_tool_use" ∧ historyUse crates registry official block = some toolUse := by
  obtain ⟨block, inside, sent⟩ := List.mem_filterMap.1 listed
  obtain ⟨member, call⟩ := List.mem_filter.1 inside
  exact ⟨block, member, of_decide_eq_true call, sent⟩

variable (crates registry official) in
theorem replay_ends {request : ClaudeRequest} (sound : CallsSound request) :
    Replayed (serverUses crates registry official (allBlocks request))
      ((allBlocks request).foldl completeServerTool ([], []))
      ((allBlocks request).foldl (PendingServerTools.step crates registry official) {}) := by
  have only (block : Value) (picked : decide (block.kind = some "server_tool_use") = true) : IsCall block :=
    .inr (of_decide_eq_true picked)
  have nothing : Replayed (serverUses crates registry official []) ([], []) {} := .empty
  exact nothing.run sound.named (sound.distinct.sublist (ids_sublist _ only _))

theorem pending_ends {request : ClaudeRequest} (sound : CallsSound request)
    (registered : ToolNameRegistry.new crates.sha256 (catalogue request) = some registry) :
    claudePendingServerToolUses crates request = some
      ((serverUses crates registry (officialWebTools request) (allBlocks request)).filter
        (·.toolUseId ∉ completedServerToolIds request)) := by
  have given : ∀ toolUse ∈ serverUses crates registry (officialWebTools request) (allBlocks request),
      toolUse.toolUseId ≠ "" := by
    intro toolUse listed
    obtain ⟨block, inside, call, sent⟩ := mem_serverUses listed
    obtain ⟨id, held, filled⟩ := (sound.named block inside call).1
    rw [historyUse_id sent, Option.some.injEq] at held
    rwa [held]
  rw [claudePendingServerToolUses, registered, Option.map_some]
  dsimp only
  rw [← allBlocks, (replay_ends crates registry (officialWebTools request) sound).pending, blanked_filter _ given]
  rfl

def historyUses (payload : KiroPayload) : List KiroToolUse := payload.conversationState.history.flatMap turnUses

theorem history_shows (options : TranslationOptions) (draws : Draws) {request : ClaudeRequest} (sound : CallsSound request)
    (registered : ToolNameRegistry.new crates.sha256 (catalogue request) = some registry) :
    ∃ payload, claudeToKiro crates options draws request = some payload ∧
      historyUses payload = ((allBlocks request).filter (isPendingUse (completedServerToolIds request))).filterMap
        (historyUse crates registry (officialWebTools request)) := by
  obtain ⟨payload, translated, -, shown⟩ := shown_uses options draws registered
  refine ⟨payload, translated, ?_⟩
  have current : (turns payload).flatMap turnUses = historyUses payload := by
    rw [turns, List.flatMap_append, historyUses]
    simp [turnUses, userTurn]
  rw [← current, shown, ← turns_calls options sound, List.filterMap_flatMap]

theorem shown_open {request : ClaudeRequest} (sound : CallsSound request) {toolUse : KiroToolUse}
    (shown : toolUse ∈ ((allBlocks request).filter (isPendingUse (completedServerToolIds request))).filterMap
      (historyUse crates registry official)) : toolUse.toolUseId ∉ completedServerToolIds request := by
  intro closed
  obtain ⟨block, picked, sent⟩ := List.mem_filterMap.1 shown
  obtain ⟨inside, is_open⟩ := List.mem_filter.1 picked
  have named := historyUse_id sent
  obtain ⟨other, listed, same⟩ := List.mem_map.1 ((replay_ends crates registry official sound).used _ closed)
  obtain ⟨second, second_inside, call, second_sent⟩ := mem_serverUses listed
  have second_named := historyUse_id second_sent
  rw [same] at second_named
  obtain rfl := eq_of_useId sound.distinct inside second_inside
    ((if_pos (isCall_of_pending is_open)).trans named) ((if_pos (.inr call)).trans second_named)
  simp [isPendingUse, call, named, closed] at is_open

/-! ### The replay of validation -/

def validatedHistory (request : ClaudeRequest) : Except ValidationError ServerToolHistory := do
  let defined ← (places request).foldlM defineToolUse {}
  (places request).foldlM (replayServerTool defined.serverToolUses) {}

def Defines (defined : DefinedToolUses) (block : Value) : Prop :=
  block.kind = some "server_tool_use" → ∀ id ∈ block.getStr "id", ∃ call, defined.serverToolUses.lookup id = some call

theorem defineToolUse_defines {defined next : DefinedToolUses} {place : String × Value}
    (defines : defineToolUse defined place = .ok next) :
    Defines next place.2 ∧ ∀ block, Defines defined block → Defines next block := by
  unfold defineToolUse at defines
  dsimp only at defines
  split at defines
  case isTrue neither =>
    cases defines
    exact ⟨fun call => absurd call neither.2, fun block known => known⟩
  case isFalse =>
    split at defines
    case h_1 unnamed =>
      cases defines
      refine ⟨fun _ id named => ?_, fun block known => known⟩
      rw [unnamed] at named
      cases named
    case h_2 id named =>
      split at defines
      · cases defines
      · split at defines
        case isTrue call =>
          split at defines
          · cases defines
          case h_2 kind _ =>
            cases defines
            constructor
            · intro _ other held
              obtain rfl := Option.some.inj (named.symm.trans held)
              exact ⟨_, by rw [lookup_cons_if, if_pos rfl]⟩
            · intro block known is_call other held
              by_cases same : other = id
              · exact ⟨_, by rw [lookup_cons_if, if_pos same]⟩
              · obtain ⟨found, listed⟩ := known is_call other held
                exact ⟨found, by rw [lookup_cons_if, if_neg same, listed]⟩
        case isFalse client =>
          cases defines
          exact ⟨fun call => absurd call client, fun block known => known⟩

theorem defined_all {places : List (String × Value)} {defined final : DefinedToolUses}
    (defines : places.foldlM defineToolUse defined = .ok final) :
    (∀ place ∈ places, Defines final place.2) ∧ ∀ block, Defines defined block → Defines final block := by
  induction places generalizing defined with
  | nil =>
    cases defines
    exact ⟨by simp, fun block known => known⟩
  | cons place rest ih =>
    rw [List.foldlM_cons] at defines
    obtain ⟨middle, first, later⟩ := Bytes.bind_ok.1 defines
    obtain ⟨own, kept⟩ := defineToolUse_defines first
    obtain ⟨others, all_kept⟩ := ih later
    exact ⟨List.forall_mem_cons.2 ⟨all_kept _ own, others⟩, fun block known => all_kept block (kept block known)⟩

structure Alike (history : ServerToolHistory) (ids : List String × List String) : Prop where
  pending : history.pending.map (·.1) = ids.1
  completed : history.completed = ids.2

theorem Alike.step {defined : DefinedToolUses} {history next : ServerToolHistory} {ids : List String × List String}
    {place : String × Value} (alike : Alike history ids) (known : Defines defined place.2) (named : Named place.2)
    (replays : replayServerTool defined.serverToolUses history place = .ok next) :
    Alike next (completeServerTool ids place.2) := by
  obtain ⟨field, block⟩ := place
  unfold replayServerTool at replays
  dsimp only at replays known named
  split at replays
  case isTrue call =>
    obtain ⟨id, held, -⟩ := (named call).1
    obtain ⟨found, listed⟩ := known call id held
    rw [held, Option.bind_some, listed] at replays
    cases replays
    simp only [completeServerTool, call, held]
    exact ⟨by rw [List.map_cons, alike.pending], alike.completed⟩
  case isFalse other =>
    split at replays
    case h_1 no_result =>
      have silent : completeServerTool ids block = ids := by
        unfold resultKind at no_result
        unfold completeServerTool
        dsimp only
        split
        case h_1 call => exact absurd call other
        case h_2 kind => simp [kind] at no_result
        case h_3 kind => simp [kind] at no_result
        case h_4 => rfl
      split at replays
      · cases replays
      · cases replays
        rw [silent]
        exact alike
    case h_2 kind result =>
      have kind : block.kind = some "web_search_tool_result" ∨ block.kind = some "tool_search_tool_result" := by
        unfold resultKind at result
        split at result
        case h_1 kind => exact .inr kind
        case h_2 kind => exact .inl kind
        case h_3 => cases result
      rw [completeServerTool_result ids kind]
      split at replays
      case h_1 unnamed =>
        cases replays
        rw [unnamed]
        exact alike
      case h_2 id held =>
        rw [held]
        split at replays
        · cases replays
        · split at replays
          · cases replays
          case h_2 waiting =>
            split at replays
            · cases replays
            · cases replays
              have listed : id ∈ ids.1 := by
                rw [← alike.pending]
                exact List.mem_map.2 ⟨_, mem_of_lookup waiting, rfl⟩
              dsimp only
              rw [if_pos (List.contains_iff_mem.2 listed)]
              refine ⟨?_, by rw [alike.completed]⟩
              rw [← alike.pending, List.filter_map]
              rfl

theorem Alike.run {defined : DefinedToolUses} {places : List (String × Value)} {history final : ServerToolHistory}
    {ids : List String × List String} (alike : Alike history ids) (known : ∀ place ∈ places, Defines defined place.2)
    (named : ∀ place ∈ places, Named place.2)
    (replays : places.foldlM (replayServerTool defined.serverToolUses) history = .ok final) :
    Alike final ((places.map (·.2)).foldl completeServerTool ids) := by
  induction places generalizing history ids with
  | nil =>
    cases replays
    exact alike
  | cons place rest ih =>
    rw [List.foldlM_cons] at replays
    obtain ⟨middle, first, later⟩ := Bytes.bind_ok.1 replays
    obtain ⟨own, known⟩ := List.forall_mem_cons.1 known
    obtain ⟨own_named, named⟩ := List.forall_mem_cons.1 named
    exact ih (alike.step own own_named first) known named later

theorem validation_ends {request : ClaudeRequest} (sound : CallsSound request) :
    ∃ history, validatedHistory request = .ok history ∧
      Alike history ((allBlocks request).foldl completeServerTool ([], [])) := by
  obtain ⟨defined, defines, rest⟩ := Bytes.bind_ok.1 sound.history
  obtain ⟨history, replays, -⟩ := Bytes.bind_ok.1 rest
  have named : ∀ place ∈ places request, Named place.2 := by
    intro place member
    refine sound.named place.2 ?_
    rw [← places_blocks]
    exact List.mem_map_of_mem member
  refine ⟨history, ?_, ?_⟩
  · unfold validatedHistory
    rw [defines]
    exact replays
  · rw [← places_blocks]
    exact Alike.run ⟨rfl, rfl⟩ (defined_all defines).1 named replays

/-- Validation, resumption and translation agree on the open calls of the proxy's own tools: resumption takes up each
call without a result once, in order, and the history shows it once and no completed one. -/
theorem pending_views_agree (crates : Crates) (others : OtherChecks) (options : TranslationOptions) (draws : Draws)
    (request : ClaudeRequest) (enough : ToolNameRegistry.EnoughDigests crates.sha256 (catalogue request))
    (accepted : validateClaude crates others.withServerTools request = .ok ()) :
    ∃ history registry pending payload,
      validatedHistory request = .ok history ∧
      ToolNameRegistry.new crates.sha256 (catalogue request) = some registry ∧
      claudePendingServerToolUses crates request = some pending ∧
      claudeToKiro crates options draws request = some payload ∧
      history.completed = completedServerToolIds request ∧
      (∀ id, id ∈ history.pending.map (·.1) ↔ id ∈ pending.map (·.toolUseId)) ∧
      pending.map some = (openServerUses request).map (historyUse crates registry (officialWebTools request)) ∧
      (pending.map (·.toolUseId)).Nodup ∧
      (∀ toolUse ∈ pending, (historyUses payload).filter (·.toolUseId = toolUse.toolUseId) = [toolUse]) ∧
      ∀ toolUse ∈ historyUses payload, toolUse.toolUseId ∉ completedServerToolIds request := by
  have sound := calls_sound accepted
  obtain ⟨registry, registered, -⟩ := ToolNameRegistry.new_registers crates.sha256 (catalogue request) enough
  obtain ⟨payload, translated, shown⟩ := history_shows options draws sound registered
  obtain ⟨history, validated, alike⟩ := validation_ends sound
  have shown_ids : ((historyUses payload).map (·.toolUseId)).Nodup := by
    rw [shown]
    exact sound.distinct.sublist (ids_sublist _ (fun block => isCall_of_pending) _)
  have listed_ids : ((serverUses crates registry (officialWebTools request) (allBlocks request)).map (·.toolUseId)).Nodup :=
    sound.distinct.sublist (ids_sublist _ (fun block picked => .inr (of_decide_eq_true picked)) _)
  refine ⟨history, registry, _, payload, validated, registered, pending_ends sound registered, translated,
    alike.completed, ?_, ?_, ?_, ?_, ?_⟩
  · intro id
    rw [alike.pending, (replay_ends crates registry (officialWebTools request) sound).waiting]
    simp only [List.mem_map, List.mem_filter, decide_eq_true_eq]
    constructor
    · rintro ⟨⟨toolUse, member, rfl⟩, opened⟩
      exact ⟨toolUse, ⟨member, opened⟩, rfl⟩
    · rintro ⟨toolUse, ⟨member, opened⟩, rfl⟩
      exact ⟨⟨toolUse, member, rfl⟩, opened⟩
  · exact (open_uses _ sound.named).symm
  · exact listed_ids.sublist (List.filter_sublist.map _)
  · intro toolUse listed
    obtain ⟨member, opened⟩ := List.mem_filter.1 listed
    obtain ⟨block, inside, call, sent⟩ := mem_serverUses member
    refine filter_own shown_ids ?_
    rw [shown]
    refine List.mem_filterMap.2 ⟨block, List.mem_filter.2 ⟨inside, ?_⟩, sent⟩
    simpa [isPendingUse, call, historyUse_id sent] using opened
  · intro toolUse member
    rw [shown] at member
    exact shown_open sound member

def resumedRequest : ClaudeRequest :=
  { messages := [
      { role := "user", content := .string "Search." },
      { role := "assistant", content := .array [
        .object [("id", .string "srvtoolu_a"), ("input", .object []), ("name", .string "web_search"),
          ("type", .string "server_tool_use")],
        .object [("id", .string "srvtoolu_b"), ("input", .object []), ("name", .string "web_search"),
          ("type", .string "server_tool_use")],
        .object [("content", .array []), ("tool_use_id", .string "srvtoolu_b"),
          ("type", .string "web_search_tool_result")]] },
      { role := "user", content := .string "Continue." }]
    tools := [{ type := some "web_search_20250305", name := "web_search" }] }

theorem pending_views_agree_resumed :
    ∃ pending, claudePendingServerToolUses sampleCrates resumedRequest = some pending ∧
      pending.map (·.toolUseId) = ["srvtoolu_a"] := by
  obtain ⟨_, registry, pending, _, _, _, resumed, _, _, _, listed, _⟩ := pending_views_agree sampleCrates noOtherChecks
    { modelId := "claude-sonnet-4.5", origin := "AI_EDITOR" }
    { continuationId := "a", conversationId := "b", modelFields := none } resumedRequest
    (OpenAi.enough_of_one sampleCrates.sha256 "web_search") (by decide +kernel)
  refine ⟨pending, resumed, ?_⟩
  have single : openServerUses resumedRequest = [.object [("id", .string "srvtoolu_a"), ("input", .object []),
      ("name", .string "web_search"), ("type", .string "server_tool_use")]] := rfl
  rw [single] at listed
  obtain ⟨toolUse, rest, rfl, sent, none_more⟩ := List.map_eq_cons_iff.1 listed
  obtain rfl := List.map_eq_nil_iff.1 none_more
  rw [Option.some.inj sent]
  rfl

end Agreement

end KiroProxy.Claude

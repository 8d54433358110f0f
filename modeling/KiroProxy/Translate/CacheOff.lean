import KiroProxy.Translate.CacheHints
import KiroProxy.Translate.ToolNameTrip

/-! With prompt caching off, a request's cache hints should have no effect on its payload. -/
namespace KiroProxy

def KiroTool.cachePoint? : KiroTool → Option KiroCachePoint
  | .specification _ => none
  | .cachePoint mark => some mark

def turnCachePoints (turn : KiroHistoryMessage) : List KiroCachePoint :=
  (turn.userInputMessage.bind (·.cachePoint)).toList ++ (turn.assistantResponseMessage.bind (·.cachePoint)).toList

def cachePoints (payload : KiroPayload) : List KiroCachePoint :=
  payload.conversationState.currentMessage.userInputMessage.tools.filterMap KiroTool.cachePoint? ++
    (turns payload).flatMap turnCachePoints

theorem turnCachePoints_user (user : KiroUserInputMessage) : turnCachePoints (userTurn user) = user.cachePoint.toList := by
  simp [turnCachePoints, userTurn]

section Blocks

variable {α : Type}

theorem foldl_unhinted {f : α → Value → α} (same : ∀ state block, f state (unhintedBlock block) = f state block)
    (blocks : List Value) (start : α) : (blocks.map unhintedBlock).foldl f start = blocks.foldl f start := by
  rw [List.foldl_map]
  exact congrArg (fun g => blocks.foldl g start) (funext fun state => funext (same state))

theorem filter_unhinted {p : Value → Bool} {f : Value → Option α} (chosen : ∀ block, p (unhintedBlock block) = p block)
    (same : ∀ block, f (unhintedBlock block) = f block) (blocks : List Value) :
    ((blocks.map unhintedBlock).filter p).filterMap f = (blocks.filter p).filterMap f := by
  rw [List.filter_map, filterMap_unhinted same]
  exact congrArg (fun q => (blocks.filter q).filterMap f) (funext chosen)

end Blocks

/-! ### Messages requests -/

def ClaudeMessage.unhinted (message : ClaudeMessage) : ClaudeMessage :=
  { message with content := KiroProxy.unhinted message.content, cacheControl := none }

def ClaudeTool.unhinted (tool : ClaudeTool) : ClaudeTool := { tool with cacheControl := none }

/-- The request with every `cache_control` removed. -/
def ClaudeRequest.unhinted (request : ClaudeRequest) : ClaudeRequest :=
  { request with
    messages := request.messages.map ClaudeMessage.unhinted
    system := request.system.map KiroProxy.unhinted
    tools := request.tools.map ClaudeTool.unhinted
    cacheControl := none }

namespace Claude

section Messages

@[simp] theorem unhinted_role (message : ClaudeMessage) : message.unhinted.role = message.role := rfl

@[simp] theorem unhinted_content (message : ClaudeMessage) : message.unhinted.content = unhinted message.content := rfl

theorem contentAsBlocks_unhinted (content : Value) :
    contentAsBlocks (unhinted content) = (contentAsBlocks content).map unhintedBlock := by
  have text (text : String) : unhintedBlock (.object [("text", .string text), ("type", .string "text")]) =
      .object [("text", .string text), ("type", .string "text")] := by
    have own : (Value.object [("text", .string text), ("type", .string "text")]).kind = some "text" := rfl
    rw [unhintedBlock_plain]
    · simp [Value.withoutField]
    · rintro (kind | kind)
      · exact absurd (own.symm.trans kind) (by decide)
      · exact absurd (own.symm.trans kind) (by decide)
    · rintro ⟨kind, -⟩
      exact absurd (own.symm.trans kind) (by decide)
  cases content with
  | string value => simp [contentAsBlocks, text]
  | array items => simp [contentAsBlocks]
  | object fields =>
    obtain ⟨others, same⟩ := unhinted_object (rfl : (Value.object fields).isObject = true)
    have own : unhinted (.object fields) = unhintedBlock (.object fields) := by
      rw [unhinted]
      simp
    rw [same, contentAsBlocks, contentAsBlocks, List.map_singleton, ← own, same]
    · simp
    · simp
    · simp
    · simp
  | _ => simp [unhinted, unhintedBlock, Value.kind, Value.getStr, Value.get, Value.withoutField, contentAsBlocks]

theorem mergeMessage_unhinted (normalized : List ClaudeMessage) (message : ClaudeMessage) :
    mergeMessage (normalized.map ClaudeMessage.unhinted) message.unhinted =
      (mergeMessage normalized message).map ClaudeMessage.unhinted := by
  cases normalized with
  | nil => rfl
  | cons previous earlier =>
    rw [List.map_cons, mergeMessage, mergeMessage]
    by_cases same : previous.role = message.role
    · simp [same, ClaudeMessage.unhinted, contentAsBlocks_unhinted, kiroCachePoint]
    · simp [same]

theorem normalized_unhinted (messages : List ClaudeMessage) :
    normalizedNonSystemMessages (messages.map ClaudeMessage.unhinted) =
      (normalizedNonSystemMessages messages).map ClaudeMessage.unhinted := by
  have folded : ∀ rest before : List ClaudeMessage, (rest.map ClaudeMessage.unhinted).foldl mergeMessage
      (before.map ClaudeMessage.unhinted) = (rest.foldl mergeMessage before).map ClaudeMessage.unhinted := by
    intro rest
    induction rest with
    | nil => exact fun _ => rfl
    | cons message rest ih =>
      intro before
      rw [List.map_cons, List.foldl_cons, List.foldl_cons, mergeMessage_unhinted, ih]
  have kept : (messages.map ClaudeMessage.unhinted).filter (·.role ≠ "system") =
      (messages.filter (·.role ≠ "system")).map ClaudeMessage.unhinted := by
    rw [List.filter_map]
    rfl
  rw [normalizedNonSystemMessages, kept, normalizedNonSystemMessages, List.map_reverse]
  exact congrArg List.reverse (folded _ [])

theorem splitInstruction_unhinted (last : ClaudeMessage) :
    splitInstruction last.unhinted = (splitInstruction last).map ClaudeMessage.unhinted := by
  have text : ∀ block : Value, (unhintedBlock block).getStr "text" = block.getStr "text" :=
    fun block => getStr_unhintedBlock (by decide) (by decide) (by decide)
  by_cases user : last.role = "user"
  · cases ending : last.content.blocks.getLast? with
    | none => simp [splitInstruction, user, ending]
    | some block =>
      have plain : splitInstruction last = if 1 < last.content.blocks.length && (block.kind == some "text" &&
          ((block.getStr "text").map isCompactionInstruction).getD false) then
            [{ last with content := .array last.content.blocks.dropLast, cacheControl := none },
              { last with content := .array [block] }] else [last] := by
        simp [splitInstruction, user, ending]
      have bare : splitInstruction last.unhinted = if 1 < last.content.blocks.length && (block.kind == some "text" &&
          ((block.getStr "text").map isCompactionInstruction).getD false) then
            [{ last.unhinted with content := .array (last.content.blocks.map unhintedBlock).dropLast, cacheControl := none },
              { last.unhinted with content := .array [unhintedBlock block] }] else [last.unhinted] := by
        simp [splitInstruction, user, ending, text]
      rw [plain, bare]
      split
      · simp [ClaudeMessage.unhinted]
      · rfl
  · have alone : ∀ message : ClaudeMessage, message.role ≠ "user" → splitInstruction message = [message] := by
      intro message other
      unfold splitInstruction
      split
      · contradiction
      · rfl
    rw [alone last user, alone last.unhinted user]
    rfl

theorem conversation_unhinted (options : TranslationOptions) (request : ClaudeRequest) :
    conversation options request.unhinted = (conversation options request).map ClaudeMessage.unhinted := by
  unfold conversation
  dsimp only [ClaudeRequest.unhinted]
  rw [normalized_unhinted]
  split
  · unfold separateCompactionInstruction
    rw [List.getLast?_map]
    cases (normalizedNonSystemMessages request.messages).getLast? with
    | none => rfl
    | some last => simp [splitInstruction_unhinted]
  · rfl

end Messages

section Parts

variable (crates : Crates) (options : TranslationOptions)

theorem discovered_unhinted (block : Value) : discoveredNames (unhintedBlock block) = discoveredNames block := by
  have name : (unhintedBlock block).getStr "name" = block.getStr "name" :=
    getStr_unhintedBlock (by decide) (by decide) (by decide)
  have reference : ∀ part : Value, (unhintedBlock part).getStr "tool_name" = part.getStr "tool_name" :=
    fun part => getStr_unhintedBlock (by decide) (by decide) (by decide)
  unfold discoveredNames
  rw [kind_unhintedBlock]
  split
  · rw [name]
  case h_2 kind =>
    have single : ¬ Carries block := by
      rintro (other | other) <;> simp [kind] at other
    rw [Value.pointer, content_of_single single, ← Value.pointer]
  case h_3 kind =>
    rw [content_of_carries (.inl kind)]
    cases block.get "content" with
    | none => rfl
    | some inner =>
      simp only [Option.map_some, Option.getD_some, blocks_unhinted]
      exact filter_unhinted (fun part => by rw [kind_unhintedBlock]) reference _
  · rfl

theorem loadedTools_unhinted (request : ClaudeRequest) :
    claudeLoadedTools request.unhinted = (claudeLoadedTools request).map ClaudeTool.unhinted := by
  have names : discoveredToolNames request.unhinted = discoveredToolNames request := by
    rw [discoveredToolNames, ClaudeRequest.unhinted, List.flatMap_map, discoveredToolNames]
    refine List.flatMap_congr fun message _ => ?_
    rw [unhinted_content, blocks_unhinted, flatMap_unhinted discovered_unhinted]
  unfold claudeLoadedTools
  rw [names]
  dsimp only [ClaudeRequest.unhinted]
  split
  · rfl
  · rw [List.filter_map]
    rfl
  · rw [List.filter_map]
    rfl

theorem assistantContent_unhinted (content : Value) : assistantContent (unhinted content) = assistantContent content := by
  cases content with
  | string text => simp
  | array items =>
    rw [unhinted_array, assistantContent, assistantContent]
    refine congrArg lines (filterMap_unhinted (fun block => ?_) items)
    rw [kind_unhintedBlock]
    split
    · exact getStr_unhintedBlock (by decide) (by decide) (by decide)
    case h_2 kind =>
      have single : ¬ Carries block := by
        rintro (other | other) <;> simp [kind] at other
      rw [Value.getStr, content_of_single single, ← Value.getStr]
    · rfl
  | object fields =>
    obtain ⟨others, same⟩ := unhinted_object (rfl : (Value.object fields).isObject = true)
    rw [same]
    rfl
  | _ => simp [unhinted, unhintedBlock, Value.kind, Value.getStr, Value.get, Value.withoutField]

theorem withSources_unhinted (text : String) (block : Value) :
    withSources options text (unhintedBlock block) = withSources options text block := by
  unfold withSources
  rw [kind_unhintedBlock]
  split
  case isTrue kind =>
    have single : ¬ Carries block := by
      rintro (other | other) <;> simp [other] at kind
    rw [content_of_single single]
  case isFalse => rfl

theorem id_unhinted (block : Value) : (unhintedBlock block).getStr "id" = block.getStr "id" :=
  getStr_unhintedBlock (by decide) (by decide) (by decide)

theorem isPendingUse_unhinted (completed : List String) (block : Value) :
    isPendingUse completed (unhintedBlock block) = isPendingUse completed block := by
  rw [isPendingUse, kind_unhintedBlock, id_unhinted, isPendingUse]

theorem historyUse_unhinted (registry : ToolNameRegistry) (official : OfficialWebTools) (block : Value) :
    historyUse crates registry official (unhintedBlock block) = historyUse crates registry official block := by
  have name : (unhintedBlock block).getStr "name" = block.getStr "name" :=
    getStr_unhintedBlock (by decide) (by decide) (by decide)
  have input : (unhintedBlock block).get "input" = block.get "input" := get_unhintedBlock _ (by decide) (by decide)
  rw [historyUse, id_unhinted, name, input, kind_unhintedBlock, historyUse]

theorem completed_unhinted (request : ClaudeRequest) :
    completedServerToolIds request.unhinted = completedServerToolIds request := by
  have one : ∀ (state : List String × List String) (block : Value),
      completeServerTool state (unhintedBlock block) = completeServerTool state block := by
    intro state block
    have result : (unhintedBlock block).getStr "tool_use_id" = block.getStr "tool_use_id" :=
      getStr_unhintedBlock (by decide) (by decide) (by decide)
    rw [completeServerTool, kind_unhintedBlock, id_unhinted, result, completeServerTool]
  have blocks : (request.unhinted.messages.flatMap fun message => message.content.blocks) =
      (request.messages.flatMap fun message => message.content.blocks).map unhintedBlock := by
    rw [ClaudeRequest.unhinted, List.flatMap_map, List.map_flatMap]
    exact List.flatMap_congr fun message _ => by rw [unhinted_content, blocks_unhinted]
  rw [completedServerToolIds, blocks, foldl_unhinted one, completedServerToolIds]

theorem userOf_unhinted (off : options.enablePromptCache = false) (message : ClaudeMessage) :
    userOf crates options message.unhinted = userOf crates options message := by
  have unmarked : ∀ message, messageCachePoint options message = none := by
    intro message
    rw [messageCachePoint, if_neg (by simp [off])]
  rw [userOf, userOf, unmarked, unmarked, unhinted_content, contentText_unhinted, documentContextText_unhinted,
    extractImages_unhinted, extractDocuments_unhinted, extractToolResults_unhinted]

theorem assistantParts_unhinted (registry : ToolNameRegistry) (official : OfficialWebTools) (completed : List String)
    (content : Value) : assistantParts crates options registry official completed (unhinted content) =
      assistantParts crates options registry official completed content := by
  rw [assistantParts, blocks_unhinted, assistantContent_unhinted, foldl_unhinted (withSources_unhinted options),
    filter_unhinted (isPendingUse_unhinted completed) (historyUse_unhinted crates registry official), assistantParts]

theorem step_unhinted (off : options.enablePromptCache = false) (registry : ToolNameRegistry)
    (official : OfficialWebTools) (completed : List String) (tools : List KiroTool)
    (state : List KiroHistoryMessage × KiroUserInputMessage) (message : ClaudeMessage) (last : Bool) :
    step crates options registry official completed tools state message.unhinted last =
      step crates options registry official completed tools state message last := by
  have unmarked : ∀ message, messageCachePoint options message = none := by
    intro message
    rw [messageCachePoint, if_neg (by simp [off])]
  unfold step
  rw [unhinted_role, userOf_unhinted crates options off, unhinted_content, extractToolResults_unhinted,
    assistantParts_unhinted, unmarked, unmarked]

theorem loop_unhinted (off : options.enablePromptCache = false) (registry : ToolNameRegistry)
    (official : OfficialWebTools) (completed : List String) (tools : List KiroTool) (messages : List ClaudeMessage)
    (state : List KiroHistoryMessage × KiroUserInputMessage) :
    loop crates options registry official completed tools (messages.map ClaudeMessage.unhinted) state =
      loop crates options registry official completed tools messages state := by
  induction messages generalizing state with
  | nil => rfl
  | cons message rest ih =>
    rw [List.map_cons, loop, loop, List.isEmpty_map, step_unhinted crates options off, ih]

theorem entries_unhinted (off : options.enablePromptCache = false) (registry : ToolNameRegistry) (tools : List ClaudeTool) :
    (tools.map ClaudeTool.unhinted).map (toolEntry crates options registry) =
      tools.map (toolEntry crates options registry) := by
  rw [List.map_map]
  refine List.map_congr_left fun tool _ => ?_
  simp only [Function.comp, toolEntry, off]
  rfl

theorem clientSystem_unhinted (request : ClaudeRequest) : clientSystem request.unhinted = clientSystem request := by
  have messages : systemMessages request.unhinted = (systemMessages request).map ClaudeMessage.unhinted := by
    rw [systemMessages, ClaudeRequest.unhinted, List.filter_map]
    rfl
  rw [clientSystem, messages, List.foldl_map]
  simp only [unhinted_content, contentText_unhinted]
  rw [ClaudeRequest.unhinted, systemText_unhinted, clientSystem]

theorem claude_unhinted (off : options.enablePromptCache = false) (draws : Draws) (request : ClaudeRequest) :
    claudeToKiro crates options draws request.unhinted = claudeToKiro crates options draws request := by
  have names : catalogue request.unhinted = catalogue request := by
    rw [catalogue, ClaudeRequest.unhinted, List.map_map]
    rfl
  have marks : ∀ request, systemCachePoint options request = none := by
    intro request
    rw [systemCachePoint, if_neg (by simp [off])]
  have official : officialWebTools request.unhinted = officialWebTools request := by
    simp only [officialWebTools, ClaudeRequest.unhinted, List.any_map]
    rfl
  have system : ∀ registry entries, systemPrompt crates options registry entries request.unhinted =
      systemPrompt crates options registry entries request := by
    intro registry entries
    have deferred : (request.unhinted.tools.any (·.deferLoading)) = request.tools.any (·.deferLoading) := by
      rw [ClaudeRequest.unhinted, List.any_map]
      rfl
    unfold systemPrompt
    dsimp only
    rw [loadedTools_unhinted, clientSystem_unhinted, deferred, List.any_map, List.any_map]
    rfl
  have finished : ∀ tools user, finishCurrent options tools request.unhinted user =
      finishCurrent options tools request user := by
    intro tools user
    simp [finishCurrent, clientSystem_unhinted, off]
  unfold claudeToKiro
  rw [names]
  refine congrArg (fun f => Option.map f (ToolNameRegistry.new crates.sha256 (catalogue request))) (funext fun registry => ?_)
  dsimp only
  rw [loadedTools_unhinted, entries_unhinted crates options off, system, official, completed_unhinted,
    conversation_unhinted, loop_unhinted crates options off, marks, marks, finished]

theorem loop_marks (registry : ToolNameRegistry) (official : OfficialWebTools) (completed : List String)
    (tools : List KiroTool) (messages : List ClaudeMessage) (history : List KiroHistoryMessage)
    {current : KiroUserInputMessage} (fresh : current.cachePoint = none) :
    let final := loop crates options registry official completed tools messages (history, current)
    final.1.flatMap turnCachePoints ++ final.2.cachePoint.toList = history.flatMap turnCachePoints ++
      (messages.filter fun message => message.role = "user" || message.role = "assistant").filterMap
        (messageCachePoint options) := by
  induction messages generalizing history current with
  | nil => simp [loop, fresh]
  | cons message rest ih =>
    dsimp only at ih ⊢
    rw [loop]
    unfold step
    dsimp only
    split
    case h_1 role =>
      have mark : (userOf crates options message).cachePoint = messageCachePoint options message := rfl
      cases rest with
      | nil => cases own : messageCachePoint options message <;> simp [loop, role, mark, own]
      | cons next rest =>
        rw [if_neg (by simp), ih _ fresh]
        cases own : messageCachePoint options message <;> simp [role, turnCachePoints, userTurn, mark, own]
    case h_2 role =>
      rw [ih _ fresh]
      cases own : messageCachePoint options message <;> simp [role, turnCachePoints, assistantTurn, own]
    case h_3 user assistant =>
      rw [ih _ fresh, List.filter_cons_of_neg (by simpa using ⟨user, assistant⟩)]

theorem sanitizeHistory_marks (history : List KiroHistoryMessage) :
    (sanitizeHistory options history).flatMap turnCachePoints = history.flatMap turnCachePoints := by
  unfold sanitizeHistory
  split
  · split <;> rfl
  · rfl

theorem protectedPair_marks (system : String) (mark : Option KiroCachePoint) :
    (protectedPair options system mark).flatMap turnCachePoints = if blank system then [] else mark.toList := by
  unfold protectedPair
  split
  · rfl
  · cases mark <;> rfl

theorem withEnv_cachePoint (env : Option KiroEnvState) (user : KiroUserInputMessage) :
    (withEnv env user).cachePoint = user.cachePoint := by
  cases env <;> rfl

theorem finishCurrent_cachePoint (tools : List KiroTool) (request : ClaudeRequest) (user : KiroUserInputMessage) :
    (finishCurrent options tools request user).cachePoint = if options.enablePromptCache then
      mergedCachePoint user.cachePoint (kiroCachePoint request.cacheControl) else user.cachePoint := by
  unfold finishCurrent
  dsimp only
  split
  · rw [withEnv_cachePoint]
    split <;> rfl
  · rw [withEnv_cachePoint]
    split <;> rfl

def toolMark (tool : ClaudeTool) : Option KiroCachePoint :=
  if options.enablePromptCache then kiroCachePoint tool.cacheControl else none

theorem sentTools_marks (registry : ToolNameRegistry) (request : ClaudeRequest) :
    (sentTools crates options registry request).filterMap KiroTool.cachePoint? =
      (claudeLoadedTools request).filterMap (toolMark options) := by
  have one : ∀ tool, (toolEntry crates options registry tool).1.filterMap KiroTool.cachePoint? = (toolMark options tool).toList := by
    intro tool
    have marks : ∀ mark : Option KiroCachePoint, (mark.toList.map KiroTool.cachePoint).filterMap KiroTool.cachePoint? =
        mark.toList := by
      intro mark
      cases mark <;> rfl
    have defined : ∀ original kiro description schema,
        (kiroToolNamed original kiro description schema).1.cachePoint? = none := by
      intro original kiro description schema
      unfold kiroToolNamed
      split
      rfl
    unfold toolEntry toolMark toolSearchKiroToolNamed
    dsimp only
    cases searchKind tool with
    | some found => simp only [Option.map_some, List.filterMap_cons, defined, marks]
    | none =>
      simp only [Option.map_none]
      split
      · simp only [List.filterMap_cons, defined, marks]
      · split <;> simp only [List.filterMap_cons, defined, marks]
  rw [sentTools, List.flatMap_map, List.filterMap_flatMap, List.filterMap_eq_flatMap_toList]
  exact List.flatMap_congr fun tool _ => one tool

theorem claude_cachePoints (draws : Draws) {registry : ToolNameRegistry} {request : ClaudeRequest}
    (registered : ToolNameRegistry.new crates.sha256 (catalogue request) = some registry) :
    ∃ payload, claudeToKiro crates options draws request = some payload ∧
      cachePoints payload = (claudeLoadedTools request).filterMap (toolMark options) ++
        ((if blank (sentSystem crates options registry request) then [] else (systemCachePoint options request).toList) ++
          ((looped crates options registry request).1.flatMap turnCachePoints ++
            (if options.enablePromptCache then
              mergedCachePoint (looped crates options registry request).2.cachePoint (kiroCachePoint request.cacheControl)
            else (looped crates options registry request).2.cachePoint).toList)) := by
  obtain ⟨payload, translated, current, whole⟩ := claudeToKiro_turns crates options registry request draws registered
  refine ⟨payload, translated, ?_⟩
  have tools : (finishCurrent options (sentTools crates options registry request) request
      (looped crates options registry request).2).tools = sentTools crates options registry request :=
    finishCurrent_tools (loop_context _ _ _ (.inl rfl))
  rw [cachePoints, current, tools, sentTools_marks, whole, List.flatMap_append, protectedPair_marks, List.flatMap_append,
    sanitizeHistory_marks, List.flatMap_singleton, turnCachePoints_user, finishCurrent_cachePoint]

theorem claude_bare (off : options.enablePromptCache = false) (draws : Draws) {registry : ToolNameRegistry}
    {request : ClaudeRequest} (registered : ToolNameRegistry.new crates.sha256 (catalogue request) = some registry) :
    ∃ payload, claudeToKiro crates options draws request = some payload ∧ cachePoints payload = [] := by
  obtain ⟨payload, translated, points⟩ := claude_cachePoints crates options draws registered
  refine ⟨payload, translated, ?_⟩
  have tools : (claudeLoadedTools request).filterMap (toolMark options) = [] :=
    List.filterMap_eq_nil_iff.2 fun tool _ => by simp [toolMark, off]
  have system : systemCachePoint options request = none := by
    rw [systemCachePoint, if_neg (by simp [off])]
  have marks := loop_marks crates options registry (officialWebTools request) (completedServerToolIds request)
    (sentTools crates options registry request) (conversation options request) []
    (rfl : (emptyCurrent options).cachePoint = none)
  have none_marked : ((conversation options request).filter fun message =>
      message.role = "user" || message.role = "assistant").filterMap (messageCachePoint options) = [] :=
    List.filterMap_eq_nil_iff.2 fun message _ => by simp [messageCachePoint, off]
  dsimp only at marks
  rw [none_marked, List.flatMap_nil, List.append_nil] at marks
  rw [points, tools, system]
  simpa [looped, off] using marks

end Parts

end Claude

/-! ### Chat requests -/

def OpenAiMessage.unhinted (message : OpenAiMessage) : OpenAiMessage :=
  { message with content := message.content.map KiroProxy.unhinted, cacheControl := none }

def OpenAiTool.unhinted (tool : OpenAiTool) : OpenAiTool :=
  { tool with body := tool.body.withoutField "cache_control" }

/-- The request with every `cache_control` removed. -/
def OpenAiRequest.unhinted (request : OpenAiRequest) : OpenAiRequest :=
  { request with
    messages := request.messages.map OpenAiMessage.unhinted
    tools := request.tools.map OpenAiTool.unhinted }

def clearedTurn (turn : KiroHistoryMessage) : KiroHistoryMessage :=
  { userInputMessage := turn.userInputMessage.map fun user => { user with cachePoint := none }
    assistantResponseMessage := turn.assistantResponseMessage.map fun assistant => { assistant with cachePoint := none } }

theorem clearedTurn_eq {turn : KiroHistoryMessage} (bare : turnCachePoints turn = []) : clearedTurn turn = turn := by
  have users : ∀ user : KiroUserInputMessage, user.cachePoint = none → { user with cachePoint := none } = user := by
    rintro ⟨⟩ rfl
    rfl
  have assistants : ∀ assistant : KiroAssistantMessage, assistant.cachePoint = none →
      { assistant with cachePoint := none } = assistant := by
    rintro ⟨⟩ rfl
    rfl
  obtain ⟨user, assistant⟩ := turn
  rw [turnCachePoints, List.append_eq_nil_iff, Option.toList_eq_nil_iff, Option.toList_eq_nil_iff] at bare
  cases user <;> cases assistant <;> simp_all [clearedTurn]

namespace OpenAi

variable (crates : Crates) (options : TranslationOptions) (registry : ToolNameRegistry)

@[simp] theorem unhinted_role (message : OpenAiMessage) : message.unhinted.role = message.role := rfl

theorem unhinted_text (message : OpenAiMessage) : messageText message.unhinted = messageText message := by
  cases content : message.content <;> simp [messageText, OpenAiMessage.unhinted, content]

theorem unhinted_images (message : OpenAiMessage) : messageImages crates message.unhinted = messageImages crates message := by
  cases content : message.content <;> simp [messageImages, OpenAiMessage.unhinted, content]

theorem unhinted_documents (message : OpenAiMessage) :
    messageDocuments crates message.unhinted = messageDocuments crates message := by
  cases content : message.content <;> simp [messageDocuments, OpenAiMessage.unhinted, content]

@[simp] theorem unhinted_mark (message : OpenAiMessage) : messageCachePoint message.unhinted = none := by
  cases content : message.content <;>
    simp [messageCachePoint, OpenAiMessage.unhinted, content, kiroCachePoint, mergedCachePoint]

def Pending.cleared (s : Pending) : Pending :=
  { s with history := s.history.map clearedTurn, cachePoint := none, resultCachePoint := none }

theorem assistant_unhinted (off : options.enablePromptCache = false) (message : OpenAiMessage) :
    assistantMessage crates options registry message.unhinted = assistantMessage crates options registry message := by
  have text : assistantText message.unhinted = assistantText message := by
    rw [assistantText, unhinted_text, assistantText]
    rfl
  rw [assistantMessage, text, assistantMessage]
  simp [off, OpenAiMessage.unhinted]

theorem step_unhinted (off : options.enablePromptCache = false) (s : Pending) (message : OpenAiMessage)
    (rest : List OpenAiMessage) :
    step crates options registry s.cleared message.unhinted (rest.map OpenAiMessage.unhinted) =
      (step crates options registry s message rest).cleared := by
  have next : ((rest.map OpenAiMessage.unhinted).head?.any fun next => next.role == "tool") =
      rest.head?.any fun next => next.role == "tool" := by
    cases rest <;> rfl
  unfold step
  dsimp only
  rw [unhinted_role, List.isEmpty_map, next, unhinted_text, unhinted_images, unhinted_documents,
    assistant_unhinted crates options registry off, unhinted_mark]
  split
  · split
    · simp [Pending.cleared]
    · simp [Pending.cleared, clearedTurn, userTurn, makeUser]
  · simp [Pending.cleared, clearedTurn, assistantTurn, assistantMessage, off]
  · split
    · simp [Pending.cleared, clearedTurn, userTurn, makeUser, mergedCachePoint, OpenAiMessage.unhinted]
    · simp [Pending.cleared, mergedCachePoint, OpenAiMessage.unhinted]
  · rfl

theorem loop_unhinted (off : options.enablePromptCache = false) (messages : List OpenAiMessage) (s : Pending) :
    loop crates options registry (messages.map OpenAiMessage.unhinted) s.cleared =
      (loop crates options registry messages s).cleared := by
  induction messages generalizing s with
  | nil => rfl
  | cons message rest ih => rw [List.map_cons, loop, loop, step_unhinted crates options registry off, ih]

structure Pending.Bare (s : Pending) : Prop where
  history : s.history.flatMap turnCachePoints = []
  own : s.cachePoint = none
  results : s.resultCachePoint = none

def Unmarked (message : OpenAiMessage) : Prop :=
  message.role = "user" ∨ message.role = "tool" → messageCachePoint message = none

theorem mergedCachePoint_none {first second : Option KiroCachePoint} :
    mergedCachePoint first second = none ↔ first = none ∧ second = none := by
  rw [mergedCachePoint, Option.or_eq_none_iff, and_comm]

theorem turnCachePoints_assistant (assistant : KiroAssistantMessage) :
    turnCachePoints (assistantTurn assistant) = assistant.cachePoint.toList := by
  simp [turnCachePoints, assistantTurn]

variable {s : Pending} {tool : OpenAiTool} {request : OpenAiRequest}

theorem step_bare (off : options.enablePromptCache = false) (fresh : s.cachePoint = none) (message : OpenAiMessage)
    (rest : List OpenAiMessage) :
    (step crates options registry s message rest).Bare ↔ s.Bare ∧ Unmarked message := by
  unfold step
  dsimp only
  split
  case h_1 role =>
    have reads : Unmarked message ↔ messageCachePoint message = none := by simp [Unmarked, role]
    rw [reads]
    split
    · constructor
      · exact fun bare => ⟨⟨bare.history, fresh, bare.results⟩, bare.own⟩
      · exact fun ⟨bare, own⟩ => ⟨bare.history, own, bare.results⟩
    · constructor
      · intro bare
        have history := bare.history
        rw [List.flatMap_append, List.append_eq_nil_iff, List.flatMap_singleton, turnCachePoints_user] at history
        exact ⟨⟨history.1, fresh, bare.results⟩, by simpa [makeUser] using history.2⟩
      · rintro ⟨bare, own⟩
        refine ⟨?_, rfl, bare.results⟩
        rw [List.flatMap_append, bare.history, List.flatMap_singleton, turnCachePoints_user]
        simp [makeUser, own]
  case h_2 role =>
    have free : Unmarked message := by simp [Unmarked, role]
    have mark : turnCachePoints (assistantTurn (assistantMessage crates options registry message)) = [] := by
      simp [turnCachePoints_assistant, assistantMessage, off]
    constructor
    · intro bare
      have history := bare.history
      rw [List.flatMap_append, List.append_eq_nil_iff] at history
      exact ⟨⟨history.1, fresh, bare.results⟩, free⟩
    · rintro ⟨bare, -⟩
      refine ⟨?_, fresh, bare.results⟩
      rw [List.flatMap_append, bare.history, List.flatMap_singleton, mark]
      rfl
  case h_3 role =>
    have reads : Unmarked message ↔ messageCachePoint message = none := by simp [Unmarked, role]
    rw [reads]
    split
    · constructor
      · intro bare
        have history := bare.history
        rw [List.flatMap_append, List.append_eq_nil_iff, List.flatMap_singleton, turnCachePoints_user] at history
        have both := mergedCachePoint_none.1 (by simpa [makeUser] using history.2)
        exact ⟨⟨history.1, fresh, both.1⟩, both.2⟩
      · rintro ⟨bare, own⟩
        refine ⟨?_, fresh, rfl⟩
        rw [List.flatMap_append, bare.history, List.flatMap_singleton, turnCachePoints_user]
        simp [makeUser, mergedCachePoint_none.2 ⟨bare.results, own⟩]
    · constructor
      · intro bare
        have both := mergedCachePoint_none.1 bare.results
        exact ⟨⟨bare.history, fresh, both.1⟩, both.2⟩
      · rintro ⟨bare, own⟩
        exact ⟨bare.history, fresh, mergedCachePoint_none.2 ⟨bare.results, own⟩⟩
  case h_4 user _ tool =>
    have free : Unmarked message := by
      rintro (role | role)
      · exact absurd role user
      · exact absurd role tool
    exact ⟨fun bare => ⟨bare, free⟩, fun bare => bare.1⟩

theorem step_fresh (fresh : s.cachePoint = none) (message : OpenAiMessage) {rest : List OpenAiMessage}
    (more : rest ≠ []) : (step crates options registry s message rest).cachePoint = none := by
  have filled : rest.isEmpty = false := by simpa using more
  unfold step
  dsimp only
  rw [filled]
  split
  · rfl
  · exact fresh
  · split
    · exact fresh
    · exact fresh
  · exact fresh

theorem loop_bare (off : options.enablePromptCache = false) (messages : List OpenAiMessage)
    (fresh : s.cachePoint = none) :
    (loop crates options registry messages s).Bare ↔ s.Bare ∧ ∀ message ∈ messages, Unmarked message := by
  induction messages generalizing s with
  | nil => simp [loop]
  | cons message rest ih =>
    rw [loop]
    cases rest with
    | nil => simpa [loop] using step_bare crates options registry off fresh message []
    | cons next rest =>
      rw [ih (step_fresh crates options registry fresh message (by simp)),
        step_bare crates options registry off fresh message]
      simp only [List.forall_mem_cons, and_assoc]

theorem definition_unhinted (known : tool.type = "function" ∨ tool.type = "custom") :
    definition tool.unhinted = definition tool := by
  rw [definition, OpenAiTool.unhinted, Value.get_withoutField, if_neg, definition]
  rcases known with type | type <;> rw [type] <;> decide

theorem definedName_unhinted (known : tool.type = "function" ∨ tool.type = "custom") :
    definedName tool.unhinted = definedName tool := by
  rw [definedName, definition_unhinted known, definedName]

theorem toolEntry_unhinted (off : options.enablePromptCache = false)
    (known : tool.type = "function" ∨ tool.type = "custom") :
    toolEntry crates options registry tool.unhinted = toolEntry crates options registry tool := by
  simp only [toolEntry, definition_unhinted known, off]
  rfl

theorem filter_unhinted_tools {p q : OpenAiTool → Bool} {tools : List OpenAiTool}
    (same : ∀ tool ∈ tools, p tool.unhinted = q tool) :
    (tools.map OpenAiTool.unhinted).filter p = (tools.filter q).map OpenAiTool.unhinted := by
  rw [List.filter_map]
  exact congrArg (List.map OpenAiTool.unhinted) (List.filter_congr same)

theorem selectedTools_unhinted (known : ∀ tool ∈ request.tools, tool.type = "function" ∨ tool.type = "custom") :
    selectedTools request.unhinted = (selectedTools request).map OpenAiTool.unhinted := by
  have allowed : ∀ choice, ∀ tool ∈ request.tools, allowedTool choice tool.unhinted = allowedTool choice tool := by
    intro choice tool member
    rw [allowedTool, definedName_unhinted (known tool member), allowedTool]
    rfl
  unfold selectedTools
  dsimp only [OpenAiRequest.unhinted]
  split
  · rfl
  · split
    · rfl
    · split
      · exact filter_unhinted_tools (allowed _)
      · split
        · exact filter_unhinted_tools fun tool member => by rw [definedName_unhinted (known tool member)]
        · rfl

theorem mem_selectedTools (selected : tool ∈ selectedTools request) :
    tool ∈ request.tools := by
  unfold selectedTools at selected
  split at selected
  · exact selected
  · split at selected
    · cases selected
    · split at selected
      · exact List.mem_of_mem_filter selected
      · split at selected
        · exact List.mem_of_mem_filter selected
        · exact selected

theorem catalogue_unhinted (known : ∀ tool ∈ request.tools, tool.type = "function" ∨ tool.type = "custom") :
    catalogue request.unhinted = catalogue request := by
  rw [catalogue, OpenAiRequest.unhinted, List.filterMap_map, catalogue]
  exact List.filterMap_congr fun tool member => definedName_unhinted (known tool member)

theorem entries_unhinted (off : options.enablePromptCache = false)
    (known : ∀ tool ∈ request.tools, tool.type = "function" ∨ tool.type = "custom") :
    (selectedTools request.unhinted).filterMap (toolEntry crates options registry) =
      (selectedTools request).filterMap (toolEntry crates options registry) := by
  rw [selectedTools_unhinted known, List.filterMap_map]
  exact List.filterMap_congr fun tool member =>
    toolEntry_unhinted crates options registry off (known tool (mem_selectedTools member))

theorem systemPrompt_unhinted (request : OpenAiRequest) (entries : List (List KiroTool × Option String)) :
    systemPrompt options request.unhinted entries = systemPrompt options request entries := by
  have texts : ((request.unhinted.messages.filter isSystem).filterMap (·.content)).map contentText =
      ((request.messages.filter isSystem).filterMap (·.content)).map contentText := by
    have kept : request.unhinted.messages.filter isSystem = (request.messages.filter isSystem).map OpenAiMessage.unhinted := by
      rw [OpenAiRequest.unhinted, List.filter_map]
      rfl
    rw [kept, List.filterMap_map, List.map_filterMap, List.map_filterMap]
    refine List.filterMap_congr fun message _ => ?_
    cases content : message.content <;> simp [OpenAiMessage.unhinted, content]
  have directive : choiceDirective request.unhinted = choiceDirective request := by
    have none_defined : request.unhinted.tools.isEmpty = request.tools.isEmpty := List.isEmpty_map
    unfold choiceDirective
    rw [none_defined]
    rfl
  unfold systemPrompt
  rw [texts, directive]

theorem Pending.Bare.cleared (bare : s.Bare) : s.cleared = s := by
  have history : s.history.map clearedTurn = s.history := by
    have own := List.flatMap_eq_nil_iff.1 bare.history
    calc s.history.map clearedTurn = s.history.map id := List.map_congr_left fun turn member => clearedTurn_eq (own turn member)
      _ = s.history := List.map_id _
  have own := bare.own
  have results := bare.results
  obtain ⟨_, _, _, _, _, _, _⟩ := s
  dsimp only at history own results
  subst own results
  rw [Pending.cleared, history]

theorem definitions_bare (off : options.enablePromptCache = false) (tools : List OpenAiTool) :
    ((tools.filterMap (toolEntry crates options registry)).flatMap (·.1)).filterMap KiroTool.cachePoint? = [] := by
  rw [List.filterMap_flatMap, List.flatMap_eq_nil_iff]
  intro entry member
  obtain ⟨tool, -, made⟩ := List.mem_filterMap.1 member
  simp only [toolEntry, Option.bind_eq_bind, Option.bind_eq_some_iff, Option.pure_def, Option.some.injEq, off] at made
  obtain ⟨body, -, name, -, rfl⟩ := made
  simp [kiroToolNamed, KiroTool.cachePoint?]

/-- With caching off a payload has a cache point exactly if a message of a user or of a tool has
a hint, and without one it is the payload of the request without hints. -/
theorem payload_unhinted (off : options.enablePromptCache = false) (draws : Draws)
    (known : ∀ tool ∈ request.tools, tool.type = "function" ∨ tool.type = "custom")
    (registered : ToolNameRegistry.new crates.sha256 (catalogue request) = some registry) :
    ∃ payload bare, openaiToKiro crates options draws request = some payload ∧
      openaiToKiro crates options draws request.unhinted = some bare ∧ cachePoints bare = [] ∧
      (cachePoints payload = [] ↔ ∀ message ∈ request.messages, Unmarked message) ∧
      (cachePoints payload = [] → bare = payload) := by
  have marks : ∀ request, systemCachePoint options request = none := by
    intro request
    rw [systemCachePoint, if_neg (by simp [off])]
  have conversed : (request.unhinted.messages.filter fun message => !isSystem message) =
      (request.messages.filter fun message => !isSystem message).map OpenAiMessage.unhinted := by
    rw [OpenAiRequest.unhinted, List.filter_map]
    rfl
  -- What the definitions and the loop leave, with its cache points and without them.
  let entries := (selectedTools request).filterMap (toolEntry crates options registry)
  let s := loop crates options registry (request.messages.filter fun message => !isSystem message) {}
  have looped : loop crates options registry (request.unhinted.messages.filter fun message => !isSystem message) {} =
      s.cleared := by
    rw [conversed]
    exact loop_unhinted crates options registry off _ {}
  let pair := protectedPair options (systemPrompt options request entries) none
  let payloadOf := fun t : Pending =>
    { conversationState := {
        agentContinuationId := some draws.continuationId
        agentTaskType := some "vibe"
        chatTriggerType := "MANUAL"
        conversationId := options.conversationId.getD draws.conversationId
        currentMessage := { userInputMessage := current options (entries.flatMap (·.1)) t }
        history := pair ++ t.history }
      profileArn := options.profileArn
      additionalModelRequestFields := draws.modelFields
      protectedHistoryMessages := pair.length : KiroPayload }
  have translated : openaiToKiro crates options draws request = some (payloadOf s) := by
    simp only [openaiToKiro, registered, Option.map_some, marks]
    rfl
  have bared : openaiToKiro crates options draws request.unhinted = some (payloadOf s.cleared) := by
    simp only [openaiToKiro, catalogue_unhinted known, registered, Option.map_some, marks, looped,
      entries_unhinted crates options registry off known, systemPrompt_unhinted]
    rfl
  have points : ∀ t : Pending, cachePoints (payloadOf t) = [] ↔ t.Bare := by
    intro t
    have defined : (current options (entries.flatMap (·.1)) t).tools.filterMap KiroTool.cachePoint? = [] := by
      rw [Claude.tools_messageContext _ _ _ rfl]
      exact definitions_bare crates options registry off _
    have ahead : pair.flatMap turnCachePoints = [] := by
      simp only [pair, protectedPair]
      split <;> rfl
    have whole : cachePoints (payloadOf t) = t.history.flatMap turnCachePoints ++
        (mergedCachePoint t.cachePoint t.resultCachePoint).toList := by
      simp only [cachePoints, payloadOf, defined, turns, List.flatMap_append, ahead, List.nil_append,
        List.flatMap_singleton, turnCachePoints_user]
      rfl
    rw [whole, List.append_eq_nil_iff, Option.toList_eq_nil_iff, mergedCachePoint_none]
    constructor
    · rintro ⟨history, own, results⟩
      exact ⟨history, own, results⟩
    · rintro ⟨history, own, results⟩
      exact ⟨history, own, results⟩
  have counted : s.Bare ↔ ∀ message ∈ request.messages, Unmarked message := by
    rw [loop_bare crates options registry off _ rfl]
    constructor
    · rintro ⟨-, every⟩ message member
      by_cases system : isSystem message = true
      · rw [isSystem, Bool.or_eq_true, beq_iff_eq, beq_iff_eq] at system
        rcases system with role | role <;> simp [Unmarked, role]
      · exact every message (List.mem_filter.2 ⟨member, by simpa using system⟩)
    · exact fun every => ⟨⟨rfl, rfl, rfl⟩, fun message member => every message (List.mem_of_mem_filter member)⟩
  refine ⟨payloadOf s, payloadOf s.cleared, translated, bared, ?_, (points s).trans counted, ?_⟩
  · have none_left : (s.history.map clearedTurn).flatMap turnCachePoints = [] := by
      rw [List.flatMap_map, List.flatMap_eq_nil_iff]
      intro turn _
      obtain ⟨user, assistant⟩ := turn
      cases user <;> cases assistant <;> rfl
    exact (points s.cleared).2 ⟨none_left, rfl, rfl⟩
  · intro clear
    rw [((points s).1 clear).cleared]

end OpenAi

/-- With caching off a request's cache hints have no effect on its payload, and leave no cache
point there: for Messages requests always, for chat requests exactly if no message of a user or
of a tool has a hint. -/
theorem hints_without_effect_iff (crates : Crates) (options : TranslationOptions) (draws : Draws)
    (off : options.enablePromptCache = false) :
    (∀ request : ClaudeRequest, ToolNameRegistry.EnoughDigests crates.sha256 (Claude.catalogue request) →
      ∃ payload, Claude.claudeToKiro crates options draws request = some payload ∧
        Claude.claudeToKiro crates options draws request.unhinted = some payload ∧ cachePoints payload = []) ∧
    (∀ request : OpenAiRequest, ToolNameRegistry.EnoughDigests crates.sha256 (OpenAi.catalogue request) →
      (∀ tool ∈ request.tools, tool.type = "function" ∨ tool.type = "custom") →
      ∃ payload bare, OpenAi.openaiToKiro crates options draws request = some payload ∧
        OpenAi.openaiToKiro crates options draws request.unhinted = some bare ∧
        (bare = payload ∧ cachePoints payload = [] ↔ ∀ message ∈ request.messages,
          message.role = "user" ∨ message.role = "tool" → OpenAi.messageCachePoint message = none)) := by
  constructor
  · intro request enough
    obtain ⟨registry, registered, -⟩ := ToolNameRegistry.new_registers crates.sha256 _ enough
    obtain ⟨payload, translated, bare⟩ := Claude.claude_bare crates options off draws registered
    exact ⟨payload, translated, (Claude.claude_unhinted crates options off draws request).trans translated, bare⟩
  · intro request enough known
    obtain ⟨registry, registered, -⟩ := ToolNameRegistry.new_registers crates.sha256 _ enough
    obtain ⟨payload, bare, translated, unhinted, -, marked, same⟩ :=
      OpenAi.payload_unhinted crates options registry off draws known registered
    refine ⟨payload, bare, translated, unhinted, ?_⟩
    constructor
    · exact fun held => marked.1 held.2
    · exact fun unmarked => ⟨same (marked.2 unmarked), marked.2 unmarked⟩

def ephemeral : Value := .object [("type", .string "ephemeral")]

def hintedRequest : OpenAiRequest :=
  { messages := [{ role := "user", content := some (.string "Hi."), cacheControl := some ephemeral }]
    tools := [{ type := "function", body := .object [("function", .object [("name", .string "read")])] }] }

theorem hints_without_effect_hinted :
    ∃ payload bare,
      OpenAi.openaiToKiro OpenAi.sampleCrates OpenAi.sampleOptions OpenAi.sampleDraws hintedRequest = some payload ∧
      OpenAi.openaiToKiro OpenAi.sampleCrates OpenAi.sampleOptions OpenAi.sampleDraws hintedRequest.unhinted = some bare ∧
      ¬ (bare = payload ∧ cachePoints payload = []) := by
  obtain ⟨payload, bare, translated, unhinted, exactly⟩ := (hints_without_effect_iff OpenAi.sampleCrates
    OpenAi.sampleOptions OpenAi.sampleDraws rfl).2 hintedRequest (OpenAi.enough_of_one OpenAi.sampleCrates.sha256 "read")
    (by decide)
  refine ⟨payload, bare, translated, unhinted, ?_⟩
  rw [exactly]
  intro unmarked
  exact absurd (unmarked _ List.mem_cons_self (.inl rfl)) (by decide +kernel)

def hintlessRequest : OpenAiRequest :=
  { hintedRequest with messages := [{ role := "user", content := some (.string "Hi.") }] }

theorem hintedRequest_unhinted : hintedRequest.unhinted = hintlessRequest := by
  simp [hintedRequest, hintlessRequest, OpenAiRequest.unhinted, OpenAiMessage.unhinted, OpenAiTool.unhinted,
    Value.withoutField]

theorem hint_reaches_kiro : OpenAi.sampleOptions.enablePromptCache = false ∧
    (OpenAi.openaiToKiro OpenAi.sampleCrates OpenAi.sampleOptions OpenAi.sampleDraws hintedRequest).map cachePoints =
      some [{}] ∧
    (OpenAi.openaiToKiro OpenAi.sampleCrates OpenAi.sampleOptions OpenAi.sampleDraws hintedRequest.unhinted).map
      cachePoints = some [] := by
  rw [hintedRequest_unhinted]
  refine ⟨rfl, ?_, ?_⟩
  · decide +kernel
  · decide +kernel

end KiroProxy

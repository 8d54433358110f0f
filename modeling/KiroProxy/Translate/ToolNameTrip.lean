import KiroProxy.Translate.AttachmentsKept

/-! Tool names of whole requests on the way to Kiro: under which name each definition and each
past call goes out, and that two names of one catalogue never go out under the same name. -/
namespace KiroProxy

/-- A client's tool name, and the name that stands for it in the payload. A call may go out
under the official name of a web tool in place of its own. -/
structure Sent where
  client : String
  kiro : String
  renamed : Bool := false

structure Sent.Listed (names : List String) (sent : Sent) : Prop where
  known : sent.client ∈ names
  nonempty : sent.client ≠ ""
  itself : sent.renamed = false

def Apart (names : List String) (sent : List Sent) : Prop :=
  ∀ x ∈ sent, ∀ y ∈ sent, x.Listed names → y.Listed names → x.kiro = y.kiro → x.client = y.client

def KiroTool.sentName (tool : KiroTool) : Option String := tool.specification?.map (·.name)

/-- The names that a payload shows Kiro: those of the definitions, and those of the calls. -/
def sentNames (payload : KiroPayload) : List String :=
  payload.conversationState.currentMessage.userInputMessage.tools.filterMap KiroTool.sentName ++
    ((turns payload).flatMap turnUses).map (·.name)

section Registry

variable {sha : Sha256} {registry : ToolNameRegistry}

theorem length_withSuffix (normalized suffix : List Char) : suffix.length < (withSuffix normalized suffix).length := by
  rw [withSuffix, String.length_ofList, List.length_append, List.length_cons]
  omega

/-- A short name that is its own plain form is given to no other name of the catalogue: such
a name counts the form twice, and the hashed names are longer. -/
theorem ToolNameRegistry.Registered.own_form {all done : List String}
    (right : ToolNameRegistry.Registered sha all done registry) {own other : String} (form : toolName sha own = own)
    (short : own.length ≤ 16) (own_listed : own ∈ all) (other_listed : other ∈ all) (known : other ∈ done)
    (same : registry.kiroName sha other = own) : other = own := by
  by_contra different
  obtain ⟨named, single⟩ | ⟨nonce, hashed⟩ := right.sent other _ (right.lookup_kiroName known)
  · rw [same] at named single
    have both : [other, own].Subperm (all.filter fun name => toolName sha name == own) := by
      refine List.subperm_of_subset (by simpa using different) ?_
      intro name member
      simp only [List.mem_cons, List.not_mem_nil, or_false] at member
      obtain rfl | rfl := member
      · exact List.mem_filter.2 ⟨other_listed, by simp [← named]⟩
      · exact List.mem_filter.2 ⟨own_listed, by simp [form]⟩
    have two := both.length_le
    rw [List.countP_eq_length_filter] at single
    simp only [List.length_cons, List.length_nil] at two
    omega
  · have long := length_withSuffix (normalizedChars other) (digestSuffix sha (nonceText other nonce) 8)
    rw [length_collisionSuffix] at long
    rw [← same, hashed, collisionToolName] at short
    omega

/-- What a listed name is sent under: the registered name, or a short name as it stands. -/
def Sent.Formed (sha : Sha256) (registry : ToolNameRegistry) (sent : Sent) : Prop :=
  sent.kiro = registry.kiroName sha sent.client ∨
    sent.kiro = sent.client ∧ toolName sha sent.client = sent.client ∧ sent.client.length ≤ 16

theorem apart_of_formed {names : List String} {sent : List Sent}
    (right : ToolNameRegistry.Registered sha (ToolNameRegistry.originals names) (ToolNameRegistry.originals names).reverse registry)
    (formed : ∀ x ∈ sent, x.Listed names → x.Formed sha registry) : Apart names sent := by
  intro x x_sent y y_sent x_listed y_listed same
  have x_known := ToolNameRegistry.mem_originals.2 ⟨x_listed.known, x_listed.nonempty⟩
  have y_known := ToolNameRegistry.mem_originals.2 ⟨y_listed.known, y_listed.nonempty⟩
  have x_done := List.mem_reverse.2 x_known
  have y_done := List.mem_reverse.2 y_known
  obtain x_named | ⟨x_own, x_form, x_short⟩ := formed x x_sent x_listed
  · obtain y_named | ⟨y_own, y_form, y_short⟩ := formed y y_sent y_listed
    · rw [x_named, y_named] at same
      exact right.kiroName_inj x_done y_done same
    · rw [x_named, y_own] at same
      exact right.own_form y_form y_short y_known x_known x_done same
  · obtain y_named | ⟨y_own, -⟩ := formed y y_sent y_listed
    · rw [x_own, y_named] at same
      exact (right.own_form x_form x_short x_known y_known y_done same.symm).symm
    · rw [x_own, y_own] at same
      exact same

theorem toolName_webSearch (sha : Sha256) : toolName sha "web_search" = "web_search" := rfl

theorem toolName_webFetch (sha : Sha256) : toolName sha "web_fetch" = "web_fetch" := rfl

end Registry

namespace Claude

variable (crates : Crates) (options : TranslationOptions) (registry : ToolNameRegistry) (request : ClaudeRequest)

def definitionName (tool : ClaudeTool) : String :=
  if isToolSearchTool tool then registry.kiroName crates.sha256 tool.name
  else if declares "web_search" tool then "web_search"
  else if declares "web_fetch" tool then "web_fetch"
  else registry.kiroName crates.sha256 tool.name

def sentDefinitions : List Sent :=
  (claudeLoadedTools request).map fun tool => { client := tool.name, kiro := definitionName crates registry tool }

def isAlias (official : OfficialWebTools) (serverToolUse : Bool) (name : String) : Bool :=
  serverToolUse && ((official.search && matchesTypeFamily name "web_search" && name != "web_search") ||
    (official.fetch && matchesTypeFamily name "web_fetch" && name != "web_fetch"))

def sentCall (block : Value) : Option Sent := do
  let _ ← block.getStr "id"
  let name ← block.getStr "name"
  let server := block.kind == some "server_tool_use"
  return {
    client := name
    kiro := normalizeHistoryToolName crates registry (officialWebTools request) server name
    renamed := isAlias (officialWebTools request) server name }

def sentCalls : List Sent :=
  ((conversation options request).filter (·.role = "assistant")).flatMap fun message =>
    (message.content.blocks.filter (isPendingUse (completedServerToolIds request))).filterMap
      (sentCall crates registry request)

def OfficialNames : Prop :=
  ∀ tool ∈ request.tools, (declares "web_search" tool = true → tool.name = "web_search") ∧
    (declares "web_fetch" tool = true → tool.name = "web_fetch")

section Names

variable {crates options registry request}

theorem kiroToolNamed_name (original kiro description : String) (schema : Value) :
    (kiroToolNamed original kiro description schema).1.sentName = some kiro := by
  unfold kiroToolNamed
  split
  rfl

theorem toolEntry_name (tool : ClaudeTool) :
    (toolEntry crates options registry tool).1.filterMap KiroTool.sentName = [definitionName crates registry tool] := by
  have marks (mark : Option KiroCachePoint) : (mark.toList.map KiroTool.cachePoint).filterMap KiroTool.sentName = [] := by
    cases mark <;> rfl
  unfold toolEntry definitionName isToolSearchTool toolSearchKiroToolNamed
  dsimp only
  cases kind : searchKind tool with
  | some found => simp only [Option.map_some, List.filterMap_cons, kiroToolNamed_name, marks, Option.isSome_some, if_true]
  | none =>
    by_cases search : declares "web_search" tool = true
    · simp [search, kiroToolNamed_name, marks, toolName_webSearch]
    · by_cases fetch : declares "web_fetch" tool = true
      · simp [search, fetch, kiroToolNamed_name, marks, toolName_webFetch]
      · simp [search, fetch, kiroToolNamed_name, marks]

theorem sentTools_names : (sentTools crates options registry request).filterMap KiroTool.sentName =
    (sentDefinitions crates registry request).map (·.kiro) := by
  rw [sentTools, sentDefinitions, List.filterMap_flatMap, List.flatMap_map, List.map_map]
  induction claudeLoadedTools request with
  | nil => rfl
  | cons tool rest ih => rw [List.flatMap_cons, toolEntry_name, List.map_cons, ih]; rfl

theorem tools_messageContext (user : KiroUserInputMessage) (tools : List KiroTool) (results : List KiroToolResult)
    (held : user.userInputMessageContext = messageContext tools results) : user.tools = tools := by
  rw [KiroUserInputMessage.tools, held]
  unfold messageContext
  split
  case isTrue => rfl
  case isFalse neither =>
    simp only [Bool.or_eq_true, Bool.not_eq_true', List.isEmpty_eq_false_iff, not_or, not_not] at neither
    exact neither.1.symm

theorem withEnv_tools (env : Option KiroEnvState) (user : KiroUserInputMessage) : (withEnv env user).tools = user.tools := by
  cases env with
  | none => rfl
  | some env => cases held : user.userInputMessageContext <;> simp [withEnv, KiroUserInputMessage.tools, held]

theorem historyUse_sent (block : Value) :
    (historyUse crates registry (officialWebTools request) block).map (·.name) =
      (sentCall crates registry request block).map (·.kiro) := by
  cases id : block.getStr "id" with
  | none => simp [historyUse, sentCall, id]
  | some _ => cases name : block.getStr "name" <;> simp [historyUse, sentCall, id, name]

theorem finishCurrent_tools {tools : List KiroTool} {user : KiroUserInputMessage}
    (held : user.userInputMessageContext = none ∨ ∃ results, user.userInputMessageContext = messageContext tools results) :
    (finishCurrent options tools request user).tools = tools := by
  have inner : ∀ given : KiroUserInputMessage, given.tools = tools →
      (if options.enablePromptCache then
        { withEnv (parseEnvState (clientSystem request)) given with
          cachePoint := mergedCachePoint (withEnv (parseEnvState (clientSystem request)) given).cachePoint
            (kiroCachePoint request.cacheControl) }
      else withEnv (parseEnvState (clientSystem request)) given).tools = tools := by
    intro given same
    split
    · exact (withEnv_tools _ given).trans same
    · exact (withEnv_tools _ given).trans same
  unfold finishCurrent
  dsimp only
  apply inner
  split
  case isTrue => exact tools_messageContext _ tools [] rfl
  case isFalse present =>
    obtain absent | ⟨results, held⟩ := held
    · rw [absent] at present
      exact absurd rfl present
    · exact tools_messageContext user tools results held

section Loop

variable {official : OfficialWebTools} {completed : List String} {tools : List KiroTool}

theorem loop_context (messages : List ClaudeMessage) (history : List KiroHistoryMessage) (current : KiroUserInputMessage)
    (held : current.userInputMessageContext = none ∨
      ∃ results, current.userInputMessageContext = messageContext tools results) :
    let final := (loop crates options registry official completed tools messages (history, current)).2
    final.userInputMessageContext = none ∨ ∃ results, final.userInputMessageContext = messageContext tools results := by
  induction messages generalizing history current with
  | nil => exact held
  | cons message rest ih =>
    rw [loop]
    by_cases role : message.role = "user"
    · rw [step_user role]
      split
      · exact ih _ _ (.inr ⟨_, rfl⟩)
      · exact ih _ _ held
    · obtain ⟨added, stepped, -⟩ := step_other crates options registry official completed tools role history current
        rest.isEmpty
      rw [stepped]
      exact ih _ _ held

theorem loop_uses (messages : List ClaudeMessage) (history : List KiroHistoryMessage) (current : KiroUserInputMessage) :
    (loop crates options registry official completed tools messages (history, current)).1.flatMap turnUses =
      history.flatMap turnUses ++ (messages.filter (·.role = "assistant")).flatMap fun message =>
        (message.content.blocks.filter (isPendingUse completed)).filterMap (historyUse crates registry official) := by
  induction messages generalizing history current with
  | nil => simp [loop]
  | cons message rest ih =>
    rw [loop]
    unfold step
    dsimp only
    split
    case h_1 role =>
      split
      · rw [ih]
        simp [role]
      · rw [ih]
        simp [role, turnUses, userTurn]
    case h_2 role =>
      rw [ih]
      simp [role, turnUses, assistantTurn, assistantParts]
    case h_3 user assistant =>
      rw [ih, List.filter_cons_of_neg (by simpa using assistant)]

end Loop

theorem no_uses_before (history : List KiroHistoryMessage) (system : String) (mark : Option KiroCachePoint) :
    (protectedPair options system mark ++ sanitizeHistory options history).flatMap turnUses = history.flatMap turnUses := by
  have pair : (protectedPair options system mark).flatMap turnUses = [] := by
    unfold protectedPair
    split <;> rfl
  rw [List.flatMap_append, pair, List.nil_append]
  unfold sanitizeHistory
  split
  · split <;> rfl
  · rfl

variable (options) in
theorem shown_uses (draws : Draws) (registered : ToolNameRegistry.new crates.sha256 (catalogue request) = some registry) :
    ∃ payload, claudeToKiro crates options draws request = some payload ∧
      payload.conversationState.currentMessage.userInputMessage =
        finishCurrent options (sentTools crates options registry request) request
          (looped crates options registry request).2 ∧
      (turns payload).flatMap turnUses = ((conversation options request).filter (·.role = "assistant")).flatMap
        fun message => (message.content.blocks.filter (isPendingUse (completedServerToolIds request))).filterMap
          (historyUse crates registry (officialWebTools request)) := by
  obtain ⟨payload, translated, current, whole⟩ :=
    claudeToKiro_turns crates options registry request draws registered
  refine ⟨payload, translated, current, ?_⟩
  rw [whole, ← List.append_assoc, List.flatMap_append, no_uses_before, looped, loop_uses]
  simp [turnUses, userTurn]

theorem sentNames_eq (draws : Draws)
    (registered : ToolNameRegistry.new crates.sha256 (catalogue request) = some registry) :
    ∃ payload, claudeToKiro crates options draws request = some payload ∧
      sentNames payload =
        (sentDefinitions crates registry request ++ sentCalls crates options registry request).map (·.kiro) := by
  obtain ⟨payload, translated, current, calls⟩ := shown_uses options draws registered
  refine ⟨payload, translated, ?_⟩
  have definitions : payload.conversationState.currentMessage.userInputMessage.tools =
      sentTools crates options registry request := by
    rw [current]
    exact finishCurrent_tools (loop_context _ _ _ (.inl rfl))
  rw [sentNames, definitions, sentTools_names, calls, List.map_append]
  congr 1
  rw [sentCalls, List.map_flatMap, List.map_flatMap]
  refine List.flatMap_congr fun message _ => ?_
  rw [List.map_filterMap, List.map_filterMap]
  exact congrArg (fun f => List.filterMap f _) (funext historyUse_sent)

theorem mem_claudeLoadedTools {tool : ClaudeTool} (loaded : tool ∈ claudeLoadedTools request) : tool ∈ request.tools := by
  unfold claudeLoadedTools at loaded
  split at loaded
  · cases loaded
  · exact List.mem_of_mem_filter loaded
  · exact List.mem_of_mem_filter loaded

theorem webSearch_formed {sent : Sent} (client : sent.client = "web_search") (kiro : sent.kiro = "web_search") :
    sent.Formed crates.sha256 registry :=
  .inr ⟨kiro.trans client.symm, by rw [client, toolName_webSearch], by rw [client]; decide⟩

theorem webFetch_formed {sent : Sent} (client : sent.client = "web_fetch") (kiro : sent.kiro = "web_fetch") :
    sent.Formed crates.sha256 registry :=
  .inr ⟨kiro.trans client.symm, by rw [client, toolName_webFetch], by rw [client]; decide⟩

theorem definition_formed (official : OfficialNames request) {x : Sent}
    (sent : x ∈ sentDefinitions crates registry request) : x.Formed crates.sha256 registry := by
  obtain ⟨tool, loaded, rfl⟩ := List.mem_map.1 sent
  have named := official tool (mem_claudeLoadedTools loaded)
  by_cases search_tool : isToolSearchTool tool = true
  · exact .inl (by simp [definitionName, search_tool])
  · by_cases search : declares "web_search" tool = true
    · exact webSearch_formed (named.1 search) (by simp [definitionName, search_tool, search])
    · by_cases fetch : declares "web_fetch" tool = true
      · exact webFetch_formed (named.2 fetch) (by simp [definitionName, search_tool, search, fetch])
      · exact .inl (by simp [definitionName, search_tool, search, fetch])

theorem call_formed (right : ToolNameRegistry.Registered crates.sha256 (ToolNameRegistry.originals (catalogue request))
      (ToolNameRegistry.originals (catalogue request)).reverse registry) {x : Sent}
    (sent : x ∈ sentCalls crates options registry request) (listed : x.Listed (catalogue request)) :
    x.Formed crates.sha256 registry := by
  obtain ⟨message, -, inside⟩ := List.mem_flatMap.1 sent
  obtain ⟨block, -, call⟩ := List.mem_filterMap.1 inside
  simp only [sentCall, Option.bind_eq_bind, Option.bind_eq_some_iff, Option.pure_def, Option.some.injEq] at call
  obtain ⟨id, -, name, -, rfl⟩ := call
  obtain ⟨known, nonempty, itself⟩ := listed
  dsimp only at known nonempty itself
  have registered : registry.containsOriginal name = true := by
    have done := List.mem_reverse.2 (ToolNameRegistry.mem_originals.2 ⟨known, nonempty⟩)
    rw [ToolNameRegistry.containsOriginal, ToolNameRegistry.contains, right.lookup_kiroName done, Option.isSome_some]
  generalize (block.kind == some "server_tool_use") = server at itself ⊢
  by_cases search : (server && (officialWebTools request).search && matchesTypeFamily name "web_search") = true
  · have own : name = "web_search" := by
      by_contra other
      simp only [Bool.and_eq_true] at search
      simp [isAlias, search.1.1, search.1.2, search.2, other] at itself
    exact webSearch_formed own (by simp [normalizeHistoryToolName, search])
  · by_cases fetch : (server && (officialWebTools request).fetch && matchesTypeFamily name "web_fetch") = true
    · have own : name = "web_fetch" := by
        by_contra other
        simp only [Bool.and_eq_true] at fetch
        simp [isAlias, fetch.1.1, fetch.1.2, fetch.2, other] at itself
      exact webFetch_formed own (by simp only [normalizeHistoryToolName, search, fetch, if_true, if_false, Bool.false_eq_true])
    · exact .inl (by simp only [normalizeHistoryToolName, search, fetch, registered, if_true, if_false, Bool.false_eq_true])

end Names

end Claude

namespace OpenAi

variable (crates : Crates) (options : TranslationOptions) (registry : ToolNameRegistry) (request : OpenAiRequest)

def sentAs (name : String) : Sent := { client := name, kiro := registry.kiroName crates.sha256 name }

def sentDefinitions : List Sent := ((selectedTools request).filterMap definedName).map (sentAs crates registry)

def calledName (call : Value) : Option String := do
  let _ ← call.getStr "id"
  match call.get "function" with
  | some function =>
    let _ ← function.get "arguments"
    function.getStr "name"
  | none => (call.get "custom").bind fun custom => custom.getStr "name"

def sentCalls : List Sent :=
  ((request.messages.filter (·.role = "assistant")).flatMap fun message =>
    message.toolCalls.filterMap calledName).map (sentAs crates registry)

section Names

variable {crates options registry request}

variable (crates options registry) in
theorem toolEntry_name (tool : OpenAiTool) :
    ((toolEntry crates options registry tool).map (·.1.filterMap KiroTool.sentName)).getD [] =
      ((definedName tool).map fun name => (sentAs crates registry name).kiro).toList := by
  have marks (mark : Option KiroCachePoint) : (mark.toList.map KiroTool.cachePoint).filterMap KiroTool.sentName = [] := by
    cases mark <;> rfl
  cases body : definition tool with
  | none => simp [toolEntry, definedName, body]
  | some body' =>
    cases name : body'.getStr "name" with
    | none => simp [toolEntry, definedName, body, name]
    | some name' => simp [toolEntry, definedName, body, name, sentAs, Claude.kiroToolNamed_name, marks]

theorem toolUse_name (call : Value) :
    (toolUse crates registry call).map (·.name) = (calledName call).map fun name => (sentAs crates registry name).kiro := by
  cases id : call.getStr "id" with
  | none => simp [toolUse, calledName, id]
  | some _ =>
    cases function : call.get "function" with
    | some body =>
      cases arguments : body.get "arguments" <;> cases name : body.getStr "name" <;>
        simp [toolUse, calledName, id, function, arguments, name, sentAs]
    | none =>
      cases custom : call.get "custom" with
      | none => simp [toolUse, calledName, id, function, custom]
      | some body => cases name : body.getStr "name" <;> simp [toolUse, calledName, id, function, custom, name, sentAs]

theorem step_uses (s : Pending) (message : OpenAiMessage) (rest : List OpenAiMessage) :
    (step crates options registry s message rest).history.flatMap turnUses = s.history.flatMap turnUses ++
      if message.role = "assistant" then message.toolCalls.filterMap (toolUse crates registry) else [] := by
  unfold step
  dsimp only
  split
  case h_1 role =>
    split <;> simp [role, turnUses, userTurn]
  case h_2 role => simp [role, turnUses, assistantTurn, assistantMessage]
  case h_3 role =>
    split <;> simp [role, turnUses, userTurn]
  case h_4 assistant _ => rw [if_neg assistant, List.append_nil]

theorem loop_uses (messages : List OpenAiMessage) (s : Pending) :
    (loop crates options registry messages s).history.flatMap turnUses = s.history.flatMap turnUses ++
      (messages.filter (·.role = "assistant")).flatMap fun message => message.toolCalls.filterMap (toolUse crates registry) := by
  induction messages generalizing s with
  | nil => simp [loop]
  | cons message rest ih =>
    rw [loop, ih, step_uses, List.append_assoc]
    by_cases role : message.role = "assistant"
    · simp [role]
    · simp [role]

theorem entries_names (tools : List OpenAiTool) :
    ((tools.filterMap (toolEntry crates options registry)).flatMap (·.1)).filterMap KiroTool.sentName =
      ((tools.filterMap definedName).map (sentAs crates registry)).map (·.kiro) := by
  induction tools with
  | nil => rfl
  | cons tool rest ih =>
    have own := toolEntry_name crates options registry tool
    cases entry : toolEntry crates options registry tool <;> cases name : definedName tool <;>
      simp_all

theorem openai_sentNames_eq (draws : Draws)
    (registered : ToolNameRegistry.new crates.sha256 (catalogue request) = some registry) :
    ∃ payload, openaiToKiro crates options draws request = some payload ∧
      sentNames payload = (sentDefinitions crates registry request ++ sentCalls crates registry request).map (·.kiro) := by
  refine ⟨_, by rw [openaiToKiro, registered]; rfl, ?_⟩
  have calls : ∀ user system mark, (protectedPair options system mark ++
      (loop crates options registry (request.messages.filter fun message => !isSystem message) {}).history ++
        [userTurn user]).flatMap turnUses =
      (request.messages.filter (·.role = "assistant")).flatMap fun message =>
        message.toolCalls.filterMap (toolUse crates registry) := by
    intro user system mark
    have assistants : (request.messages.filter fun message => !isSystem message).filter (·.role = "assistant") =
        request.messages.filter (·.role = "assistant") := by
      rw [List.filter_filter]
      refine List.filter_congr fun message _ => ?_
      by_cases role : message.role = "assistant"
      · simp [role, isSystem]
      · simp [role]
    rw [List.flatMap_append, List.flatMap_append, protectedPair_empty (fun _ _ => rfl) rfl, loop_uses, assistants]
    simp [turnUses, userTurn]
  rw [sentNames, turns]
  dsimp only
  rw [calls, Claude.tools_messageContext _ _ _ rfl, entries_names, sentDefinitions, sentCalls, List.map_append]
  congr 1
  rw [List.map_flatMap, List.map_map, List.map_flatMap]
  refine List.flatMap_congr fun message _ => ?_
  rw [List.map_filterMap, List.map_filterMap]
  exact congrArg (fun f => List.filterMap f _) (funext toolUse_name)

theorem openai_formed {x : Sent} (sent : x ∈ sentDefinitions crates registry request ++ sentCalls crates registry request) :
    x.Formed crates.sha256 registry := by
  rw [sentDefinitions, sentCalls, ← List.map_append] at sent
  obtain ⟨name, -, rfl⟩ := List.mem_map.1 sent
  exact .inl rfl

end Names

end OpenAi

/-- A catalogue is registered reversibly under plain names, and in a translated request no
two different names of the catalogue go out under one, in definitions or in past calls. -/
theorem tool_names_survive (crates : Crates) (options : TranslationOptions) (draws : Draws) :
    (∀ names, ToolNameRegistry.EnoughDigests crates.sha256 names →
      ∃ registry, ToolNameRegistry.new crates.sha256 names = some registry ∧
        ∀ name ∈ names, name ≠ "" →
          Plain (registry.kiroName crates.sha256 name) ∧
          registry.restoreMap.lookup (registry.kiroName crates.sha256 name) = some name ∧
          ∀ other ∈ names, other ≠ "" →
            registry.kiroName crates.sha256 other = registry.kiroName crates.sha256 name → other = name) ∧
    (∀ request : ClaudeRequest, ToolNameRegistry.EnoughDigests crates.sha256 (Claude.catalogue request) →
      Claude.OfficialNames request →
      ∃ registry payload, ToolNameRegistry.new crates.sha256 (Claude.catalogue request) = some registry ∧
        Claude.claudeToKiro crates options draws request = some payload ∧
        let sent := Claude.sentDefinitions crates registry request ++ Claude.sentCalls crates options registry request
        sentNames payload = sent.map (·.kiro) ∧ Apart (Claude.catalogue request) sent) ∧
    (∀ request : OpenAiRequest, ToolNameRegistry.EnoughDigests crates.sha256 (OpenAi.catalogue request) →
      ∃ registry payload, ToolNameRegistry.new crates.sha256 (OpenAi.catalogue request) = some registry ∧
        OpenAi.openaiToKiro crates options draws request = some payload ∧
        let sent := OpenAi.sentDefinitions crates registry request ++ OpenAi.sentCalls crates registry request
        sentNames payload = sent.map (·.kiro) ∧ Apart (OpenAi.catalogue request) sent) := by
  refine ⟨?_, ?_, ?_⟩
  · intro names enough
    obtain ⟨registry, registered, right⟩ := ToolNameRegistry.new_registers crates.sha256 names enough
    refine ⟨registry, registered, fun name member nonempty => ?_⟩
    have known := List.mem_reverse.2 (ToolNameRegistry.mem_originals.2 ⟨member, nonempty⟩)
    refine ⟨right.kiroName_plain known, right.restored known, fun other other_member other_nonempty same => ?_⟩
    exact right.kiroName_inj (List.mem_reverse.2 (ToolNameRegistry.mem_originals.2 ⟨other_member, other_nonempty⟩))
      known same
  · intro request enough official
    obtain ⟨registry, registered, right⟩ := ToolNameRegistry.new_registers crates.sha256 _ enough
    obtain ⟨payload, translated, names⟩ := Claude.sentNames_eq draws registered
    refine ⟨registry, payload, registered, translated, names, apart_of_formed right fun x sent listed => ?_⟩
    obtain defined | called := List.mem_append.1 sent
    · exact Claude.definition_formed official defined
    · exact Claude.call_formed right called listed
  · intro request enough
    obtain ⟨registry, registered, right⟩ := ToolNameRegistry.new_registers crates.sha256 _ enough
    obtain ⟨payload, translated, names⟩ := OpenAi.openai_sentNames_eq draws registered
    exact ⟨registry, payload, registered, translated, names,
      apart_of_formed right fun x sent _ => OpenAi.openai_formed sent⟩

/-- The digests of the first two nonces for the names `mcp.a/read` and `mcp_a/read`. -/
def twoDigests : Sha256 := fun bytes =>
  if bytes = Bytes.utf8 "mcp.a/read\x000" then
    #v[135, 182, 98, 16, 173, 215, 16, 214, 152, 182, 121, 95, 52, 173, 223, 43, 108, 91, 148, 190, 2, 121, 130, 50,
      155, 218, 89, 69, 234, 115, 11, 58]
  else if bytes = Bytes.utf8 "mcp.a/read\x001" then
    #v[195, 96, 172, 30, 90, 125, 50, 139, 169, 172, 140, 185, 39, 52, 181, 53, 104, 214, 101, 137, 148, 246, 81, 147,
      231, 194, 241, 197, 104, 166, 249, 166]
  else if bytes = Bytes.utf8 "mcp_a/read\x000" then
    #v[138, 130, 232, 243, 131, 240, 23, 137, 199, 61, 233, 5, 176, 6, 148, 50, 127, 114, 244, 143, 82, 102, 48, 165,
      189, 32, 196, 208, 191, 59, 14, 201]
  else if bytes = Bytes.utf8 "mcp_a/read\x001" then
    #v[85, 100, 246, 47, 99, 13, 102, 168, 163, 155, 7, 195, 228, 28, 63, 217, 144, 66, 79, 242, 248, 147, 86, 141,
      135, 138, 97, 57, 39, 77, 107, 113]
  else Vector.replicate 32 0

def twoCrates : Crates := { OpenAi.sampleCrates with sha256 := twoDigests }

def twoNames : ClaudeRequest :=
  { messages := [{ role := "user", content := .string "Read." }]
    tools := [{ name := "mcp.a/read" }, { name := "mcp_a/read" }] }

theorem twoDigests_enough : ToolNameRegistry.EnoughDigests twoDigests ["mcp.a/read", "mcp_a/read"] := by
  intro name member
  refine ⟨{0, 1}, by decide, by decide, ?_⟩
  simp only [List.mem_cons, List.not_mem_nil, or_false] at member
  obtain rfl | rfl := member
  all_goals
    intro n n_tried m m_tried same
    simp only [Finset.coe_insert, Finset.coe_singleton, Set.mem_insert_iff, Set.mem_singleton_iff] at n_tried m_tried
    obtain rfl | rfl := n_tried <;> obtain rfl | rfl := m_tried
    · rfl
    · exact absurd same (by decide)
    · exact absurd same (by decide)
    · rfl

theorem tool_names_survive_two :
    ∃ registry payload, ToolNameRegistry.new twoDigests ["mcp.a/read", "mcp_a/read"] = some registry ∧
      Claude.claudeToKiro twoCrates OpenAi.sampleOptions OpenAi.sampleDraws twoNames = some payload ∧
      sentNames payload = ["mcp_a_read_87b66210add710d6", "mcp_a_read_8a82e8f383f01789"] ∧
      Apart ["mcp.a/read", "mcp_a/read"] (Claude.sentDefinitions twoCrates registry twoNames) := by
  obtain ⟨registry, payload, registered, translated, -, apart⟩ :=
    (tool_names_survive twoCrates OpenAi.sampleOptions OpenAi.sampleDraws).2.1 twoNames twoDigests_enough
      (by unfold Claude.OfficialNames; decide)
  have names : (Claude.claudeToKiro twoCrates OpenAi.sampleOptions OpenAi.sampleDraws twoNames).map sentNames =
      some ["mcp_a_read_87b66210add710d6", "mcp_a_read_8a82e8f383f01789"] := by decide +kernel
  rw [translated] at names
  refine ⟨registry, payload, registered, translated, Option.some.inj names, ?_⟩
  exact fun x x_sent y y_sent => apart x (List.mem_append_left _ x_sent) y (List.mem_append_left _ y_sent)

def aliasRequest : ClaudeRequest :=
  { messages := [
      { role := "user", content := .string "Go." },
      { role := "assistant", content := .array [
        .object [("id", .string "c1"), ("input", .object []), ("name", .string "web_search_20250305"),
          ("type", .string "tool_use")],
        .object [("id", .string "c2"), ("input", .object []), ("name", .string "read.file"),
          ("type", .string "tool_use")]] },
      { role := "user", content := .array [
        .object [("content", .string "one"), ("tool_use_id", .string "c1"), ("type", .string "tool_result")],
        .object [("content", .string "two"), ("tool_use_id", .string "c2"), ("type", .string "tool_result")]] }]
    tools := [{ type := some "web_search_20250305", name := "web_search" }, { name := "read_file" }] }

theorem names_shared :
    (ToolNameRegistry.new OpenAi.sampleCrates.sha256 (Claude.catalogue aliasRequest)).map (fun registry =>
      (Claude.sentDefinitions OpenAi.sampleCrates registry aliasRequest ++
        Claude.sentCalls OpenAi.sampleCrates OpenAi.sampleOptions registry aliasRequest).map fun sent =>
          (sent.client, sent.kiro)) =
      some [("web_search", "web_search"), ("read_file", "read_file"), ("web_search_20250305", "web_search"),
        ("read.file", "read_file")] ∧
    (Claude.claudeToKiro OpenAi.sampleCrates OpenAi.sampleOptions OpenAi.sampleDraws aliasRequest).map sentNames =
      some ["web_search", "read_file", "web_search", "read_file"] := by
  constructor
  · decide
  · decide +kernel

end KiroProxy

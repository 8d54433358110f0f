import KiroProxy.Translate.OpenAi
import Mathlib.Data.List.Forall2

/-! Nothing of a chat request is lost or sent twice on the way to Kiro. Each Kiro message
carries a group of neighbouring request messages, and the groups are the request in order. -/
namespace KiroProxy.OpenAi

@[simp] theorem toolResults_messageContext (user : KiroUserInputMessage) (tools : List KiroTool)
    (results : List KiroToolResult) (held : user.userInputMessageContext = messageContext tools results) :
    user.toolResults = results := by
  rw [KiroUserInputMessage.toolResults, held]
  unfold messageContext
  split
  case isTrue => rfl
  case isFalse neither =>
    simp only [Bool.or_eq_true, Bool.not_eq_true', List.isEmpty_eq_false_iff, not_or, not_not] at neither
    exact neither.2.symm

def isTool (message : OpenAiMessage) : Bool := message.role == "tool"

def isAssistant (message : OpenAiMessage) : Bool := message.role == "assistant"

def isAttaching (message : OpenAiMessage) : Bool := message.role == "user" || message.role == "tool"

def sentResult (message : OpenAiMessage) : Option KiroToolResult :=
  message.toolCallId.map fun id =>
    { content := [{ text := messageText message }], status := "success", toolUseId := id }

/-- A call as the protocol writes it, with its id and the input it stands for. -/
inductive WellFormed (crates : Crates) (call : Value) : String → Value → Prop
  | function {id name arguments : String} {function : Value} (named : call.getStr "id" = some id)
      (held : call.get "function" = some function) (called : function.getStr "name" = some name)
      (given : function.getStr "arguments" = some arguments) :
      WellFormed crates call id ((crates.fromStr arguments).getD (.object [("raw", .string arguments)]))
  | custom {id name input : String} {custom : Value} (named : call.getStr "id" = some id)
      (plain : call.get "function" = none) (held : call.get "custom" = some custom)
      (called : custom.getStr "name" = some name) (given : custom.getStr "input" = some input) :
      WellFormed crates call id (.object [("input", .string input)])

theorem toolUse_of_wellFormed {crates : Crates} {call input : Value} {id : String}
    (well : WellFormed crates call id input) (registry : ToolNameRegistry) :
    ∃ use, toolUse crates registry call = some use ∧ use.toolUseId = id ∧ use.input = input := by
  cases well with
  | @function name _ _ named held called given =>
    obtain ⟨value, found, text⟩ := Option.bind_eq_some_iff.1 given
    refine ⟨⟨_, registry.kiroName crates.sha256 name, _⟩, ?_, rfl, rfl⟩
    simp only [toolUse, named, held, called, found, text, Option.bind_eq_bind, Option.bind_some, Option.getD_some]
    rfl
  | @custom name _ _ named plain held called given =>
    refine ⟨⟨_, registry.kiroName crates.sha256 name, _⟩, ?_, rfl, rfl⟩
    simp [toolUse, named, plain, held, called, given]

structure Attached (crates : Crates) (group : List OpenAiMessage) (user : KiroUserInputMessage) : Prop where
  results : user.toolResults = (group.filter isTool).filterMap sentResult
  images : user.images = group.flatMap (messageImages crates)
  documents : user.documents = group.flatMap (messageDocuments crates)

/-- One Kiro message for a user message, for an assistant message, or for a run of tool
messages. The empty run stands for a current message that the request does not have. -/
inductive Carries (crates : Crates) (registry : ToolNameRegistry) : List OpenAiMessage → KiroHistoryMessage → Prop
  | user {message : OpenAiMessage} {user : KiroUserInputMessage} (role : message.role = "user")
      (attached : Attached crates [message] user)
      (text : blank (messageText message) = false → user.content = messageText message) :
      Carries crates registry [message] (userTurn user)
  | assistant {message : OpenAiMessage} {assistant : KiroAssistantMessage} (role : message.role = "assistant")
      (uses : assistant.toolUses = message.toolCalls.filterMap (toolUse crates registry))
      (text : blank (assistantText message) = false → assistant.content = assistantText message) :
      Carries crates registry [message] (assistantTurn assistant)
  | tools {group : List OpenAiMessage} {user : KiroUserInputMessage} (roles : ∀ message ∈ group, message.role = "tool")
      (attached : Attached crates group user) : Carries crates registry group (userTurn user)

variable {group : List OpenAiMessage}

section Loop

variable {crates : Crates} {options : TranslationOptions} {registry : ToolNameRegistry}

theorem makeUser_attached {text : String} {images : List KiroImage} {documents : List KiroDocument}
    {results : List KiroToolResult} {mark : Option KiroCachePoint}
    (same_results : results = (group.filter isTool).filterMap sentResult)
    (same_images : images = group.flatMap (messageImages crates))
    (same_documents : documents = group.flatMap (messageDocuments crates)) :
    Attached crates group (makeUser options text images documents results mark) where
  results := by rw [toolResults_messageContext _ [] results rfl, same_results]
  images := same_images
  documents := same_documents

variable {message : OpenAiMessage} {s : Pending}

theorem user_carries (role : message.role = "user") (mark : Option KiroCachePoint) :
    Carries crates registry [message] (userTurn (makeUser options (messageText message) (messageImages crates message)
      (messageDocuments crates message) [] mark)) := by
  refine .user role (makeUser_attached (by simp [isTool, role]) (by simp) (by simp)) ?_
  intro filled
  simp [makeUser, filled]

theorem assistant_carries (role : message.role = "assistant") :
    Carries crates registry [message] (assistantTurn (assistantMessage crates options registry message)) := by
  refine .assistant role rfl ?_
  intro filled
  simp [assistantMessage, filled]

structure Waiting (crates : Crates) (group : List OpenAiMessage) (s : Pending) : Prop where
  roles : ∀ message ∈ group, message.role = "tool"
  results : s.results = (group.filter isTool).filterMap sentResult
  images : s.images = group.flatMap (messageImages crates)
  documents : s.documents = group.flatMap (messageDocuments crates)

theorem Waiting.through {t : Pending} (waits : Waiting crates group s) (results : t.results = s.results)
    (images : t.images = s.images) (documents : t.documents = s.documents) :
    Waiting crates group t :=
  ⟨waits.roles, results.trans waits.results, images.trans waits.images, documents.trans waits.documents⟩

theorem Waiting.empty (s : Pending) (results : s.results = []) (images : s.images = [])
    (documents : s.documents = []) : Waiting crates [] s :=
  ⟨by simp, results, images, documents⟩

theorem current_carries (waits : Waiting crates group s) (tools : List KiroTool) :
    Carries crates registry group (userTurn (current options tools s)) := by
  refine .tools waits.roles ⟨?_, waits.images, waits.documents⟩
  rw [toolResults_messageContext _ tools s.results rfl, waits.results]

variable (crates options registry) in
theorem step_user (role : message.role = "user") {rest : List OpenAiMessage} (more : rest ≠ []) (s : Pending) :
    step crates options registry s message rest =
      { s with
        history := s.history ++ [userTurn (makeUser options (messageText message) (messageImages crates message)
          (messageDocuments crates message) [] (messageCachePoint message))]
        cachePoint := none } := by
  simp [step, role, more]

variable (crates options registry) in
theorem step_assistant (role : message.role = "assistant") (rest : List OpenAiMessage) (s : Pending) :
    step crates options registry s message rest =
      { s with history := s.history ++ [assistantTurn (assistantMessage crates options registry message)] } := by
  simp [step, role]

variable (options registry) in
theorem step_tool (role : message.role = "tool") (rest : List OpenAiMessage) (waits : Waiting crates group s) :
    (∃ user, step crates options registry s message rest =
        { s with
          history := s.history ++ [userTurn user], images := [], documents := [], results := []
          resultCachePoint := none } ∧
      Carries crates registry (group ++ [message]) (userTurn user)) ∨
    (Waiting crates (group ++ [message]) (step crates options registry s message rest) ∧
      (∀ next ∈ rest.head?, next.role = "tool") ∧
      (step crates options registry s message rest).history = s.history ∧
      (step crates options registry s message rest).text = s.text) := by
  have roles : ∀ other ∈ group ++ [message], other.role = "tool" := by
    intro other member
    obtain inside | inside := List.mem_append.1 member
    · exact waits.roles other inside
    · rw [List.mem_singleton.1 inside, role]
  have results : s.results ++ (sentResult message).toList =
      ((group ++ [message]).filter isTool).filterMap sentResult := by
    have last : [message].filter isTool = [message] := by simp [isTool, role]
    rw [waits.results, List.filter_append, List.filterMap_append, last, List.filterMap_cons]
    cases sentResult message <;> rfl
  have images : s.images ++ messageImages crates message = (group ++ [message]).flatMap (messageImages crates) := by
    simp [waits.images]
  have documents : s.documents ++ messageDocuments crates message =
      (group ++ [message]).flatMap (messageDocuments crates) := by
    simp [waits.documents]
  by_cases sends : (!rest.isEmpty && !(rest.head?.any fun next => next.role == "tool")) = true
  · left
    refine ⟨makeUser options "Tool results provided." _ _ _
      (mergedCachePoint s.resultCachePoint (messageCachePoint message)), ?_,
      .tools roles (makeUser_attached results images documents)⟩
    simp only [step, role, sends, if_true]
    rfl
  · right
    have stays : step crates options registry s message rest =
        { s with
          images := s.images ++ messageImages crates message
          documents := s.documents ++ messageDocuments crates message
          results := s.results ++ (sentResult message).toList
          resultCachePoint := mergedCachePoint s.resultCachePoint (messageCachePoint message) } := by
      simp only [step, role, sends]
      rfl
    rw [stays]
    refine ⟨⟨roles, results, images, documents⟩, ?_, rfl, rfl⟩
    intro next first
    cases rest with
    | nil => cases first
    | cons head tail =>
      obtain rfl : head = next := by simpa using first
      simpa using sends

variable (options registry) in
/-- The whole loop, by induction over the messages: what waits and the messages ahead are
the groups of the messages that the loop adds and of the current message. -/
theorem loop_carries (tools : List KiroTool) (messages : List OpenAiMessage)
    (roles : ∀ message ∈ messages, message.role = "user" ∨ message.role = "assistant" ∨ message.role = "tool")
    (group : List OpenAiMessage) (s : Pending) (waits : Waiting crates group s)
    (next_tool : group ≠ [] → ∀ next ∈ messages.head?, next.role = "tool") :
    ∃ groups turns, (loop crates options registry messages s).history = s.history ++ turns ∧
      groups.flatten = group ++ messages ∧
      List.Forall₂ (Carries crates registry) groups
        (turns ++ [userTurn (current options tools (loop crates options registry messages s))]) := by
  induction messages generalizing group s with
  | nil =>
    refine ⟨[group], [], by simp [loop], by simp, ?_⟩
    exact .cons (current_carries waits tools) .nil
  | cons message rest ih =>
    have later := ih fun other member => roles other (List.mem_cons_of_mem message member)
    have unless_tool (other : message.role ≠ "tool") : group = [] := by
      by_contra some
      exact other (next_tool some message rfl)
    rw [loop]
    obtain role | role | role := roles message List.mem_cons_self
    · obtain rfl := unless_tool (by rw [role]; decide)
      by_cases more : rest = []
      · subst more
        refine ⟨[[message]], [], ?_, by simp, .cons (.user role ⟨?_, ?_, ?_⟩ ?_) .nil⟩
        · simp [loop, step, role]
        · rw [toolResults_messageContext _ tools _ rfl]
          simp [loop, step, role, isTool, waits.results]
        · simp [loop, step, role, current]
        · simp [loop, step, role, current]
        · intro filled
          simp [loop, step, role, current, filled]
      · have now := step_user crates options registry role more s
        obtain ⟨groups, turns, added, flat, carried⟩ := later [] (step crates options registry s message rest)
          (by rw [now]; exact waits.through rfl rfl rfl) (fun empty => absurd rfl empty)
        refine ⟨[message] :: groups, userTurn (makeUser options _ _ _ _ _) :: turns, ?_, by simp [flat],
          .cons (user_carries role (messageCachePoint message)) carried⟩
        rw [added, now, List.append_assoc]
        rfl
    · obtain rfl := unless_tool (by rw [role]; decide)
      have now := step_assistant crates options registry role rest s
      obtain ⟨groups, turns, added, flat, carried⟩ := later [] (step crates options registry s message rest)
        (by rw [now]; exact waits.through rfl rfl rfl) (fun empty => absurd rfl empty)
      refine ⟨[message] :: groups, assistantTurn (assistantMessage crates options registry message) :: turns, ?_,
        by simp [flat], .cons (assistant_carries role) carried⟩
      rw [added, now, List.append_assoc]
      rfl
    · obtain ⟨user, now, sent⟩ | ⟨waits_on, tool_next, same_history, -⟩ :=
        step_tool options registry role rest waits
      · obtain ⟨groups, turns, added, flat, carried⟩ := later [] (step crates options registry s message rest)
          (by rw [now]; exact Waiting.empty _ rfl rfl rfl) (fun empty => absurd rfl empty)
        refine ⟨(group ++ [message]) :: groups, userTurn user :: turns, ?_, by simp [flat], .cons sent carried⟩
        rw [added, now, List.append_assoc]
        rfl
      · obtain ⟨groups, turns, added, flat, carried⟩ := later (group ++ [message]) _ waits_on fun _ => tool_next
        exact ⟨groups, turns, by rw [added, same_history], by simp [flat], carried⟩

end Loop

section Payload

variable {crates : Crates} {registry : ToolNameRegistry}

variable {turn : KiroHistoryMessage}

theorem Carries.results (carried : Carries crates registry group turn) :
    turnResults turn = (group.filter isTool).flatMap fun message => (sentResult message).toList := by
  rw [← List.filterMap_eq_flatMap_toList]
  cases carried with
  | user role attached text => exact attached.results
  | assistant role uses text => simp [turnResults, assistantTurn, isTool, role]
  | tools roles attached => exact attached.results

theorem Carries.uses (carried : Carries crates registry group turn) :
    turnUses turn = (group.filter isAssistant).flatMap fun message =>
      message.toolCalls.filterMap (toolUse crates registry) := by
  cases carried with
  | user role attached text => simp [turnUses, userTurn, isAssistant, role]
  | assistant role uses text => simp [turnUses, assistantTurn, isAssistant, role, uses]
  | tools roles attached =>
    have nobody : group.filter isAssistant = [] := by
      rw [List.filter_eq_nil_iff]
      intro message member
      simp [isAssistant, roles message member]
    rw [nobody]
    rfl

theorem Carries.attachments (carried : Carries crates registry group turn) :
    turnImages turn = (group.filter isAttaching).flatMap (messageImages crates) ∧
      turnDocuments turn = (group.filter isAttaching).flatMap (messageDocuments crates) := by
  cases carried with
  | @user message user role attached text =>
    have whole : [message].filter isAttaching = [message] := by simp [isAttaching, role]
    rw [whole]
    exact ⟨attached.images, attached.documents⟩
  | assistant role uses text => simp [turnImages, turnDocuments, assistantTurn, isAttaching, role]
  | tools roles attached =>
    have whole : group.filter isAttaching = group := by
      rw [List.filter_eq_self]
      intro message member
      simp [isAttaching, roles message member]
    rw [whole]
    exact ⟨attached.images, attached.documents⟩

theorem protectedPair_empty {α : Type} {of : KiroHistoryMessage → List α} {options : TranslationOptions}
    (user : ∀ text mark, of (userTurn (makeUser options text [] [] [] mark)) = [])
    (reply : of (assistantTurn { content := systemPromptAcknowledgement, cachePoint := none, toolUses := [] }) = [])
    (system : String) (mark : Option KiroCachePoint) : (protectedPair options system mark).flatMap of = [] := by
  unfold protectedPair
  split
  · rfl
  · simp [user, reply]

theorem sum_of_carries {α : Type} {of : KiroHistoryMessage → List α} {p : OpenAiMessage → Bool}
    {given : OpenAiMessage → List α} (others : ∀ message, isSystem message = true → p message = false)
    (each : ∀ group turn, Carries crates registry group turn → of turn = (group.filter p).flatMap given)
    {groups : List (List OpenAiMessage)} {sent : List KiroHistoryMessage}
    (carried : List.Forall₂ (Carries crates registry) groups sent) {messages : List OpenAiMessage}
    (flat : groups.flatten = messages.filter fun message => !isSystem message) :
    sent.flatMap of = (messages.filter p).flatMap given := by
  have same : groups.flatten.filter p = messages.filter p := by
    rw [flat, List.filter_filter]
    refine List.filter_congr fun message _ => ?_
    cases system : isSystem message with
    | false => simp
    | true => simp [others message system]
  rw [← same]
  clear flat same
  induction carried with
  | nil => rfl
  | cons first rest ih =>
    rw [List.flatMap_cons, List.flatten_cons, List.filter_append, List.flatMap_append, each _ _ first, ih]

end Payload

theorem openaiToKiro_turns (crates : Crates) (options : TranslationOptions) (draws : Draws) (request : OpenAiRequest)
    (registry : ToolNameRegistry) (registered : ToolNameRegistry.new crates.sha256 (catalogue request) = some registry) :
    let entries := (selectedTools request).filterMap (toolEntry crates options registry)
    let pair := protectedPair options (systemPrompt options request entries) (systemCachePoint options request)
    let s := loop crates options registry (request.messages.filter fun message => !isSystem message) {}
    ∃ payload, openaiToKiro crates options draws request = some payload ∧
      turns payload = pair ++ (s.history ++ [userTurn (current options (entries.flatMap (·.1)) s)]) ∧
      payload.protectedHistoryMessages = pair.length := by
  simp only [openaiToKiro, registered, Option.map_some, Option.some.injEq, exists_eq_left', turns, List.append_assoc,
    and_self]

theorem payload_carries (crates : Crates) (options : TranslationOptions) (draws : Draws) (request : OpenAiRequest)
    (registry : ToolNameRegistry) (registered : ToolNameRegistry.new crates.sha256 (catalogue request) = some registry)
    (roles : ∀ message ∈ request.messages, message.role ∈ ["system", "developer", "user", "assistant", "tool"]) :
    ∃ payload system mark sent groups, openaiToKiro crates options draws request = some payload ∧
      turns payload = protectedPair options system mark ++ sent ∧
      payload.protectedHistoryMessages = (protectedPair options system mark).length ∧
      groups.flatten = request.messages.filter (fun message => !isSystem message) ∧
      List.Forall₂ (Carries crates registry) groups sent := by
  have plain_roles : ∀ message ∈ request.messages.filter (fun message => !isSystem message),
      message.role = "user" ∨ message.role = "assistant" ∨ message.role = "tool" := by
    intro message member
    obtain ⟨inside, outside⟩ := List.mem_filter.1 member
    have listed := roles message inside
    simp only [List.mem_cons, List.not_mem_nil, or_false] at listed
    simp only [isSystem, Bool.not_eq_true', Bool.or_eq_false_iff, beq_eq_false_iff_ne] at outside
    tauto
  obtain ⟨groups, added, history, flat, carried⟩ := loop_carries options registry
    (((selectedTools request).filterMap (toolEntry crates options registry)).flatMap (·.1)) _ plain_roles [] {}
    (Waiting.empty _ rfl rfl rfl) (fun empty => absurd rfl empty)
  rw [List.nil_append] at flat history
  obtain ⟨payload, made, sent, length⟩ := openaiToKiro_turns crates options draws request registry registered
  rw [history] at sent
  exact ⟨payload, _, _, _, groups, made, sent, length, flat, carried⟩

theorem enough_of_one (sha : Sha256) (name : String) : ToolNameRegistry.EnoughDigests sha [name] :=
  fun _ _ => ⟨{0}, by simp, by decide, by simp⟩

def sampleCrates : Crates :=
  { sha256 := fun _ => Vector.replicate 32 0
    decode := fun text => if text = "AAAA" then some [0, 0, 0] else none
    encode := fun _ => ""
    fromStr := fun text => if text = "[]" then some (.array []) else none
    toStringPretty := fun _ => "[]" }

def sampleCall : Value := .object
  [("function", .object [("arguments", .string "[]"), ("name", .string "read")]), ("id", .string "c1")]

def samplePicture : Value := .array [.object
  [("image_url", .object [("url", .string "data:image/png;base64,AAAA")]), ("type", .string "image_url")]]

def sampleRequest : OpenAiRequest :=
  { messages := [
      { role := "system", content := some (.string "Be brief.") },
      { role := "user", content := some (.string "Look.") },
      { role := "assistant", toolCalls := [sampleCall] },
      { role := "tool", toolCallId := some "c1", content := some samplePicture },
      { role := "user", content := some (.string "And now?") }]
    tools := [{ type := "function", body := .object [("function", .object [("name", .string "read")])] }] }

def sampleOptions : TranslationOptions := { modelId := "claude-sonnet-4.5", origin := "AI_EDITOR" }

def sampleDraws : Draws := { continuationId := "a", conversationId := "b", modelFields := none }

end KiroProxy.OpenAi

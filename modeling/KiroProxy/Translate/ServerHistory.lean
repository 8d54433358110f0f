import KiroProxy.Translate.Validate

/-! The past calls of the proxy's own tools in a request: what `validate_claude` demands of them, and which of them
are taken up again. -/
namespace KiroProxy.Claude

/-! ### Blocks of the assistant -/

def validateEachResult (check : Value → String → Except ValidationError Unit) (field : String) (results : List Value) :
    Except ValidationError Unit :=
  validateEach (fun place result => check result place) field 0 results

def validateWebSearchEntry (result : Value) (field : String) : Except ValidationError Unit :=
  if result.kind ≠ some "web_search_result" then invalid (field ++ ".type") "expected web_search_result"
  else if emptyStr result "url" then invalid (field ++ ".url") "is required"
  else if emptyStr result "title" then invalid (field ++ ".title") "is required"
  else if emptyStr result "encrypted_content" then
    invalid (field ++ ".encrypted_content") "is required so web search results can be replayed on later turns"
  else if notTextOrNull result "page_age" then invalid (field ++ ".page_age") "expected a string or null"
  else .ok ()

def validateWebSearchResult (value : Option Value) (field : String) : Except ValidationError Unit :=
  let unexpected := invalid field "expected web search result blocks or a web_search_tool_result_error object"
  match value with
  | some (.array results) => validateEachResult validateWebSearchEntry field results
  | some (.object fields) =>
    if (Value.object fields).kind = some "web_search_tool_result_error" then
      if emptyStr (.object fields) "error_code" then invalid (field ++ ".error_code") "is required" else .ok ()
    else unexpected
  | _ => unexpected

def validateToolReference (reference : Value) (field : String) : Except ValidationError Unit :=
  if reference.kind ≠ some "tool_reference" || emptyStr reference "tool_name" then
    invalid field "expected a tool_reference with tool_name"
  else .ok ()

def validateToolSearchResult (value : Option Value) (field : String) : Except ValidationError Unit :=
  match value with
  | none => invalid field "is required"
  | some value => match value.kind with
    | some "tool_search_tool_search_result" => match (value.get "tool_references").bind Value.asArray with
      | none => invalid (field ++ ".tool_references") "expected an array"
      | some references => validateEachResult validateToolReference (field ++ ".tool_references") references
    | some "tool_search_tool_result_error" =>
      if (value.getStr "error_code").isNone then invalid (field ++ ".error_code") "is required"
      else if notTextOrNull value "error_message" then invalid (field ++ ".error_message") "expected a string or null"
      else .ok ()
    | _ => invalid field "expected a Tool Search result or error"

def validateToolUse (block : Value) (field : String) : Except ValidationError Unit :=
  if emptyStr block "id" then invalid (field ++ ".id") "is required"
  else if emptyStr block "name" then invalid (field ++ ".name") "is required"
  else if ((block.get "input").map Value.isObject).getD false then .ok ()
  else invalid (field ++ ".input") "expected an object"

def validateAssistantBlock (block : Value) (field : String) : Except ValidationError Unit :=
  match block.kind with
  | some "tool_use" | some "server_tool_use" => validateToolUse block field
  | some "tool_search_tool_result" =>
    if emptyStr block "tool_use_id" then invalid (field ++ ".tool_use_id") "is required"
    else validateToolSearchResult (block.get "content") (field ++ ".content")
  | some "web_search_tool_result" =>
    if emptyStr block "tool_use_id" then invalid (field ++ ".tool_use_id") "is required"
    else if ((block.get "caller").map fun caller => caller.kind != some "direct").getD false then
      invalid (field ++ ".caller") "only direct Web Search callers are supported"
    else validateWebSearchResult (block.get "content") (field ++ ".content")
  | some "thinking" =>
    if (block.getStr "thinking").isNone then
      invalid (field ++ ".thinking") "thinking blocks require an assistant role and string content"
    else if emptyStr block "signature" then
      invalid (field ++ ".signature") "signed thinking history requires the opaque signature returned by Claude"
    else .ok ()
  | some "redacted_thinking" =>
    if emptyStr block "data" then
      invalid (field ++ ".data") "redacted_thinking blocks require an assistant role and non-empty opaque data"
    else .ok ()
  | some "compaction" => match block.get "content" with
    | none | some .null => .ok ()
    | some (.string content) => if content = "" then invalid (field ++ ".content") "must not be empty" else .ok ()
    | some _ => invalid (field ++ ".content") "expected a string or null"
  | _ => .ok ()

/-! ### Calls and results across blocks -/

inductive ServerToolKind where
  | toolSearch
  | webSearch
  deriving DecidableEq

def isToolSearchType (kind : String) : Bool :=
  matchesTypeFamily kind "tool_search_tool_regex" || matchesTypeFamily kind "tool_search_tool_bm25"

def serverToolKind (name : String) : Option ServerToolKind :=
  if name = "web_search" then some .webSearch else if isToolSearchType name then some .toolSearch else none

def places (request : ClaudeRequest) : List (String × Value) :=
  request.messages.zipIdx.flatMap fun (message, messageIndex) =>
    message.content.blocks.zipIdx.map fun (block, blockIndex) =>
      ("messages." ++ toString messageIndex ++ ".content." ++ toString blockIndex, block)

structure DefinedToolUses where
  allToolUses : List (String × String) := []
  serverToolUses : List (String × ServerToolKind × String) := []

def defineToolUse (defined : DefinedToolUses) (place : String × Value) : Except ValidationError DefinedToolUses :=
  let (field, block) := place
  if block.kind ≠ some "tool_use" ∧ block.kind ≠ some "server_tool_use" then .ok defined
  else match block.getStr "id" with
    | none => .ok defined
    | some id => match defined.allToolUses.lookup id with
      | some previous => .error (.invalidField (field ++ ".id")
          ("tool-use id '" ++ id ++ "' is already defined at " ++ previous))
      | none =>
        let defined := { defined with allToolUses := (id, field) :: defined.allToolUses }
        if block.kind = some "server_tool_use" then
          let name := (block.getStr "name").getD ""
          match serverToolKind name with
          | none => .error (.invalidField (field ++ ".name") ("unsupported server tool '" ++ name ++ "'"))
          | some kind => .ok { defined with serverToolUses := (id, kind, field) :: defined.serverToolUses }
        else .ok defined

structure ServerToolHistory where
  pending : List (String × ServerToolKind × String) := []
  completed : List String := []

def resultKind (block : Value) : Option ServerToolKind :=
  match block.kind with
  | some "tool_search_tool_result" => some .toolSearch
  | some "web_search_tool_result" => some .webSearch
  | _ => none

def replayServerTool (serverToolUses : List (String × ServerToolKind × String)) (history : ServerToolHistory)
    (place : String × Value) : Except ValidationError ServerToolHistory :=
  let (field, block) := place
  let wrong := fun message => Except.error (ValidationError.invalidField (field ++ ".tool_use_id") message)
  if block.kind = some "server_tool_use" then
    match (block.getStr "id").bind fun id => (serverToolUses.lookup id).map ((id, ·)) with
    | some call => .ok { history with pending := call :: history.pending }
    | none => .ok history
  else match resultKind block with
    | none => match (block.getStr "tool_use_id").filter fun id =>
          block.kind = some "tool_result" ∧ (serverToolUses.lookup id).isSome with
      | some id => wrong ("server-tool call '" ++ id ++ "' must be completed by its server result block, not tool_result")
      | none => .ok history
    | some kind => match block.getStr "tool_use_id" with
      | none => .ok history
      | some id =>
        if history.completed.contains id then wrong ("server-tool call '" ++ id ++ "' has more than one result")
        else match history.pending.lookup id with
          | none => wrong (if (serverToolUses.lookup id).isSome then
              "server-tool result '" ++ id ++ "' appears before its server_tool_use"
            else "server-tool result '" ++ id ++ "' has no matching server_tool_use")
          | some (expected, useField) =>
            if expected ≠ kind then
              wrong ("server-tool result '" ++ id ++ "' does not match the call at " ++ useField)
            else .ok {
              pending := history.pending.filter (·.1 ≠ id)
              completed := id :: history.completed }

def validateServerToolHistory (request : ClaudeRequest) : Except ValidationError Unit := do
  let defined ← (places request).foldlM defineToolUse {}
  let _ ← (places request).foldlM (replayServerTool defined.serverToolUses) {}

/-- The checks of `validate_claude` with those of the assistant's blocks and of the server tools filled in. -/
def OtherChecks.withServerTools (others : OtherChecks) : OtherChecks := { others with
  assistantBlock := validateAssistantBlock
  after := fun request => do
    validateServerToolHistory request
    others.after request }

/-! ### Calls that are taken up again -/

structure PendingServerTools where
  pending : List KiroToolUse := []
  positions : List (String × Nat) := []

variable (crates : Crates)

/-- A call is listed where both its id and its name are given; its result blanks the id. -/
def PendingServerTools.step (registry : ToolNameRegistry) (official : OfficialWebTools) (s : PendingServerTools)
    (block : Value) : PendingServerTools :=
  match block.kind with
  | some "server_tool_use" => match historyUse crates registry official block with
    | none => s
    | some toolUse => {
        pending := s.pending ++ [toolUse]
        positions := (toolUse.toolUseId, s.pending.length) :: s.positions }
  | some "web_search_tool_result" | some "tool_search_tool_result" =>
    match (block.getStr "tool_use_id").bind fun id => (s.positions.lookup id).map (id, ·) with
    | none => s
    | some (id, index) => {
        pending := s.pending.modify index fun toolUse => { toolUse with toolUseId := "" }
        positions := s.positions.filter (·.1 ≠ id) }
  | _ => s

def claudePendingServerToolUses (request : ClaudeRequest) : Option (List KiroToolUse) :=
  (ToolNameRegistry.new crates.sha256 (catalogue request)).map fun registry =>
    let final := (request.messages.flatMap (·.content.blocks)).foldl
      (PendingServerTools.step crates registry (officialWebTools request)) {}
    final.pending.filter (·.toolUseId ≠ "")

end KiroProxy.Claude

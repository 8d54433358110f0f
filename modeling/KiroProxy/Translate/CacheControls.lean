import KiroProxy.Translate.CacheHints
import KiroProxy.Translate.AttachmentsKept

/-! `validate/cache.rs`: which `cache_control` markers a Messages request may carry, and how many.
The automatic marker of the request counts only where a block is there to take it. -/
namespace KiroProxy.Claude

def maxCacheBreakpoints : Nat := 4

inductive CacheTtl where
  | fiveMinutes
  | oneHour
  deriving DecidableEq

def cacheControlTtl (value : Option Value) (field : String) : Except ValidationError (Option CacheTtl) :=
  match value.filter fun value => !value.isNull with
  | none => .ok none
  | some control =>
    if !control.isObject then .error (.invalidField field "expected an object")
    else match control.kind.filter fun kind => !blank kind with
      | none => .error (.invalidField (field ++ ".type") "expected a non-empty string")
      | some kind =>
        if kind ≠ "ephemeral" then .error (.invalidField (field ++ ".type") "expected ephemeral")
        else match control.get "ttl" with
          | none => .ok (some .fiveMinutes)
          | some (.string "5m") => .ok (some .fiveMinutes)
          | some (.string "1h") => .ok (some .oneHour)
          | some _ => .error (.invalidField (field ++ ".ttl") "expected 5m or 1h")

structure Breakpoint where
  ttl : CacheTtl
  field : String

/-- Where the automatic marker would stand among the others. -/
structure AutomaticTarget where
  position : Nat
  explicitTtl : Option CacheTtl
  field : String

structure CacheControls where
  breakpoints : List Breakpoint := []
  lastTarget : Option AutomaticTarget := none

/-- The content inside a block that is looked through as well, and its path. -/
def nestedContent (block : Value) : Option (String × Value) :=
  match block.kind with
  | some "tool_result" | some "search_result" => (block.get "content").map fun inner => (".content", inner)
  | some "document" => if block.pointerStr ["source", "type"] == some "content" then
      (block.pointer ["source", "content"]).map fun inner => (".source.content", inner) else none
  | _ => none

theorem sizeOf_nestedContent {block inner : Value} {path : String} (found : nestedContent block = some (path, inner)) :
    sizeOf inner < sizeOf block := by
  unfold nestedContent at found
  split at found
  case h_1 | h_2 =>
    obtain ⟨_, held, same⟩ := Option.map_eq_some_iff.1 found
    cases same
    exact Value.sizeOf_get held
  case h_3 =>
    split at found
    · obtain ⟨_, held, same⟩ := Option.map_eq_some_iff.1 found
      cases same
      exact Value.sizeOf_pointer held
    · cases found
  case h_4 => cases found

def cannotCache (block : Value) : Bool :=
  block.kind == some "thinking" || block.kind == some "redacted_thinking" ||
    (block.kind == some "text" && block.getStr "text" == some "")

def cacheableKinds : List String :=
  ["text", "image", "document", "tool_use", "tool_result", "server_tool_use", "web_search_tool_result",
   "tool_search_tool_result", "search_result"]

def eligible (block : Value) : Bool :=
  !cannotCache block && ((block.kind.map cacheableKinds.contains).getD false ||
    (block.kind == some "compaction" && ((block.getStr "content").map (· != "")).getD false))

namespace CacheControls

def visit (controls : CacheControls) (value : Option Value) (field : String) (eligible : Bool) :
    Except ValidationError CacheControls := do
  let ttl ← cacheControlTtl value field
  return {
    breakpoints := controls.breakpoints ++ ttl.toList.map fun ttl => { ttl, field }
    lastTarget := if eligible then
        some { position := controls.breakpoints.length, explicitTtl := ttl, field }
      else controls.lastTarget }

def visitBlock (controls : CacheControls) (block : Value) (place : String) (topLevel : Bool) :
    Except ValidationError CacheControls :=
  let control := block.get "cache_control"
  let field := place ++ ".cache_control"
  if cannotCache block && (control.map fun control => !control.isNull).getD false then do
    -- A malformed marker keeps its own error.
    let _ ← cacheControlTtl control field
    .error (.invalidField field "thinking and empty text blocks cannot define cache_control")
  else controls.visit control field (topLevel && eligible block)

mutual

def content (controls : CacheControls) (value : Value) (field : String) (topLevel : Bool) :
    Except ValidationError CacheControls :=
  match value with
  | .string text =>
    if topLevel && text ≠ "" then controls.visit none (field ++ ".cache_control") true else .ok controls
  | .array blocks => visitBlocks controls blocks field 0 topLevel
  | _ => .ok controls
termination_by sizeOf value

def visitBlocks (controls : CacheControls) (blocks : List Value) (field : String) (index : Nat) (topLevel : Bool) :
    Except ValidationError CacheControls :=
  match blocks with
  | [] => .ok controls
  | block :: rest => do
    let place := field ++ "." ++ toString index
    let controls ← match found : nestedContent block with
      | some (path, inner) =>
        have := sizeOf_nestedContent found
        content controls inner (place ++ path) false
      | none => .ok controls
    let controls ← controls.visitBlock block place topLevel
    visitBlocks controls rest field (index + 1) topLevel
termination_by sizeOf blocks

end

def inOrder : Bool → List Breakpoint → Except ValidationError Unit
  | _, [] => .ok ()
  | sawFiveMinutes, point :: rest =>
    if point.ttl = .oneHour && sawFiveMinutes then
      invalid (point.field ++ ".ttl") "1h cache breakpoints must precede all 5m cache breakpoints"
    else inOrder (sawFiveMinutes || point.ttl = .fiveMinutes) rest

def withAutomatic (controls : CacheControls) (automatic : Option CacheTtl) :
    Except ValidationError (List Breakpoint) :=
  match automatic, controls.lastTarget with
  | some ttl, some target =>
    if maxCacheBreakpoints ≤ controls.breakpoints.length then
      .error (.invalidField "cache_control" ("must define at most " ++ toString maxCacheBreakpoints ++
        " cache breakpoints including automatic caching"))
    else match target.explicitTtl with
      | some explicitTtl =>
        if ttl ≠ explicitTtl then
          .error (.invalidField (target.field ++ ".ttl") "must match the top-level cache_control TTL")
        else .ok controls.breakpoints
      | none => .ok (controls.breakpoints.insertIdx target.position { ttl, field := "cache_control" })
  | _, _ => .ok controls.breakpoints

def finish (controls : CacheControls) (automatic : Option CacheTtl) : Except ValidationError Unit := do
  let breakpoints ← controls.withAutomatic automatic
  if maxCacheBreakpoints < breakpoints.length then
    invalid "cache_control" ("must define at most " ++ toString maxCacheBreakpoints ++ " cache breakpoints")
  else inOrder false breakpoints

end CacheControls

def visitTools (controls : CacheControls) : Nat → List ClaudeTool → Except ValidationError CacheControls
  | _, [] => .ok controls
  | index, tool :: rest => do
    let controls ← controls.visit tool.cacheControl ("tools." ++ toString index ++ ".cache_control") !tool.deferLoading
    visitTools controls (index + 1) rest

def visitMessages (controls : CacheControls) : Nat → List ClaudeMessage → Except ValidationError CacheControls
  | _, [] => .ok controls
  | index, message :: rest => do
    let place := "messages." ++ toString index
    let controls ← controls.content message.content (place ++ ".content") true
    let controls ← controls.visit message.cacheControl (place ++ ".cache_control") false
    visitMessages controls (index + 1) rest

def visitRequest (request : ClaudeRequest) : Except ValidationError CacheControls := do
  let controls ← visitTools {} 0 request.tools
  let controls ← match request.system with
    | some system => controls.content system "system" true
    | none => .ok controls
  visitMessages controls 0 request.messages

def validateClaudeCacheControls (request : ClaudeRequest) : Except ValidationError Unit := do
  let automatic ← cacheControlTtl request.cacheControl "cache_control"
  let controls ← visitRequest request
  controls.finish automatic

/-! ### Where the markers stand in `validate_claude_request` -/

structure OtherRequestChecks where
  sampling : ClaudeRequest → Except ValidationError Unit
  settings : ClaudeRequest → Except ValidationError Unit
  message : Nat → ClaudeMessage → Except ValidationError Unit
  assistantBlock : Value → String → Except ValidationError Unit
  url : String → String → Except ValidationError Unit
  sizes : ClaudeRequest → Except ValidationError Unit
  documentation : ClaudeRequest → Except ValidationError Unit
  toolIdentity : ClaudeRequest → Nat → Except ValidationError Unit
  toolOptions : ClaudeRequest → Nat → Except ValidationError Unit
  toolExamples : ClaudeRequest → Nat → Except ValidationError Unit
  references : ClaudeRequest → Except ValidationError Unit
  thinking : ClaudeRequest → Except ValidationError Unit

def validateClaudeSystem : Option Value → Except ValidationError Unit
  | none | some (.string _) => .ok ()
  | some (.array blocks) =>
    validateEach (fun place block => if block.kind = some "text" && (block.getStr "text").isSome then .ok ()
      else invalid place "expected a text content block") "system" 0 blocks
  | some _ => invalid "system" "expected a string or content array"

def validateDeferred (request : ClaudeRequest) : Except ValidationError Unit :=
  let deferred := (request.tools.filter (·.deferLoading)).length
  if 0 < deferred && request.tools.length - deferred = 0 then
    invalid "tools" "at least one tool must have defer_loading=false"
  else .ok ()

def validateTools (others : OtherRequestChecks) (request : ClaudeRequest) :
    Nat → List ClaudeTool → Except ValidationError Unit
  | _, [] => .ok ()
  | index, tool :: rest => do
    others.toolIdentity request index
    let field := "tools." ++ toString index ++ ".cache_control"
    let ttl ← cacheControlTtl tool.cacheControl field
    others.toolOptions request index
    if tool.deferLoading && ttl.isSome then invalid field "deferred tools cannot define cache_control"
    others.toolExamples request index
    validateTools others request (index + 1) rest

/-- A tool that `tool_choice` can mean by the name. -/
def chosenBy (name : String) (tool : ClaudeTool) : Bool :=
  tool.name == name || tool.type == some name || (name == "web_search" && declares "web_search" tool) ||
    (name == "web_fetch" && declares "web_fetch" tool)

def validateToolChoice (request : ClaudeRequest) : Except ValidationError Unit :=
  match request.toolChoice with
  | none => .ok ()
  | some choice => do
    if !(["auto", "any", "tool", "none"].contains choice.type) then
      invalid "tool_choice.type" "expected auto, any, tool, or none"
    if choice.type = "tool" then
      match choice.name.filter fun name => !blank name with
      | none => invalid "tool_choice.name" "a tool name is required"
      | some name =>
        if !request.tools.any (chosenBy name) then
          invalid "tool_choice.name" ("tool '" ++ name ++ "' was not found")
    else if choice.name.isSome then
      invalid "tool_choice.name" "name is only valid when tool_choice.type is tool"
    if choice.type = "any" && request.tools.isEmpty then
      invalid "tool_choice.type" "any requires at least one tool"

def OtherRequestChecks.checks (others : OtherRequestChecks) : OtherChecks :=
  { before := fun request => do
      others.sampling request
      validateClaudeSystem request.system
      others.settings request
    message := others.message
    assistantBlock := others.assistantBlock
    url := others.url
    after := fun request => do
      others.sizes request
      validateDeferred request
      others.documentation request
      validateTools others request 0 request.tools
      validateClaudeCacheControls request
      others.references request
      validateToolChoice request
      others.thinking request }

end KiroProxy.Claude

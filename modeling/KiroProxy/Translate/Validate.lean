import KiroProxy.Translate.Claude

/-! `validate_claude` where it looks at message content: which blocks a role may send, and
which images and documents are usable. -/
namespace KiroProxy

inductive ValidationError where
  | missingModel
  | missingMessages
  | tooManyTools
  | tooManyDeferredTools
  | loadedToolDefinitionsTooLarge
  | deferredToolDefinitionsTooLarge
  | toolDefinitionTooLarge
  | toolNameTooLong
  | toolDocumentationTooLarge
  | schemaTooDeep
  | schemaTooLarge
  | invalidRole (role : String)
  | invalidField (field message : String)
  deriving DecidableEq, Repr

def invalid (field message : String) : Except ValidationError Unit := .error (.invalidField field message)

def maxDocumentsPerMessage : Nat := 5
def maxDocumentBytes : Nat := 4500000
def maxImageBytes : Nat := 5 * 1024 * 1024
def maxImagesPerRequest : Nat := 100
def maxDocumentsPerRequest : Nat := 5

namespace Claude

/-- The checks that read no attachment: those before and after the messages, those of the
message's own fields, those inside blocks of the assistant, and that of a URL. -/
structure OtherChecks where
  before : ClaudeRequest → Except ValidationError Unit
  message : Nat → ClaudeMessage → Except ValidationError Unit
  assistantBlock : Value → String → Except ValidationError Unit
  url : String → String → Except ValidationError Unit
  after : ClaudeRequest → Except ValidationError Unit

def detectedImageMediaType (bytes : List UInt8) : Option String :=
  if [0xff, 0xd8, 0xff].isPrefixOf bytes then some "image/jpeg"
  else if [0x89, 0x50, 0x4e, 0x47, 0x0d, 0x0a, 0x1a, 0x0a].isPrefixOf bytes then some "image/png"
  else if (Bytes.utf8 "GIF87a").isPrefixOf bytes || (Bytes.utf8 "GIF89a").isPrefixOf bytes then some "image/gif"
  else if 12 ≤ bytes.length && (Bytes.utf8 "RIFF").isPrefixOf bytes && (bytes.drop 8).take 4 == Bytes.utf8 "WEBP" then
    some "image/webp"
  else none

def documentBytesMatchFormat (format : String) (bytes : List UInt8) : Bool :=
  match format with
  | "pdf" => decide (Bytes.utf8 "%PDF-" <:+: bytes.take 1024)
  | "doc" | "xls" => [0xd0, 0xcf, 0x11, 0xe0, 0xa1, 0xb1, 0x1a, 0xe1].isPrefixOf bytes
  | "docx" | "xlsx" => [0x50, 0x4b, 0x03, 0x04].isPrefixOf bytes || [0x50, 0x4b, 0x05, 0x06].isPrefixOf bytes ||
      [0x50, 0x4b, 0x07, 0x08].isPrefixOf bytes
  | "csv" | "md" | "html" | "txt" =>
    ((Bytes.fromUtf8 bytes).map fun text => !text.toList.contains '\x00').getD false
  | _ => false

def unknownKey (value : Value) (known : List String) : Option String :=
  match value with
  | .object fields => (fields.map (·.1)).find? fun key => !known.contains key
  | _ => none

def validateEach (check : String → Value → Except ValidationError Unit) (field : String) :
    Nat → List Value → Except ValidationError Unit
  | _, [] => .ok ()
  | index, block :: rest => do
    check (field ++ "." ++ toString index) block
    validateEach check field (index + 1) rest

def validateImageTransformations (transformations : Option Value) (field : String) : Except ValidationError Unit :=
  match transformations with
  | none | some .null => .ok ()
  | some (.object fields) =>
    if fields.isEmpty then .ok ()
    else invalid (field ++ ".transformations") "image transformations are not supported by the Kiro upstream"
  | some _ => invalid (field ++ ".transformations") "expected an object or null"

variable (crates : Crates) (checks : OtherChecks)

def validateClaudeImage (block : Value) (field : String) : Except ValidationError Unit :=
  let source := (block.get "source").getD .null
  if source.kind = some "url" then
    match unknownKey source ["type", "url"] with
    | some unknown => invalid (field ++ ".source." ++ unknown) "is not valid for a URL image source"
    | none => match source.getStr "url" with
      | none => invalid (field ++ ".source.url") "expected a string"
      | some url => checks.url url (field ++ ".source.url")
  else if source.kind ≠ some "base64" then invalid (field ++ ".source.type") "expected base64 or url"
  else match unknownKey source ["type", "media_type", "data"] with
    | some unknown => invalid (field ++ ".source." ++ unknown) "is not valid for a base64 image source"
    | none => match (source.getStr "media_type").filter fun media =>
          ["image/jpeg", "image/png", "image/gif", "image/webp"].contains media with
      | none => invalid (field ++ ".source.media_type") "expected image/jpeg, image/png, image/gif, or image/webp"
      | some mediaType => match source.getStr "data" with
        | none => invalid (field ++ ".source.data") "expected a string"
        | some data => match crates.decode data with
          | none => invalid (field ++ ".source.data") "invalid base64 image data"
          | some decoded =>
            if maxImageBytes < decoded.length then
              invalid (field ++ ".source.data")
                ("decoded image must be at most " ++ toString maxImageBytes ++ " bytes")
            else if detectedImageMediaType decoded ≠ some mediaType then
              invalid (field ++ ".source.data") "image bytes do not match the declared media_type"
            else .ok ()

/-- One block of a content document, after `bytes` bytes of flattened text. The result is
the size with the block and whether the block holds anything. -/
def validateContentBlock (block : Value) (field : String) (bytes : Nat) : Except ValidationError (Nat × Bool) :=
  match block.kind with
  | some "text" => match unknownKey block ["type", "text", "cache_control", "citations"] with
    | some unknown => .error (.invalidField (field ++ "." ++ unknown)
        "is not valid for a text block in a content document")
    | none => match block.getStr "text" with
      | none => .error (.invalidField (field ++ ".text") "expected a string")
      | some text =>
        if ((block.get "citations").map fun value => !value.isNull).getD false then
          .error (.invalidField (field ++ ".citations")
            "nested citation history cannot be represented by the Kiro upstream")
        else .ok (bytes + text.utf8ByteSize, text ≠ "")
  | some "image" => match unknownKey block ["type", "source", "cache_control", "transformations"] with
    | some unknown => .error (.invalidField (field ++ "." ++ unknown)
        "is not valid for an image block in a content document")
    | none => do
      validateImageTransformations (block.get "transformations") field
      validateClaudeImage crates checks block field
      -- The marker that takes the image's place is short.
      return (bytes + 32, true)
  | some kind => .error (.invalidField (field ++ ".type") ("unsupported content document block '" ++ kind ++ "'"))
  | none => .error (.invalidField (field ++ ".type") "is required")

def validateContentBlocks (field : String) : Nat → List Value → Nat → Bool → Except ValidationError Bool
  | _, [], _, hasContent => .ok hasContent
  | index, block :: rest, bytes, hasContent => do
    let (bytes, holds) ← validateContentBlock crates checks block
      (field ++ ".source.content." ++ toString index) (if 0 < index then bytes + 2 else bytes)
    if maxDocumentBytes < bytes then
      .error (.invalidField (field ++ ".source.content")
        ("flattened document must be at most " ++ toString maxDocumentBytes ++ " bytes"))
    else validateContentBlocks field (index + 1) rest bytes (hasContent || holds)

def validateContentDocumentSource (source : Value) (field : String) : Except ValidationError Unit :=
  match unknownKey source ["type", "content"] with
  | some unknown => invalid (field ++ ".source." ++ unknown) "is not valid for a content document source"
  | none => match source.get "content" with
    | none => invalid (field ++ ".source.content") "is required"
    | some (.string text) =>
      if text = "" then invalid (field ++ ".source.content") "must not be empty"
      else if maxDocumentBytes < text.utf8ByteSize then
        invalid (field ++ ".source.content")
          ("document content must be at most " ++ toString maxDocumentBytes ++ " bytes")
      else .ok ()
    | some (.array items) =>
      if items.isEmpty then invalid (field ++ ".source.content") "must not be empty"
      else do
        let hasContent ← validateContentBlocks crates checks field 0 items 0 false
        if hasContent then .ok () else invalid (field ++ ".source.content") "must not be empty"
    | some _ => invalid (field ++ ".source.content") "expected a string or an array of text/image blocks"

def notTextOrNull (block : Value) (name : String) : Bool :=
  ((block.get name).map fun value => !value.isNull && value.asStr.isNone).getD false

def validateCitations (block : Value) (field : String) : Except ValidationError Unit :=
  match (block.get "citations").filter fun value => !value.isNull with
  | none => .ok ()
  | some citations =>
    if !citations.isObject then invalid (field ++ ".citations") "expected an object"
    else if ((citations.get "enabled").map fun enabled => enabled.asBool.isNone).getD false then
      invalid (field ++ ".citations.enabled") "expected a boolean"
    else match unknownKey citations ["enabled"] with
      | some unknown => invalid (field ++ ".citations")
          ("unsupported citation configuration field '" ++ unknown ++ "'")
      | none => .ok ()

def validateDocumentData (source : Value) (sourceType format field : String) : Except ValidationError Unit :=
  match source.getStr "data" with
  | none => invalid (field ++ ".source.data") "expected a string"
  | some data =>
    if data = "" then invalid (field ++ ".source.data") "must not be empty"
    else match if sourceType = "base64" then crates.decode data else some (Bytes.utf8 data) with
      | none => invalid (field ++ ".source.data") "invalid base64 document data"
      | some decoded =>
        if maxDocumentBytes < decoded.length then
          invalid (field ++ ".source.data")
            ("decoded document must be at most " ++ toString maxDocumentBytes ++ " bytes")
        else if !documentBytesMatchFormat format decoded then
          invalid (field ++ ".source.data") "document bytes do not match the declared media_type"
        else .ok ()

def validateDocumentSource (block source : Value) (sourceType field : String) : Except ValidationError Unit :=
  let allowed := if sourceType = "url" then ["type", "url"] else ["type", "media_type", "data"]
  match unknownKey source allowed with
  | some unknown => invalid (field ++ ".source." ++ unknown)
      ("is not valid for a " ++ sourceType ++ " document source")
  | none =>
    if ((source.get "media_type").map fun value => value.asStr.isNone).getD false then
      invalid (field ++ ".source.media_type") "expected a string"
    else if sourceType = "url" then
      match source.getStr "url" with
      | none => invalid (field ++ ".source.url") "expected a string"
      | some url => checks.url url (field ++ ".source.url")
    else match claudeDocumentFormat block with
      | none => invalid (field ++ ".source.media_type")
          "expected PDF, CSV, DOC, DOCX, XLS, XLSX, HTML, TXT, or Markdown"
      | some format =>
        if sourceType = "text" && !(["csv", "md", "html", "txt"].contains format) then
          invalid (field ++ ".source.media_type") "text sources require CSV, HTML, TXT, or Markdown content"
        else validateDocumentData crates source sourceType format field

def validateClaudeDocument (block : Value) (field : String) : Except ValidationError Unit :=
  if notTextOrNull block "name" then invalid (field ++ ".name") "expected a string or null"
  else if notTextOrNull block "title" then invalid (field ++ ".title") "expected a string or null"
  else if notTextOrNull block "context" then invalid (field ++ ".context") "expected a string or null"
  else do
    validateCitations block field
    match (block.get "source").filter Value.isObject with
    | none => invalid (field ++ ".source") "expected an object"
    | some source => match source.kind with
      | some "content" => validateContentDocumentSource crates checks source field
      | some "base64" => validateDocumentSource crates checks block source "base64" field
      | some "text" => validateDocumentSource crates checks block source "text" field
      | some "url" => validateDocumentSource crates checks block source "url" field
      | _ => invalid (field ++ ".source.type") "expected base64, text, url, or content"

def emptyStr (block : Value) (name : String) : Bool := ((block.getStr name).map (· == "")).getD true

def validateSearchResult (block : Value) (field : String) : Except ValidationError Unit :=
  if (block.getStr "source").isNone then invalid (field ++ ".source") "expected a string"
  else if (block.getStr "title").isNone then invalid (field ++ ".title") "expected a string"
  else match (block.get "content").bind Value.asArray with
    | none => invalid (field ++ ".content") "expected an array of text blocks"
    | some parts => do
      validateEach (fun place part => if part.kind = some "text" && (part.getStr "text").isSome then .ok ()
        else invalid place "expected a text block") (field ++ ".content") 0 parts
      match (block.get "citations").filter fun value => !value.isNull with
      | none => .ok ()
      | some citations =>
        if !citations.isObject || ((citations.get "enabled").map fun value => value.asBool.isNone).getD false then
          invalid (field ++ ".citations") "expected citation options with a boolean enabled field"
        else .ok ()

def validateToolResult (nested : String → Value → Except ValidationError Unit) (block : Value) (field : String) :
    Except ValidationError Unit :=
  if emptyStr block "tool_use_id" then invalid (field ++ ".tool_use_id") "is required"
  else if ((block.get "is_error").map fun value => value.asBool.isNone).getD false then
    invalid (field ++ ".is_error") "expected a boolean"
  else match block.get "content" with
    | none | some (.string _) => .ok ()
    | some (.array items) => validateEach nested (field ++ ".content") 0 items
    | some _ => invalid (field ++ ".content") "expected a string or an array of text/image/document blocks"

def assistantKinds : List String :=
  ["tool_use", "server_tool_use", "tool_search_tool_result", "web_search_tool_result", "thinking",
   "redacted_thinking", "compaction"]

def wrongRole (kind field : String) : Except ValidationError Unit :=
  match kind with
  | "thinking" => invalid (field ++ ".thinking") "thinking blocks require an assistant role and string content"
  | "redacted_thinking" => invalid (field ++ ".data")
      "redacted_thinking blocks require an assistant role and non-empty opaque data"
  | kind => invalid (field ++ ".type") (kind ++ " blocks require an assistant role")

/-- A block; `nested` checks the blocks of a tool result, and there is none inside one. -/
def validateBlockWith (nested : Option (String → Value → Except ValidationError Unit)) (role field : String)
    (block : Value) : Except ValidationError Unit :=
  match block.kind with
  | none => invalid (field ++ ".type") "is required"
  | some "text" => if (block.getStr "text").isNone then invalid (field ++ ".text") "expected a string" else .ok ()
  | some "image" =>
    if role ≠ "user" then invalid (field ++ ".type") "image blocks require a user role"
    else do
      validateImageTransformations (block.get "transformations") field
      validateClaudeImage crates checks block field
  | some "document" =>
    if role ≠ "user" then invalid (field ++ ".type") "document blocks require a user role"
    else validateClaudeDocument crates checks block field
  | some kind =>
    let unsupported := invalid (field ++ ".type") ("unsupported Claude content block '" ++ kind ++ "'")
    if kind = "search_result" then if role = "user" then validateSearchResult block field else unsupported
    else match nested with
      | none =>
        if kind = "tool_reference" then
          if emptyStr block "tool_name" then invalid (field ++ ".tool_name") "is required" else .ok ()
        else unsupported
      | some nested =>
        if kind = "tool_result" then
          if role ≠ "user" then invalid (field ++ ".type") "tool_result blocks require a user role"
          else validateToolResult nested block field
        else if assistantKinds.contains kind then
          if role ≠ "assistant" then wrongRole kind field else checks.assistantBlock block field
        else unsupported

def validateNestedBlock (field : String) (block : Value) : Except ValidationError Unit :=
  validateBlockWith crates checks none "user" field block

def validateClaudeBlock (role field : String) (block : Value) : Except ValidationError Unit :=
  validateBlockWith crates checks (some (validateNestedBlock crates checks)) role field block

def countClaudeDocuments (block : Value) : Nat :=
  match block.kind with
  | some "document" => 1
  | some "tool_result" => (((block.get "content").bind Value.asArray).getD []).attach.foldl (fun sum ⟨inner, inside⟩ =>
      have : sizeOf inner < sizeOf block := by
        cases held : block.get "content" with
        | none => simp [held] at inside
        | some content =>
          rw [held] at inside
          have smaller : sizeOf inner < sizeOf content := Value.sizeOf_block inside
          exact smaller.trans (Value.sizeOf_get held)
      sum + countClaudeDocuments inner) 0
  | _ => 0
termination_by sizeOf block

def countClaudeImages (content : Value) : Nat :=
  (content.blocks.attach.map fun ⟨block, inside⟩ =>
    match block.kind with
    | some "image" => 1
    | some "tool_result" => match nested : block.get "content" with
      | some inner =>
        have := (Value.sizeOf_get nested).trans (Value.sizeOf_block inside)
        countClaudeImages inner
      | none => 0
    | some "document" => if block.pointerStr ["source", "type"] == some "content" then
        match nested : block.pointer ["source", "content"] with
        | some inner =>
          have := (Value.sizeOf_pointer nested).trans (Value.sizeOf_block inside)
          countClaudeImages inner
        | none => 0
      else 0
    | _ => 0).sum
termination_by sizeOf content

def countDocumentsInContent (content : Value) : Nat := (content.blocks.map countClaudeDocuments).sum

def validateClaudeContent (content : Value) (role field : String) : Except ValidationError Unit :=
  match content with
  | .string _ => .ok ()
  | .array items => do
    validateEach (validateClaudeBlock crates checks role) field 0 items
    if maxDocumentsPerMessage < (items.map countClaudeDocuments).sum then
      invalid field ("must contain at most " ++ toString maxDocumentsPerMessage ++ " document blocks")
    else .ok ()
  | _ => invalid field "expected a string or content array"

def validateMessages : Nat → List ClaudeMessage → Except ValidationError Unit
  | _, [] => .ok ()
  | index, message :: rest => do
    if !(["user", "assistant", "system"].contains message.role) then .error (.invalidRole message.role)
    checks.message index message
    validateClaudeContent crates checks message.content message.role
      ("messages." ++ toString index ++ ".content")
    validateMessages (index + 1) rest

def validateClaude (request : ClaudeRequest) : Except ValidationError Unit := do
  checks.before request
  validateMessages crates checks 0 request.messages
  if maxImagesPerRequest < (request.messages.map fun message => countClaudeImages message.content).sum then
    invalid "messages" ("must contain at most " ++ toString maxImagesPerRequest ++ " image blocks")
  if maxDocumentsPerRequest < (request.messages.map fun message => countDocumentsInContent message.content).sum then
    invalid "messages" ("must contain at most " ++ toString maxDocumentsPerRequest ++ " document blocks")
  checks.after request

end Claude

end KiroProxy

import KiroProxy.Translate.Protocol
import KiroProxy.Translate.ToolName

/-! What both request translators read out of message content: texts, cache marks, images,
documents and tool results. Content comes as the client sent it, a text or blocks. -/
namespace KiroProxy

namespace Value

theorem sizeOf_get {value inner : Value} {key : String} (found : value.get key = some inner) :
    sizeOf inner < sizeOf value := by
  cases value with
  | object fields =>
    simp only [get] at found
    induction fields with
    | nil => simp at found
    | cons field rest ih =>
      obtain ⟨name, held⟩ := field
      rw [List.lookup_cons] at found
      split at found
      · obtain rfl := Option.some.inj found
        simp only [object.sizeOf_spec, List.cons.sizeOf_spec, Prod.mk.sizeOf_spec]
        omega
      · have inside := ih found
        simp only [object.sizeOf_spec, List.cons.sizeOf_spec] at inside ⊢
        omega
  | _ => simp [get] at found

theorem sizeOf_pointer {value inner : Value} {key : String} {path : List String}
    (found : value.pointer (key :: path) = some inner) : sizeOf inner < sizeOf value := by
  induction path generalizing value key with
  | nil =>
    obtain ⟨next, first, same⟩ := Option.bind_eq_some_iff.1 found
    exact Option.some.inj same ▸ sizeOf_get first
  | cons second rest ih =>
    obtain ⟨next, first, further⟩ := Option.bind_eq_some_iff.1 found
    exact (ih further).trans (sizeOf_get first)

theorem sizeOf_block {content block : Value} (member : block ∈ content.blocks) : sizeOf block < sizeOf content := by
  cases content with
  | array items =>
    have inside : sizeOf block < sizeOf items := List.sizeOf_lt_of_mem member
    simp only [array.sizeOf_spec]
    omega
  | _ => simp [blocks, asArray] at member

end Value

/-- What the translators take from other crates: hashing, base64 and the JSON reader. -/
structure Crates where
  sha256 : Sha256
  decode : String → Option (List UInt8)
  encode : List UInt8 → String
  fromStr : String → Option Value
  toStringPretty : List Value → String

def matchesTypeFamily (kind base : String) : Bool :=
  kind == base || ((Text.stripPrefix kind base).map fun suffix => Text.startsWith suffix "_").getD false

def blank (text : String) : Bool := Text.trim text == ""

/-- `join` of the OpenAI translator, `join_nonempty` of the Claude one. -/
def join (left right : String) : String :=
  match blank left, blank right with
  | true, _ => Text.trim right
  | _, true => Text.trim left
  | _, _ => Text.trim left ++ "\n\n" ++ Text.trim right

def lines (texts : List String) : String := "\n".intercalate texts

def systemText : Option Value → String
  | some (.string text) => text
  | some (.array items) => lines (items.filterMap fun block => block.getStr "text")
  | _ => ""

def searchResultText (block : Value) : String :=
  let parts := ((block.get "content").map Value.blocks).getD []
  "Client-provided search result (source data):\n" ++ Value.render (.object
    [("content", .array (parts.filterMap fun part => (part.getStr "text").map .string)),
     ("source", (block.get "source").getD .null), ("title", (block.get "title").getD .null)])

def blockText (block : Value) : Option String :=
  match block.kind with
  | some "text" | some "thinking" | some "compaction" =>
    (((block.get "text").or (block.get "thinking")).or (block.get "content")).bind Value.asStr
  | some "refusal" => block.getStr "refusal"
  | some "search_result" => some (searchResultText block)
  | _ => none

def contentText : Value → String
  | .string text => text
  | .array items => lines (items.filterMap blockText)
  | _ => ""

/-- Only `type: ephemeral` asks for a mark; other hints ask for none. -/
def kiroCachePoint (control : Option Value) : Option KiroCachePoint :=
  control.bind fun control => if control.kind == some "ephemeral" then some {} else none

def mergedCachePoint (first second : Option KiroCachePoint) : Option KiroCachePoint := second.or first

mutual

/-- The last marked block covers the longest part of a content. -/
def contentCachePoint (content : Value) : Option KiroCachePoint :=
  if content.isObject then kiroCachePoint (content.get "cache_control")
  else (content.blocks.attach.filterMap fun ⟨block, inside⟩ =>
    have := Value.sizeOf_block inside
    blockCachePoint block).getLast?
termination_by sizeOf content

def blockCachePoint (block : Value) : Option KiroCachePoint :=
  let nested := match block.kind with
    | some "tool_result" | some "search_result" => match found : block.get "content" with
      | some inner =>
        have := Value.sizeOf_get found
        contentCachePoint inner
      | none => none
    | some "document" => if block.pointerStr ["source", "type"] == some "content" then
        match found : block.pointer ["source", "content"] with
        | some inner =>
          have := Value.sizeOf_pointer found
          contentCachePoint inner
        | none => none
      else none
    | _ => none
  mergedCachePoint nested (kiroCachePoint (block.get "cache_control"))
termination_by sizeOf block

end

/-! Documents. -/

def documentFormatFromMediaType (mediaType : String) : Option String :=
  let mediaType := Text.toAsciiLowercase (Text.trim (String.ofList (mediaType.toList.takeWhile (· ≠ ';'))))
  match mediaType with
  | "application/pdf" => some "pdf"
  | "text/csv" | "application/csv" => some "csv"
  | "text/markdown" | "text/x-markdown" => some "md"
  | "text/html" => some "html"
  | "application/msword" => some "doc"
  | "application/vnd.openxmlformats-officedocument.wordprocessingml.document" => some "docx"
  | "application/vnd.ms-excel" => some "xls"
  | "application/vnd.openxmlformats-officedocument.spreadsheetml.sheet" => some "xlsx"
  | mediaType => if Text.startsWith mediaType "text/" then some "txt" else none

/-- The extension is what follows the last dot. -/
def documentFormatFromName (name : String) : Option String :=
  if name.toList.contains '.' then
    match Text.toAsciiLowercase (Text.trim (String.ofList (name.toList.rtakeWhile (· ≠ '.')))) with
    | "pdf" => some "pdf"
    | "csv" => some "csv"
    | "md" | "markdown" => some "md"
    | "html" | "htm" => some "html"
    | "txt" => some "txt"
    | "doc" => some "doc"
    | "docx" => some "docx"
    | "xls" => some "xls"
    | "xlsx" => some "xlsx"
    | _ => none
  else none

def claudeDocumentFormat (block : Value) : Option String :=
  (block.get "source").bind fun source =>
    if source.kind == some "content" then some "txt"
    else ((source.getStr "media_type").bind documentFormatFromMediaType).or
      ((["name", "title"].filterMap block.getStr).findSome? documentFormatFromName)

def claudeDocumentLabel (block : Value) : Option String :=
  ((["name", "title"].filterMap block.getStr).map Text.trim).find? (· ≠ "")

/-- The neutral name, letter by letter; `spaced` says that the last letter was a blank. -/
def neutralChars : List Char → List Char → Bool → List Char
  | [], output, _ => output
  | c :: rest, output, spaced =>
    if 200 ≤ output.length then output
    else if c.isAlphanum || c == '-' || c == '(' || c == ')' || c == '[' || c == ']' then
      neutralChars rest (output ++ [c]) false
    else if Text.isWhitespace c then
      if !spaced && !output.isEmpty then neutralChars rest (output ++ [' ']) true
      else neutralChars rest output spaced
    else if output.getLast? != some '-' && !output.isEmpty then neutralChars rest (output ++ ['-']) false
    else neutralChars rest output spaced

def neutralDocumentName (label : Option String) (format : String) : String :=
  let label := (label.map fun label =>
    let trimmed := Text.trim label
    let suffix := "." ++ format
    if Text.endsWith (Text.toAsciiLowercase trimmed) suffix then
      String.ofList (trimmed.toList.take (trimmed.length - suffix.length))
    else trimmed).getD "document"
  let edge := fun c => c == ' ' || c == '-'
  let output := ((neutralChars label.toList [] false).dropWhile edge).rdropWhile edge
  if output.isEmpty then "document" else String.ofList output

def imageMarker (index : Nat) : String := "[Message image " ++ toString index ++ "]"

/-- The texts of a content document in order, each image replaced by its marker. -/
def customDocumentParts : List Value → Nat → List String × Nat
  | [], index => ([], index)
  | block :: rest, index => match block.kind with
    | some "text" =>
      let (parts, last) := customDocumentParts rest index
      ((block.getStr "text").toList ++ parts, last)
    | some "image" =>
      let (parts, last) := customDocumentParts rest (index + 1)
      (imageMarker (index + 1) :: parts, last)
    | _ => customDocumentParts rest index

def customDocumentText (content : Value) (index : Nat) : String × Nat :=
  match content with
  | .string text => (text, index)
  | .array items =>
    let (parts, last) := customDocumentParts items index
    ("\n\n".intercalate parts, last)
  | _ => ("", index)

section Extract

variable (crates : Crates)

def documentBytes (source : Value) (index : Nat) : Option String × Nat :=
  match source.kind with
  | some "base64" => ((source.getStr "data").filter fun data => (crates.decode data).isSome, index)
  | some "text" => ((source.getStr "data").map fun data => crates.encode (Bytes.utf8 data), index)
  | some "content" => match source.get "content" with
    | some content =>
      let (text, last) := customDocumentText content index
      (some (crates.encode (Bytes.utf8 text)), last)
    | none => (none, index)
  | _ => (none, index)

def claudeDocument (block : Value) (index : Nat) : Option KiroDocument × Nat :=
  match block.get "source" with
  | none => (none, index)
  | some source =>
    let (bytes, last) := documentBytes crates source index
    let document := do
      let bytes ← bytes
      let format ← claudeDocumentFormat block
      return {
        format
        name := neutralDocumentName (claudeDocumentLabel block) format
        source := { bytes }
        citations := ((block.pointer ["citations", "enabled"]).bind Value.asBool).map fun enabled => { enabled } }
    (document, last)

/-- The documents so far and the number of images met so far. -/
def collectClaudeDocuments (content : Value) (found : List KiroDocument × Nat) : List KiroDocument × Nat :=
  content.blocks.attach.foldl (fun (documents, index) ⟨block, inside⟩ =>
    match block.kind with
    | some "image" => (documents, index + 1)
    | some "document" =>
      let (document, last) := claudeDocument crates block index
      (documents ++ document.toList, last)
    | some "tool_result" => match nested : block.get "content" with
      | some inner =>
        have := (Value.sizeOf_get nested).trans (Value.sizeOf_block inside)
        collectClaudeDocuments inner (documents, index)
      | none => (documents, index)
    | _ => (documents, index)) found
termination_by sizeOf content

def extractDocuments (content : Value) : List KiroDocument := (collectClaudeDocuments crates content ([], 0)).1

def claudeImage (block : Value) : Option KiroImage := do
  let source ← block.get "source"
  let sourceType ← source.kind
  if sourceType ≠ "base64" then none
  let media ← source.getStr "media_type"
  let bytes ← source.getStr "data"
  let _ ← crates.decode bytes
  return { format := (Text.stripPrefix media "image/").getD media, source := { bytes } }

def extractImages (content : Value) : List KiroImage :=
  content.blocks.attach.flatMap fun ⟨block, inside⟩ =>
    match block.kind with
    | some "image" => (claudeImage crates block).toList
    | some "tool_result" => match nested : block.get "content" with
      | some inner =>
        have := (Value.sizeOf_get nested).trans (Value.sizeOf_block inside)
        extractImages inner
      | none => []
    | some "document" => if block.pointerStr ["source", "type"] == some "content" then
        match nested : block.pointer ["source", "content"] with
        | some inner =>
          have := (Value.sizeOf_pointer nested).trans (Value.sizeOf_block inside)
          extractImages inner
        | none => []
      else []
    | _ => []
termination_by sizeOf content

def normalizeImageFormat (format : String) : String :=
  match Text.toAsciiLowercase format with
  | "jpg" | "jpeg" => "jpeg"
  | "png" => "png"
  | "gif" => "gif"
  | "webp" => "webp"
  | _ => "png"

def openaiImage (block : Value) : Option KiroImage := do
  let kind ← block.kind
  if kind ≠ "image_url" then none
  let url ← block.pointerStr ["image_url", "url"]
  let encoded ← Text.stripPrefix url "data:image/"
  let (format, bytes) ← Text.splitOnce encoded ";base64,"
  let decoded ← crates.decode bytes
  if 5 * 1024 * 1024 < decoded.length then none
  return { format := normalizeImageFormat format, source := { bytes } }

def extractOpenaiImages (content : Value) : List KiroImage := content.blocks.filterMap (openaiImage crates)

end Extract

/-! Document context and tool results. -/

def documentContexts (content : Value) : List Value :=
  content.blocks.attach.flatMap fun ⟨block, inside⟩ =>
    match block.kind with
    | some "document" => match (block.getStr "context").filter fun context => !blank context with
      | some context => [.object [("context", .string context), ("document_name", .string
          (neutralDocumentName (claudeDocumentLabel block) ((claudeDocumentFormat block).getD "txt")))]]
      | none => []
    | some "tool_result" => match nested : block.get "content" with
      | some inner =>
        have := (Value.sizeOf_get nested).trans (Value.sizeOf_block inside)
        documentContexts inner
      | none => []
    | _ => []
termination_by sizeOf content

def documentContextText (content : Value) : String :=
  let contexts := documentContexts content
  if contexts.isEmpty then ""
  else "Client-provided document context (JSON; separate from document contents):\n" ++ Value.render (.array contexts)

def contentContainsClaudeImage (content : Value) : Bool :=
  content.blocks.attach.any fun ⟨block, inside⟩ =>
    match block.kind with
    | some "image" => true
    | some "tool_result" => match nested : block.get "content" with
      | some inner =>
        have := (Value.sizeOf_get nested).trans (Value.sizeOf_block inside)
        contentContainsClaudeImage inner
      | none => false
    | some "document" => if block.pointerStr ["source", "type"] == some "content" then
        match nested : block.pointer ["source", "content"] with
        | some inner =>
          have := (Value.sizeOf_pointer nested).trans (Value.sizeOf_block inside)
          contentContainsClaudeImage inner
        | none => false
      else false
    | _ => false
termination_by sizeOf content

def toolResult (block : Value) : Option KiroToolResult :=
  (block.getStr "tool_use_id").map fun toolUseId =>
    let content := block.get "content"
    let result := (content.map contentText).getD ""
    let hasImages := (content.map contentContainsClaudeImage).getD false
    let hasDocuments := ((content.map Value.blocks).getD []).any fun block => block.kind == some "document"
    { content := [{ text := if result = "" then
        match hasImages, hasDocuments with
        | true, true => "(image and document results attached)"
        | true, false => "(image result attached)"
        | false, true => "(document result attached)"
        | false, false => "(empty result)"
      else result }]
      status := if (block.get "is_error").bind Value.asBool == some true then "error" else "success"
      toolUseId }

def extractToolResults (content : Value) : List KiroToolResult :=
  (content.blocks.filter fun block => block.kind == some "tool_result").filterMap toolResult

end KiroProxy

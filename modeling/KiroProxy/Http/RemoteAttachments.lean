import KiroProxy.Http.PointerMut
import KiroProxy.Translate.Claude

/-! The attachments of a Messages request that are given by a URL: they are collected under pointers, fetched, and put in
place in the order in which the downloads end. -/
namespace KiroProxy.Http

inductive RemoteAttachmentKind where
  | image
  | document
  deriving DecidableEq

/-- What a download gives; of the final URL only the segments of its path, where it has one. -/
structure RemoteAttachment where
  bytes : List UInt8
  mediaType : String
  pathSegments : Option (List String)

structure ClaudeRemoteAttachment where
  messageIndex : Nat
  blockPointer : String
  kind : RemoteAttachmentKind
  url : String
  deriving DecidableEq

def isRemote (block : Value) : Bool :=
  (block.kind == some "image" || block.kind == some "document") && block.pointerStr ["source", "type"] == some "url"

def remoteKind (block : Value) : RemoteAttachmentKind := if block.kind = some "image" then .image else .document

def collectClaudeRemoteAttachments (content : Value) (messageIndex : Nat) (pointer : String) :
    List ClaudeRemoteAttachment :=
  content.blocks.attach.zipIdx.flatMap fun (⟨block, inside⟩, index) =>
    let blockPointer := pointer ++ "/" ++ toString index
    if isRemote block then
      match block.pointerStr ["source", "url"] with
      | some url => [{ messageIndex, blockPointer, kind := remoteKind block, url }]
      | none => []
    else match block.kind with
      | some "tool_result" => match found : block.get "content" with
        | some nested =>
          have := (Value.sizeOf_get found).trans (Value.sizeOf_block inside)
          collectClaudeRemoteAttachments nested messageIndex (blockPointer ++ "/content")
        | none => []
      | some "document" => if block.pointerStr ["source", "type"] = some "content" then
          match found : block.pointer ["source", "content"] with
          | some nested =>
            have := (Value.sizeOf_pointer found).trans (Value.sizeOf_block inside)
            collectClaudeRemoteAttachments nested messageIndex (blockPointer ++ "/source/content")
          | none => []
        else []
      | _ => []
termination_by sizeOf content

/-- The targets of `hydrate_claude_attachments`. -/
def remoteAttachments (request : ClaudeRequest) : List ClaudeRemoteAttachment :=
  request.messages.zipIdx.flatMap fun (message, index) => collectClaudeRemoteAttachments message.content index ""

variable (crates : Crates)

def attachmentSource (fetched : RemoteAttachment) : Value := .object
  [("data", .string (crates.encode fetched.bytes)), ("media_type", .string fetched.mediaType), ("type", .string "base64")]

def attachmentTitle (fetched : RemoteAttachment) : String :=
  ((fetched.pathSegments.bind List.getLast?).filter (· ≠ "")).getD "document"

def isUntitled (kind : RemoteAttachmentKind) (block : Value) : Bool :=
  kind = .document && (block.get "title").isNone && (block.get "name").isNone

def hydrateBlock (kind : RemoteAttachmentKind) (fetched : RemoteAttachment) (block : Value) : Option Value := do
  let block ← block.assign "source" (attachmentSource crates fetched)
  if isUntitled kind block then block.assign "title" (.string (attachmentTitle fetched)) else return block

def changeBlock (change : Value → Option Value) (target : ClaudeRemoteAttachment) (request : ClaudeRequest) :
    Option ClaudeRequest := do
  let message ← request.messages[target.messageIndex]?
  let content ← message.content.pointerMut target.blockPointer change
  return { request with messages := request.messages.set target.messageIndex { message with content } }

/-- `hydrate_claude_attachments` with the downloads in the order in which they ended. No result stands for its error and
for its panics. -/
def hydrateClaudeAttachments (fetched : List (ClaudeRemoteAttachment × RemoteAttachment)) (request : ClaudeRequest) :
    Option ClaudeRequest :=
  fetched.foldlM (fun request (target, attachment) => changeBlock (hydrateBlock crates target.kind attachment) target request)
    request

end KiroProxy.Http

import KiroProxy.Json
import Mathlib.Data.Finmap

/-! The events of the Kiro stream, and how a message with its headers becomes one. -/
namespace KiroProxy.Kiro

structure KiroCitation where
  text : Option String
  link : String
  target : Value
  kind : String

inductive KiroEvent where
  | assistantResponse (content : String)
  | toolUse (id name inputDelta : String) (stop : Bool)
  | reasoning (content : String) (signature redactedContent : Option String)
  | citations (citations : List KiroCitation)
  | messageMetadata (usage : Value)
  | usage (usage : Value)
  | error (kind message : String)
  | other (eventType : String) (payload : Value)

abbrev Headers := Finmap fun _ : String => String

def nonEmpty (s : String) : Bool := s ≠ ""

def detectedEventType (value : Value) : Option String :=
  (["assistantResponseEvent", "toolUseEvent", "reasoningContentEvent", "messageMetadataEvent",
    "metadataEvent", "usageEvent", "meteringEvent", "supplementaryWebLinksEvent", "codeReferenceEvent",
    "followupPromptEvent", "citationEvent", "contextUsageEvent", "invalidStateEvent"].find?
      fun key => (value.get key).isSome).or
    (if (value.get "citationLink").isSome then some "citationEvent" else none)

def nestedStr (value : Value) (wrapper key : String) : Option String :=
  ((value.get wrapper).getD value).getStr key

def valueText (value : Value) : String := value.asStr.getD value.render

/-- The first of the fields whose text is not blank, without the blanks around it. -/
def trimmedField (item : Value) (fields : List String) : Option String :=
  fields.findSome? fun field => ((item.getStr field).map Text.trim).filter nonEmpty

def citation (kind : String) (item : Value) : Option KiroCitation :=
  let link := trimmedField item ["citationLink", "url", "repository"]
  let text := trimmedField item ["citationText", "title", "licenseName", "snippet", "content"]
  if link.isNone ∧ text.isNone then none
  else
    let target := ((item.get "target").or (item.get "recommendationContentSpan")).getD (.object [])
    some { text := text, link := link.getD "", target := target, kind := kind }

def citationEvent (value : Value) (wrapper list kind : String) : KiroEvent :=
  let body := (value.get wrapper).getD value
  let listed := ((body.get list).bind Value.asArray).getD []
  let items := if listed.isEmpty then [body] else listed
  let citations := items.filterMap (citation kind)
  if citations.isEmpty then .other wrapper value else .citations citations

def textField (body : Value) (fields : List String) : Option String :=
  fields.findSome? fun field => (body.getStr field).filter nonEmpty

/-- The events by their type; the exceptions have been taken out before. -/
def typedEvent (eventType : String) (value : Value) : KiroEvent :=
  match eventType with
  | "assistantResponseEvent" =>
    .assistantResponse (((nestedStr value "assistantResponseEvent" "content").or (value.getStr "content")).getD "")
  | "toolUseEvent" =>
    let body := (value.get "toolUseEvent").getD value
    .toolUse ((body.getStr "toolUseId").getD "") ((body.getStr "name").getD "")
      ((((body.get "input").or (body.get "inputDelta")).map valueText).getD "")
      (((body.get "stop").bind Value.asBool).getD false)
  | "reasoningContentEvent" =>
    let body := (value.get "reasoningContentEvent").getD value
    .reasoning (((body.getStr "text").or (body.getStr "content")).getD "")
      ((body.getStr "signature").filter nonEmpty)
      (((body.getStr "redactedContent").or (body.getStr "redacted_content")).filter nonEmpty)
  | "messageMetadataEvent" | "metadataEvent" => .messageMetadata value
  | "usageEvent" | "usage" | "meteringEvent" => .usage value
  | "supplementaryWebLinksEvent" =>
    citationEvent value "supplementaryWebLinksEvent" "supplementaryWebLinks" "web"
  | "codeReferenceEvent" => citationEvent value "codeReferenceEvent" "references" "code"
  | "citationEvent" => citationEvent value "citationEvent" "citations" "document"
  | "invalidStateEvent" =>
    let body := (value.get "invalidStateEvent").getD value
    .error ((textField body ["reason", "code", "state"]).getD "INVALID_STATE")
      ((textField body ["message", "detail"]).getD "Kiro reported an invalid conversation state")
  | "followupPromptEvent" =>
    let body := (value.get "followupPromptEvent").getD value
    let prompt := (body.get "followupPrompt").getD body
    match ((prompt.get "content").or (prompt.get "userIntent")).bind Value.asStr with
    | some suggestion => .assistantResponse ("\n\n**Suggested follow-up:** " ++ suggestion)
    | none => .other eventType value
  | _ => .other eventType value

def toEvent (headers : Headers) (value : Value) : KiroEvent :=
  let messageType := headers.lookup ":message-type"
  let exceptionType := headers.lookup ":exception-type"
  let eventType := (((headers.lookup ":event-type").filter nonEmpty).or (detectedEventType value)).getD ""
  if messageType = some "exception" ∨ exceptionType.isSome then
    .error (exceptionType.getD eventType)
      (((value.getStr "message").or (value.getStr "Message")).getD "Unknown stream error")
  else match ((value.getStr "__type").or (value.getStr "_type")).filter nonEmpty with
  | some kind => .error kind ((value.getStr "message").getD "Unknown stream error")
  | none => match (value.get "error").filter (fun error => !error.isNull) with
    | some error => .error "upstream_error" (((error.getStr "message").or error.asStr).getD "Unknown stream error")
    | none => typedEvent eventType value

end KiroProxy.Kiro

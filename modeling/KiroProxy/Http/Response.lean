import KiroProxy.Kiro.Event
import Mathlib.Data.Rat.Defs

/-! What the proxy has decoded of an answer, and the references it adds to the text. -/
namespace KiroProxy.Http

open Kiro

structure UsageInfo where
  inputTokens : Nat := 0
  outputTokens : Nat := 0
  credits : Rat := 0
  cacheReadTokens : Nat := 0
  cacheWriteTokens : Nat := 0
  reasoningTokens : Nat := 0
  deriving DecidableEq

structure ToolBuffer where
  id : String
  name : String
  input : String := ""
  complete : Bool := false
  deriving DecidableEq

inductive ClaudeServerToolEmission where
  | complete
  | pending
  | resultOnly
  deriving DecidableEq

structure ClaudeToolSearchError where
  code : String
  message : String

structure ClaudeToolSearchTrace where
  id : String
  name : String
  input : Value
  references : List String
  error : Option ClaudeToolSearchError
  emission : ClaudeServerToolEmission

structure WebSearchResult where
  title : String
  url : String
  snippet : String
  publishedDate : Option Int

structure ClaudeWebSearchError where
  code : String
  message : String

structure ClaudeWebSearchTrace where
  id : String
  input : Value
  results : List WebSearchResult
  error : Option ClaudeWebSearchError
  emission : ClaudeServerToolEmission
  executed : Bool

inductive ClaudeServerEvent where
  | toolSearch (index : Nat) (precedingText : String)
  | webSearch (index : Nat) (precedingText : String)
  deriving DecidableEq

/-- The tools stand in the order of their map, that is, by id. -/
structure DecodedResponse where
  text : String := ""
  reasoning : String := ""
  reasoningSignature : Option String := none
  redactedThinking : String := ""
  citations : List KiroCitation := []
  tools : List (String × ToolBuffer) := []
  toolSearches : List ClaudeToolSearchTrace := []
  webSearches : List ClaudeWebSearchTrace := []
  claudeServerEvents : List ClaudeServerEvent := []
  usage : UsageInfo := {}
  stopReason : Option String := none
  stopSequence : Option String := none

/-- `filter(|x| seen.insert(key(x)))`: the first of every key, and the keys met by then. -/
def insertFresh {α : Type} (key : α → String) : List String → List α → List String × List α
  | seen, [] => (seen, [])
  | seen, x :: rest =>
    if key x ∈ seen then insertFresh key seen rest
    else
      let later := insertFresh key (key x :: seen) rest
      (later.1, x :: later.2)

def kiroCitationKey (citation : KiroCitation) : String :=
  citation.kind ++ "\x00" ++ citation.link ++ "\x00" ++ citation.text.getD ""

def isLineBreak (c : Char) : Bool := c = '\r' ∨ c = '\n'

def referenceLine (citation : KiroCitation) : String :=
  let defaultLabel := match citation.kind with
    | "web" => "Web source"
    | "code" => "Code reference"
    | "document" => "Document source"
    | _ => "Source"
  let label := Text.trim (String.ofList
    ((citation.text.getD defaultLabel).toList.map fun c => if isLineBreak c then ' ' else c))
  let link := Text.trim (String.ofList (citation.link.toList.filter fun c => !isLineBreak c))
  "- " ++ label ++ (if label ≠ "" ∧ link ≠ "" then ": " else "") ++ link

/-- The lines are joined by line breaks: the break after the last one is popped again. -/
def formatVisibleReferences (citations : List KiroCitation) : String :=
  if citations.isEmpty then ""
  else "\n\nReferences:\n" ++ "\n".intercalate (citations.map referenceLine)

def kiroVisibleReferences (citations : List KiroCitation) : String :=
  formatVisibleReferences ((insertFresh kiroCitationKey [] citations).2.take 20)

/-- The replay codec seals a result under a random nonce: each use brings its own answers. -/
abbrev Encrypt := WebSearchResult → Option String

def maxCitations : Nat := 20

def webSearchCitation (tryEncrypt : Encrypt) (result : WebSearchResult) : Option Value := do
  let citedText := (if Text.trim result.snippet = "" then result.title else result.snippet).toList.take 150
  let encryptedIndex ← tryEncrypt result
  return .object [("cited_text", .string (String.ofList citedText)), ("encrypted_index", .string encryptedIndex),
    ("title", .string result.title), ("type", .string "web_search_result_location"), ("url", .string result.url)]

def webSearchCitations (searches : List ClaudeWebSearchTrace) (answerText : String) (tryEncrypt : Encrypt) :
    Option (List Value) :=
  let results := (searches.filter fun search => search.emission ≠ .pending).flatMap (·.results)
  let cited := results.filter fun result => Text.contains answerText result.url
  ((insertFresh (·.url) [] cited).2.take maxCitations).mapM (webSearchCitation tryEncrypt)

end KiroProxy.Http

import KiroProxy.Lib.Scan
import KiroProxy.Lib.Text
import Mathlib.Algebra.Group.Nat.Defs

/-! What a client is told of an error: the text of the upstream is classified, and where a part of it is useful to the
client that part is sent on without keys and endpoints. -/
namespace KiroProxy.ErrorText

open Scan

def banTriggerPhrases : List String := [
  "this organization has been disabled",
  "oauth authentication is currently not allowed",
  "account disabled",
  "account is disabled",
  "invalid account",
  "too many active sessions"]

/-! ### Keys and endpoints -/

/-- A small letter of a pattern under `(?i)`. Case folding takes the Kelvin sign for a k and the long s for an s. -/
def folds (letter c : Char) : Bool :=
  c.toLower = letter || (letter = 'k' && c = '\u212A') || (letter = 's' && c = '\u017F')

def keyChar (c : Char) : Bool := !(Text.isWhitespace c || c ∈ "\x22\x27<>\x60,;()[]\x7b\x7d".toList)

def keyPrefix : List Char := "ksk_".toList

def keyAt (cs : List Char) : Nat :=
  if begins folds keyPrefix cs then
    match ((cs.drop keyPrefix.length).takeWhile keyChar).length with
    | 0 => 0
    | length + 1 => keyPrefix.length + (length + 1)
  else 0

def redactKiroKeys (message : String) : String :=
  String.ofList (replaceAll keyAt "[REDACTED]".toList message.toList)

/-- `[a-z0-9-]` under `(?i)` -/
def regionChar (c : Char) : Bool := c.isAlphanum || c = '-' || c = '\u212A' || c = '\u017F'

def sites : List (List Char × List Char) := [
  ("codewhisperer.".toList, ".amazonaws.com".toList),
  ("q.".toList, ".amazonaws.com".toList),
  ("runtime.".toList, ".kiro.dev".toList),
  ("management.".toList, ".kiro.dev".toList)]

/-- The length of the endpoint that begins here with one of the hosts, and goes on to the next white space. -/
def siteAt (site : List Char × List Char) (cs : List Char) : Nat :=
  let region := (cs.drop site.1.length).takeWhile regionChar
  let behind := (cs.drop site.1.length).dropWhile regionChar
  if begins folds site.1 cs ∧ region ≠ [] ∧ begins folds site.2 behind then
    site.1.length + region.length + site.2.length +
      ((behind.drop site.2.length).takeWhile fun c => !Text.isWhitespace c).length
  else 0

def hostAt (cs : List Char) : Nat :=
  sites.foldr (fun site other => match siteAt site cs with | 0 => other | length => length) 0

def spells (letter c : Char) : Bool := c.toLower = letter

def replaceAsciiCaseInsensitive (message needle replacement : String) : String :=
  String.ofList (replaceAll (wordAt spells (needle.toList.map Char.toLower)) replacement.toList message.toList)

def redactEndpointNames (message : String) : String :=
  let filtered := String.ofList (replaceAll hostAt "upstream".toList message.toList)
  let filtered := replaceAsciiCaseInsensitive filtered "CodeWhisperer" "endpoint"
  replaceAsciiCaseInsensitive filtered "AmazonQ" "endpoint"

/-! ### The classification -/

def modelChar (c : Char) : Bool := c.isAlphanum || c = '.' || c = '_' || c = '-'

/-- The text between the quotes behind the first marker that has a model there. -/
def contextModelNameAfter (message lower : String) : List String → Option String
  | [] => none
  | marker :: markers =>
    match Text.splitOnce lower marker with
    | none => contextModelNameAfter message lower markers
    | some (front, _) =>
      match Text.splitOnceChars ['\x27'] (message.toList.drop (front.length + marker.length)) with
      | none => none
      | some (model, _) =>
        if model ≠ [] && (String.ofList model).utf8ByteSize ≤ 128 && model.all modelChar then
          some (String.ofList model)
        else contextModelNameAfter message lower markers

def contextModelName (message lower : String) : Option String :=
  contextModelNameAfter message lower
    ["prompt is too long for resolved model \x27", "prompt is too long for model \x27"]

def parseU64 (digits : List Char) : Option Nat :=
  let number := digits.foldl (fun number c => number * 10 + (c.toNat - '0'.toNat)) 0
  if number < 2 ^ 64 then some number else none

def contextTokenCounts (message lower : String) : Option (Nat × Nat) :=
  if !(Text.contains lower "tokens >" || Text.contains lower "tokens exceeds"
      || Text.contains lower "input tokens exceed") then none
  else
    let numbers := ((message.toList.splitOnP (!·.isDigit)).filter (· ≠ [])).filterMap parseU64
    match numbers.reverse with
    | maximum :: actual :: _ => some (actual, maximum)
    | _ => none

def isQuotaError (lower : String) : Bool :=
  ["402", "429", "quota", "credit", "throttlingexception", "reached the limit", "payment required"].any
    (Text.contains lower ·)

def isNetworkError (lower : String) : Bool :=
  ["network", "fetch failed", "socket", "econnreset", "econnrefused", "etimedout", "timeout", "connection reset",
    "premature close", "other side closed", "terminated", "operation was aborted"].any (Text.contains lower ·)

def isContextError (lower : String) : Bool :=
  Text.contains lower "prompt is too long" || Text.contains lower "context length exceeded"
    || Text.contains lower "input is too long"
    || (Text.contains lower "context window" && Text.contains lower "exceed")

def isAuthError (lower : String) : Bool := ["401", "403", "auth"].any (Text.contains lower ·)

def isServerError (lower : String) : Bool :=
  ["internal server error", "bad gateway", "502", "500", "503", "504", "service unavailable", "gateway timeout"].any
    (Text.contains lower ·)

def contextMessage (message lower : String) : String :=
  match contextTokenCounts message lower with
  | some (actual, maximum) =>
    match (contextModelName message lower).filter fun model => redactEndpointNames model = model with
    | some model =>
      "prompt is too long for model \x27" ++ model ++ "\x27: " ++ toString actual ++ " tokens > " ++ toString maximum
    | none => "prompt is too long: " ++ toString actual ++ " tokens > " ++ toString maximum
  | none => "prompt is too long: context length exceeded"

def normalizeErrorMessage (message : String) : String :=
  let message := redactKiroKeys message
  let lower := Text.toAsciiLowercase message
  if banTriggerPhrases.any (Text.contains lower ·) then "service unavailable"
  else if isContextError lower then contextMessage message lower
  else if isQuotaError lower then
    if Text.contains lower "throttlingexception" then
      let suffix := ((Text.splitOnce message "ThrottlingException").map (·.2)).getD ""
      redactEndpointNames ("ThrottlingException" ++ suffix)
    else redactEndpointNames message
  else if isAuthError lower then "Service temporarily unavailable, please retry"
  else if isServerError lower then "Upstream service error, please retry later"
  else if isNetworkError lower then "Service temporarily unavailable, please retry"
  else redactEndpointNames message

/-! ### What is shown -/

/-- `char::is_control` -/
def isControl (c : Char) : Bool := c.toNat < 0x20 || (0x7F ≤ c.toNat && c.toNat ≤ 0x9F)

def blank (c : Char) : Char := if isControl c then ' ' else c

def limit : Nat := 1024

def sanitizeErrorMessage (message : String) : String :=
  let normalized := (normalizeErrorMessage message).toList
  String.ofList ((normalized.take limit).map blank ++ if limit < normalized.length then ['…'] else [])

end KiroProxy.ErrorText

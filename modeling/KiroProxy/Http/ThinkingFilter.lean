import KiroProxy.Http.MarkdownPosition
import KiroProxy.Kiro.Event
import KiroProxy.Lib.Turns

/-! The filter for reasoning that comes as tagged text: what it shows of an answer, however the answer is cut. -/
namespace KiroProxy.Http

open Kiro Turns

def answerText (events : List KiroEvent) : List Char :=
  events.flatMap fun event => match event with
    | .assistantResponse content => content.toList
    | _ => []

@[simp] theorem answerText_append (first second : List KiroEvent) :
    answerText (first ++ second) = answerText first ++ answerText second := List.flatMap_append

def thinkingStartTag : List Char := "<thinking>".toList

def thinkingEndTag : List Char := "</thinking>".toList

structure ThinkingContentFilter where
  enabled : Bool
  omitSummary : Bool := false
  pending : List Char := []
  inTaggedThinking : Bool := false
  position : MarkdownPosition := {}
  deriving DecidableEq

def retainFrom (value delimiter : List Char) : Nat → Nat
  | 0 => value.length
  | retained + 1 =>
    if (value.drop (value.length - (retained + 1))).isPrefixOf delimiter then value.length - (retained + 1)
    else retainFrom value delimiter retained

/-- How much can be shown: an end that begins the delimiter is kept back. -/
def safePrefixLen (value delimiter : List Char) : Nat :=
  retainFrom value delimiter (min value.length (delimiter.length - 1))

namespace ThinkingContentFilter

def shows (filter : ThinkingContentFilter) : Bool := filter.enabled && !filter.omitSummary

/-- One round of the loop in `drain`; at the end of the text nothing is kept back. -/
def turn (finish : Bool) (filter : ThinkingContentFilter) : Turn ThinkingContentFilter Char :=
  if filter.inTaggedThinking then
    match Text.splitOnceChars thinkingEndTag filter.pending with
    | some (inside, back) =>
      .again (if filter.shows then [inside ++ thinkingEndTag] else []) { filter with
        pending := back, inTaggedThinking := false, position := ({} : MarkdownPosition).advance thinkingEndTag }
    | none =>
      let split := if finish then filter.pending.length else safePrefixLen filter.pending thinkingEndTag
      .wait (if filter.shows then [filter.pending.take split] else []) { filter with
        pending := filter.pending.drop split, inTaggedThinking := !finish }
  else
    match Text.splitOnceChars thinkingStartTag filter.pending with
    | some (front, back) =>
      let position := (filter.position.advance front).advance thinkingStartTag
      if position.inCode then .again [front, thinkingStartTag] { filter with pending := back, position }
      else .again (front :: if filter.shows then [thinkingStartTag] else []) { filter with
        pending := back, inTaggedThinking := true, position }
    | none =>
      let split := if finish then filter.pending.length else safePrefixLen filter.pending thinkingStartTag
      .wait [filter.pending.take split] { filter with
        pending := filter.pending.drop split, position := filter.position.advance (filter.pending.take split) }

def rounds (finish : Bool) : Filter ThinkingContentFilter Char where
  turn := turn finish
  size filter := filter.pending.length
  extend filter content := { filter with pending := filter.pending ++ content }
  shrinks := by
    intro filter pieces next turned
    unfold turn at turned
    split at turned <;> split at turned
    · rename_i inside back cut
      cases turned
      exact Text.splitOnceChars_shorter (by decide) cut
    · cases turned
    · rename_i front back cut
      have shorter := Text.splitOnceChars_shorter (by decide) cut
      dsimp only at turned
      split at turned <;> cases turned <;> exact shorter
    · cases turned
  extend_nil filter := by rw [List.append_nil]
  extend_append filter first second := by rw [List.append_assoc]

/-- `push_text`: an empty piece makes no event. -/
def pushText (pieces : List (List Char)) : List KiroEvent :=
  (pieces.filter (· ≠ [])).map fun piece => .assistantResponse (String.ofList piece)

def drain (finish : Bool) (filter : ThinkingContentFilter) : List KiroEvent × ThinkingContentFilter :=
  let (pieces, next) := (rounds finish).drain filter
  (pushText pieces, next)

def push (filter : ThinkingContentFilter) (event : KiroEvent) : List KiroEvent × ThinkingContentFilter :=
  match event with
  | .assistantResponse content => drain false { filter with pending := filter.pending ++ content.toList }
  | .reasoning content signature redactedContent =>
    let (output, filter) := drain false filter
    let content := if filter.omitSummary then "" else content
    if filter.enabled ∧ (content ≠ "" ∨ signature.isSome ∨ redactedContent.isSome) then
      (output ++ [.reasoning content signature redactedContent], filter)
    else (output, filter)
  | event =>
    let (output, filter) := drain false filter
    (output ++ [event], filter)

def pushAll : ThinkingContentFilter → List KiroEvent → List KiroEvent × ThinkingContentFilter
  | filter, [] => ([], filter)
  | filter, event :: rest =>
    let (output, next) := filter.push event
    let (later, last) := next.pushAll rest
    (output ++ later, last)

def finish (filter : ThinkingContentFilter) : List KiroEvent := (drain true filter).1

def filtered (filter : ThinkingContentFilter) (events : List KiroEvent) : List KiroEvent :=
  let (output, last) := filter.pushAll events
  output ++ last.finish

end ThinkingContentFilter

end KiroProxy.Http

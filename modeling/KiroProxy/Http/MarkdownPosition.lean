import Mathlib.Data.List.Basic

/-! Where in a Markdown text the next character stands: in a fenced block, in inline code, or at the start of a line. -/
namespace KiroProxy.Http

/-- Only the start of each line is tracked; a fence and a run of marks carry their byte and their length. -/
structure MarkdownPosition where
  fence : Option (UInt8 × Nat) := none
  inlineTicks : Option Nat := none
  pendingTicks : Nat := 0
  indent : Nat := 0
  whitespace : Bool := true
  run : Option (UInt8 × Nat) := none
  runEnded : Bool := false
  trailerWhitespace : Bool := true
  deriving DecidableEq, Repr

namespace MarkdownPosition

def tick : UInt8 := 0x60

def tilde : UInt8 := 0x7E

def newline : UInt8 := 0x0A

/-- `u8::is_ascii_whitespace`. -/
def isAsciiWhitespace (byte : UInt8) : Bool :=
  byte == 0x20 || byte == 0x09 || byte == 0x0A || byte == 0x0C || byte == 0x0D

def inCode (position : MarkdownPosition) : Bool :=
  position.fence.isSome || position.inlineTicks.isSome || decide (position.indent > 3) ||
    position.run.any fun (_, length) => decide (length ≥ 3)

/-- A run of ticks opens inline code or closes that of its length, unless it opens a fence. -/
def finishTickRun (position : MarkdownPosition) : MarkdownPosition :=
  let length := position.pendingTicks
  if length = 0 then position
  else if position.run = some (tick, length) ∧ length ≥ 3 ∧ ¬ position.runEnded then { position with pendingTicks := 0 }
  else { position with
    pendingTicks := 0
    inlineTicks := match position.inlineTicks with
      | some opened => if opened = length then none else some opened
      | none => some length }

def nextFence (position : MarkdownPosition) : Option (UInt8 × Nat) :=
  match position.run.filter fun (_, length) => decide (length ≥ 3), position.fence with
  | some mark, none => some mark
  | some (marker, length), some (opened, count) =>
    if opened = marker ∧ length ≥ count ∧ position.trailerWhitespace then none else some (opened, count)
  | none, fence => fence

def advanceByte (position : MarkdownPosition) (byte : UInt8) : MarkdownPosition :=
  let position := if byte = tick ∧ position.fence.isNone then
      { position with pendingTicks := position.pendingTicks + 1 }
    else position.finishTickRun
  if byte = newline then { fence := position.nextFence, inlineTicks := position.inlineTicks }
  else if position.whitespace ∧ byte ∈ [0x20, 0x09, 0x0D] then
    { position with indent := position.indent + if byte = 0x09 then 4 else 1 }
  else if position.whitespace then { position with
    whitespace := false
    run := if position.indent ≤ 3 ∧ position.inlineTicks.isNone ∧ byte ∈ [tick, tilde] then some (byte, 1)
      else position.run }
  else match position.run with
    | some (marker, length) =>
      if position.runEnded = false ∧ byte = marker then { position with run := some (marker, length + 1) }
      else { position with
        runEnded := true
        trailerWhitespace := position.trailerWhitespace && isAsciiWhitespace byte }
    | none => position

/-- The position is moved by the bytes of the text. -/
def advance (position : MarkdownPosition) (text : List Char) : MarkdownPosition :=
  (text.flatMap String.utf8EncodeChar).foldl advanceByte position

theorem advance_append (position : MarkdownPosition) (front back : List Char) :
    position.advance (front ++ back) = (position.advance front).advance back := by
  rw [advance, List.flatMap_append, List.foldl_append]
  rfl

/-! ### The start of a line -/

end MarkdownPosition

end KiroProxy.Http

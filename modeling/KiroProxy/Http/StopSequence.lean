import Mathlib.Data.List.Basic
import Mathlib.Data.List.MinMax

/-! The filter that ends an answer at a stop sequence.

The automata run over the characters. The code runs them over the bytes: a character starts
with a byte that no character has further inside, so that at the end of a chunk, and where a
sequence is complete, both have matched the same characters. -/
namespace KiroProxy.Http

structure CompiledStopSequence where
  value : List Char
  failure : List Nat
  state : Nat := 0

namespace CompiledStopSequence

/-- Shorter borders are tried until one can be continued; each is shorter than the one before. -/
def fallBack (value : List Char) (failure : List Nat) (c : Char) : Nat → Nat → Nat
  | 0, length => length
  | fuel + 1, length =>
    if length > 0 ∧ value[length]? ≠ some c then fallBack value failure c fuel (failure.getD (length - 1) 0) else length

def extend (value : List Char) (failure : List Nat) (c : Char) (length : Nat) : Nat :=
  let border := fallBack value failure c length length
  if value[border]? = some c then border + 1 else border

def failureTable : List Char → List Nat
  | [] => []
  | c :: rest => rest.foldl (fun table next => table ++ [extend (c :: rest) table next (table.getLastD 0)]) [0]

def new (value : List Char) : CompiledStopSequence := { value := value, failure := failureTable value }

def advance (sequence : CompiledStopSequence) (c : Char) : CompiledStopSequence :=
  { sequence with state := extend sequence.value sequence.failure c sequence.state }

def complete (sequence : CompiledStopSequence) : Bool := sequence.state = sequence.value.length

end CompiledStopSequence

structure StopSequenceFilter where
  sequences : List CompiledStopSequence
  pending : List Char := []
  matched : Option String := none
  visibleBytes : Nat := 0

namespace StopSequenceFilter

def new (sequences : List String) : StopSequenceFilter where
  sequences := (((sequences.filter (· ≠ "")).foldl (fun kept sequence =>
    if sequence ∈ kept then kept else kept ++ [sequence]) []).map (·.toList)).map .new

/-- One character moves every automaton, up to the first that is complete with it. -/
def advanceAll : List CompiledStopSequence → Char → List CompiledStopSequence × Option (List Char)
  | [], _ => ([], none)
  | sequence :: rest, c =>
    let sequence := sequence.advance c
    if sequence.complete then (sequence :: rest, some sequence.value)
    else
      let (rest, found) := advanceAll rest c
      (sequence :: rest, found)

/-- The match in a chunk, with the number of the chunk's characters up to its end. -/
def scan (offset : Nat) : List CompiledStopSequence → List Char → List CompiledStopSequence × Option (List Char × Nat)
  | sequences, [] => (sequences, none)
  | sequences, c :: rest =>
    match advanceAll sequences c with
    | (sequences, some value) => (sequences, some (value, offset + 1))
    | (sequences, none) => scan (offset + 1) sequences rest

def retained (sequences : List CompiledStopSequence) : Nat := (sequences.map (·.state)).foldl max 0

/-- What may be shown now; an end that could begin a sequence waits for the next chunk. -/
def push (filter : StopSequenceFilter) (text : String) : StopSequenceFilter × String :=
  if filter.matched.isSome then (filter, "")
  else if filter.sequences.isEmpty then
    ({ filter with visibleBytes := filter.visibleBytes + text.utf8ByteSize }, text)
  else
    let pending := filter.pending ++ text.toList
    match scan filter.pending.length filter.sequences text.toList with
    | (sequences, some (value, matchEnd)) =>
      let visible := String.ofList (pending.take (matchEnd - value.length))
      ({ sequences := sequences, pending := [], matched := some (String.ofList value),
         visibleBytes := filter.visibleBytes + visible.utf8ByteSize }, visible)
    | (sequences, none) =>
      let split := pending.length - retained sequences
      let visible := String.ofList (pending.take split)
      ({ filter with
         sequences := sequences, pending := pending.drop split,
         visibleBytes := filter.visibleBytes + visible.utf8ByteSize }, visible)

/-- A match does not reach across what ends the text: the automata start again. -/
def finish (filter : StopSequenceFilter) : StopSequenceFilter × String :=
  let sequences := filter.sequences.map fun sequence => { sequence with state := 0 }
  if filter.matched.isSome then ({ filter with sequences := sequences, pending := [] }, "")
  else
    let visible := String.ofList filter.pending
    ({ filter with
       sequences := sequences, pending := [], visibleBytes := filter.visibleBytes + visible.utf8ByteSize }, visible)

def Tidy (filter : StopSequenceFilter) : Prop := filter.sequences = [] → filter.pending = []

theorem new_tidy (sequences : List String) : (new sequences).Tidy := fun _ => rfl

theorem advanceAll_eq_nil {sequences : List CompiledStopSequence} {c : Char} (empty : (advanceAll sequences c).1 = []) :
    sequences = [] := by
  cases sequences with
  | nil => rfl
  | cons sequence rest =>
    simp only [advanceAll] at empty
    split at empty <;> cases empty

theorem scan_eq_nil {sequences : List CompiledStopSequence} {offset : Nat} {text : List Char}
    (empty : (scan offset sequences text).1 = []) : sequences = [] := by
  induction text generalizing sequences offset with
  | nil => exact empty
  | cons c rest ih =>
    simp only [scan] at empty
    split at empty
    case h_1 next value found =>
      exact advanceAll_eq_nil (c := c) (by rw [found]; exact empty)
    case h_2 next found =>
      exact advanceAll_eq_nil (c := c) (by rw [found]; exact ih empty)

variable {filter : StopSequenceFilter}

theorem push_tidy (tidy : filter.Tidy) (text : String) : (filter.push text).1.Tidy := by
  unfold push
  split
  · exact tidy
  · split
    · exact tidy
    case isFalse filled =>
      intro empty
      simp only at empty ⊢
      split
      · rfl
      case h_2 next found =>
        rw [found] at empty
        have absent : filter.sequences = [] := scan_eq_nil (by rw [found]; exact empty)
        simp [absent] at filled

theorem finish_tidy (filter : StopSequenceFilter) : filter.finish.1.Tidy := by
  intro _
  unfold finish
  split <;> rfl

theorem unmatched_of_push {text : String} (unmatched : (filter.push text).1.matched = none) :
    filter.matched = none := by
  unfold push at unmatched
  split at unmatched
  · exact unmatched
  case isFalse unended => simpa using unended

theorem push_unmatched {text : String} (tidy : filter.Tidy) (unmatched : (filter.push text).1.matched = none) :
    (filter.push text).2.toList ++ (filter.push text).1.pending = filter.pending ++ text.toList := by
  unfold push at unmatched ⊢
  split
  case isTrue already =>
    rw [if_pos already] at unmatched
    simp [show filter.matched = none from unmatched] at already
  case isFalse =>
    split
    case isTrue empty => simp [tidy (by simpa using empty)]
    case isFalse =>
      simp only
      split
      case h_1 found => simp_all
      case h_2 => simp

theorem finish_matched (filter : StopSequenceFilter) : filter.finish.1.matched = filter.matched := by
  unfold finish
  split <;> rfl

theorem finish_unmatched (unmatched : filter.matched = none) :
    filter.finish.2.toList = filter.pending ∧ filter.finish.1.pending = [] := by
  simp [finish, unmatched]

end StopSequenceFilter

end KiroProxy.Http

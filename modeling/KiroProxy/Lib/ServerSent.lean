import Mathlib.Data.List.Basic

/-! Server-sent events: how a reader takes a text apart into messages, in whatever pieces the text arrives, and that it
reads back the messages that were written in single lines. -/
namespace KiroProxy.ServerSent

/-- An event without a name is of the default kind. -/
structure Message where
  event : List Char
  data : List Char

structure Reader where
  line : List Char := []
  afterCr : Bool := false
  event : List Char := []
  data : List (List Char) := []
  messages : List Message := []

/-- A line is a field and its value, a comment, or empty, which ends an event. -/
def Reader.endLine (reader : Reader) : Reader :=
  let name := reader.line.takeWhile (· ≠ ':')
  let rest := reader.line.drop (name.length + 1)
  let value := if rest.head? = some ' ' then rest.tail else rest
  if reader.line = [] then
    { messages := if reader.data = [] then reader.messages
        else reader.messages ++ [⟨reader.event, ['\n'].intercalate reader.data⟩] }
  else if name = "event".toList then { reader with line := [], event := value }
  else if name = "data".toList then { reader with line := [], data := reader.data ++ [value] }
  else { reader with line := [] }

/-- A line ends with a line feed, a carriage return, or both. -/
def Reader.push (reader : Reader) (c : Char) : Reader :=
  if c = '\n' then if reader.afterCr then { reader with afterCr := false } else reader.endLine
  else if c = '\r' then { reader.endLine with afterCr := true }
  else { reader with line := reader.line ++ [c], afterCr := false }

def Reader.feed (reader : Reader) (text : List Char) : Reader := text.foldl Reader.push reader

def write (message : Message) : List Char :=
  (if message.event = [] then [] else "event: ".toList ++ message.event ++ ['\n']) ++
    ("data: ".toList ++ message.data ++ ['\n'] ++ ['\n'])

def OneLine (text : List Char) : Prop := ∀ c ∈ text, c ≠ '\n' ∧ c ≠ '\r'

instance (text : List Char) : Decidable (OneLine text) := List.decidableBAll (fun c => c ≠ '\n' ∧ c ≠ '\r') text

variable {front back text : List Char} {reader : Reader}

theorem oneLine_append : OneLine (front ++ back) ↔ OneLine front ∧ OneLine back := List.forall_mem_append

theorem feed_append (front back : List Char) : reader.feed (front ++ back) = (reader.feed front).feed back :=
  List.foldl_append

theorem feed_text (plain : OneLine text) (calm : reader.afterCr = false) :
    reader.feed text = { reader with line := reader.line ++ text } := by
  induction text generalizing reader with
  | nil =>
    rw [List.append_nil]
    rfl
  | cons c rest ih =>
    obtain ⟨feed, ret⟩ := plain c List.mem_cons_self
    have step : reader.push c = { reader with line := reader.line ++ [c] } := by
      rw [Reader.push, if_neg feed, if_neg ret, calm]
    have later : ({ reader with line := reader.line ++ [c] } : Reader).feed rest = _ :=
      ih (fun d member => plain d (List.mem_cons_of_mem c member)) calm
    change (reader.push c).feed rest = _
    rw [step, later]
    simp only [List.append_assoc, List.singleton_append]

theorem feed_line (plain : OneLine text) (calm : reader.afterCr = false) (fresh : reader.line = []) :
    reader.feed (text ++ ['\n']) = { reader with line := text }.endLine := by
  rw [feed_append, feed_text plain calm, fresh, List.nil_append]
  change Reader.push _ '\n' = _
  rw [Reader.push, if_pos rfl, calm, if_neg Bool.false_ne_true]

variable {message : Message}

theorem feed_write (event : OneLine message.event) (data : OneLine message.data) (messages : List Message) :
    ({ messages } : Reader).feed (write message) = { messages := messages ++ [message] } := by
  have named : ({ messages } : Reader).feed
      (if message.event = [] then [] else "event: ".toList ++ message.event ++ ['\n']) =
      { messages, event := message.event } := by
    split
    case isTrue unnamed =>
      rw [unnamed]
      rfl
    case isFalse =>
      rw [feed_line (oneLine_append.mpr ⟨by decide, event⟩) rfl rfl]
      rfl
  have carried : ({ messages, event := message.event } : Reader).feed ("data: ".toList ++ message.data ++ ['\n']) =
      { messages, event := message.event, data := [message.data] } := by
    rw [feed_line (oneLine_append.mpr ⟨by decide, data⟩) rfl rfl]
    rfl
  rw [write, feed_append, named, feed_append, carried]
  change Reader.mk [] false [] [] (messages ++ [⟨message.event, ['\n'].intercalate [message.data]⟩]) = _
  rw [List.intercalate_singleton]

/-- Whatever pieces the text comes in, the messages that were written are read. -/
theorem read_writes {messages : List Message} (plain : ∀ message ∈ messages, OneLine message.event ∧ OneLine message.data)
    {pieces : List (List Char)} (whole : pieces.flatten = messages.flatMap write) :
    (pieces.foldl Reader.feed {}).messages = messages := by
  have all (before : List Message) :
      ({ messages := before } : Reader).feed (messages.flatMap write) = { messages := before ++ messages } := by
    clear whole
    induction messages generalizing before with
    | nil =>
      rw [List.append_nil]
      rfl
    | cons message rest ih =>
      obtain ⟨event, data⟩ := plain message List.mem_cons_self
      rw [List.flatMap_cons, feed_append, feed_write event data,
        ih (fun other member => plain other (List.mem_cons_of_mem message member)), List.append_assoc,
        List.singleton_append]
  have joined : pieces.foldl Reader.feed {} = ({} : Reader).feed pieces.flatten := List.foldl_flatten.symm
  rw [joined, whole, all []]
  rfl

end KiroProxy.ServerSent

import KiroProxy.Http.ResponsesStream

/-! What a client of a Responses stream gets: numbered events, one end, and for each item its own
events in their order, with the item whole at the last of them. -/
namespace KiroProxy.Responses

namespace ResponsesEvent

def outputIndex? : ResponsesEvent → Option Nat
  | response .. => none
  | itemAdded index _ | itemDone index _ | contentPartAdded _ index _ | textDelta _ index _ | textDone _ index _ |
    contentPartDone _ index _ | summaryPartAdded _ index _ | summaryTextDone _ index _ | summaryPartDone _ index _ |
    toolDelta _ _ index _ _ | customInputDone _ index _ | functionArgumentsDone _ index _ _ => some index

def isAdded : ResponsesEvent → Bool
  | itemAdded .. => true
  | _ => false

def isDone : ResponsesEvent → Bool
  | itemDone .. => true
  | _ => false

def isTerminal : ResponsesEvent → Bool
  | response .completed _ | response .incomplete _ | response .failed _ => true
  | _ => false

def delta : ResponsesEvent → String
  | textDelta _ _ delta | toolDelta _ _ _ _ delta => delta
  | _ => ""

def itemText (item : Value) : Option String :=
  match item.kind with
  | some "message" => (item.index "content").blocks.head?.bind fun part => part.getStr "text"
  | some "function_call" => item.getStr "arguments"
  | some "custom_tool_call" => item.getStr "input"
  | _ => none

def finalText : ResponsesEvent → Option String
  | textDone _ _ text | contentPartDone _ _ text | customInputDone _ _ text | functionArgumentsDone _ _ _ text => some text
  | itemDone _ item => itemText item
  | _ => none

end ResponsesEvent

open ResponsesEvent

def own (index : Nat) (events : List ResponsesEvent) : List ResponsesEvent :=
  events.filter fun event => event.outputIndex? = some index

def deltas (events : List ResponsesEvent) : String := events.foldr (fun event later => event.delta ++ later) ""

def addedIndices (events : List ResponsesEvent) : List Nat := (events.filter isAdded).filterMap outputIndex?

/-- An item's events: it is added, and is done with the last of them, as it stands in the output;
what its deltas add up to is what the events at its end say. -/
structure Reported (index : Nat) (item : Value) (events : List ResponsesEvent) : Prop where
  order : ∃ added middle, events = .itemAdded index added :: middle ++ [.itemDone index item] ∧
    ∀ event ∈ middle, event.isAdded = false ∧ event.isDone = false
  whole : ∀ event ∈ events, ∀ text, event.finalText = some text → text = deltas events

/-- A stream as a client needs it: numbers without gaps, one terminal event at its end, places given
out in order; and if it did not fail, each item of the output as its own events report it. -/
structure Delivered (log : List SentEvent) : Prop where
  numbered : log.map (·.sequence) = List.range log.length
  ended : ∃ front last, log.map (·.event) = front ++ [last] ∧ last.isTerminal = true ∧
    ∀ event ∈ front, event.isTerminal = false
  placed : ∃ count, addedIndices (log.map (·.event)) = List.range count
  whole : ∀ kind response, ResponsesEvent.response kind response ∈ log.map (·.event) →
    kind = .completed ∨ kind = .incomplete → ∃ output, response.get "output" = some (.array output) ∧
      addedIndices (log.map (·.event)) = List.range output.length ∧
      ∀ index item, output[index]? = some item → Reported index item (own index (log.map (·.event)))

/-! ### Lists of events -/

theorem own_append (index : Nat) (front back : List ResponsesEvent) :
    own index (front ++ back) = own index front ++ own index back := List.filter_append ..

theorem own_same {index : Nat} {events : List ResponsesEvent} (about : ∀ event ∈ events, event.outputIndex? = some index) :
    own index events = events := by
  apply List.filter_eq_self.2
  intro event member
  exact decide_eq_true (about event member)

theorem own_other {index other : Nat} {events : List ResponsesEvent} (about : ∀ event ∈ events, event.outputIndex? = some index)
    (apart : other ≠ index) : own other events = [] := by
  apply List.filter_eq_nil_iff.2
  intro event member
  rw [about event member, decide_eq_true_eq, Option.some.injEq]
  exact Ne.symm apart

theorem deltas_append (front back : List ResponsesEvent) : deltas (front ++ back) = deltas front ++ deltas back := by
  induction front with
  | nil => simp [deltas]
  | cons event front ih =>
    simp only [deltas, List.cons_append, List.foldr_cons] at ih ⊢
    rw [ih, String.append_assoc]

theorem deltas_none {events : List ResponsesEvent} (silent : ∀ event ∈ events, event.delta = "") : deltas events = "" := by
  induction events with
  | nil => rfl
  | cons event events ih =>
    have rest := ih fun other member => silent other (List.mem_cons_of_mem event member)
    simp only [deltas, List.foldr_cons] at rest ⊢
    rw [rest, silent event List.mem_cons_self]
    rfl

theorem addedIndices_append (front back : List ResponsesEvent) :
    addedIndices (front ++ back) = addedIndices front ++ addedIndices back := by
  simp [addedIndices, List.filter_append, List.filterMap_append]

theorem addedIndices_none {events : List ResponsesEvent} (plain : ∀ event ∈ events, event.isAdded = false) :
    addedIndices events = [] := by
  have empty : events.filter isAdded = [] := by
    apply List.filter_eq_nil_iff.2
    intro event member
    simp [plain event member]
  rw [addedIndices, empty, List.filterMap_nil]

/-! ### The events of one item -/

def ItemContent.streamed : ItemContent → Option String
  | .message text => some text
  | .reasoning _ => none
  | .tool _ _ _ _ input => some input

def closing (index : Nat) (item : OutputItem) : List ResponsesEvent :=
  if item.status = .inProgress then [] else Sending.closingValues index item ++ [.itemDone index (item.json item.status)]

def isPiece : ResponsesEvent → Bool
  | contentPartAdded .. | textDelta .. | summaryPartAdded .. | toolDelta .. => true
  | _ => false

structure Tracked (index : Nat) (item : OutputItem) (added : Value) (middle events : List ResponsesEvent) : Prop where
  order : events = .itemAdded index added :: middle ++ closing index item
  pieces : ∀ event ∈ middle, isPiece event = true
  taken : ∀ text, item.content.streamed = some text → deltas middle = text

def Track (index : Nat) (item : OutputItem) (events : List ResponsesEvent) : Prop :=
  ∃ added middle, Tracked index item added middle events

theorem closingValues_about (index : Nat) (item : OutputItem) :
    ∀ event ∈ Sending.closingValues index item, event.outputIndex? = some index ∧ event.isAdded = false ∧
      event.isDone = false ∧ event.delta = "" ∧ ∀ text, event.finalText = some text → item.content.streamed = some text := by
  obtain ⟨id, content, status⟩ := item
  cases content with
  | message text => simp [Sending.closingValues, outputIndex?, isAdded, isDone, delta, finalText, ItemContent.streamed]
  | reasoning text => simp [Sending.closingValues, outputIndex?, isAdded, isDone, delta, finalText, ItemContent.streamed]
  | tool custom callId name space input =>
    cases custom <;>
      simp [Sending.closingValues, outputIndex?, isAdded, isDone, delta, finalText, ItemContent.streamed]

theorem itemText_json (item : OutputItem) {status : Status} (done : status ≠ .inProgress) :
    itemText (item.json status) = item.content.streamed := by
  obtain ⟨id, content, own⟩ := item
  cases content with
  | message text =>
    simp [OutputItem.json, itemText, Value.kind, Value.getStr, Value.get, Value.index, Value.blocks, Value.asArray,
      Value.asStr, ItemContent.streamed, done, textPart, List.lookup_cons]
  | reasoning text =>
    simp [OutputItem.json, itemText, Value.kind, Value.getStr, Value.get, Value.asStr, ItemContent.streamed,
      List.lookup_cons]
  | tool custom callId name space input =>
    cases custom <;> cases space <;>
      simp [OutputItem.json, itemText, Value.kind, Value.getStr, Value.get, Value.asStr, ItemContent.streamed,
        lookup_setField, List.lookup_cons]

theorem Track.reported {index : Nat} {item : OutputItem} {events : List ResponsesEvent} (track : Track index item events)
    (done : item.status ≠ .inProgress) : Reported index (item.json item.status) events := by
  obtain ⟨added, middle, tracked⟩ := track
  have order := tracked.order
  rw [closing, if_neg done, ← List.append_assoc] at order
  have silent : deltas (Sending.closingValues index item ++ [.itemDone index (item.json item.status)]) = "" := by
    apply deltas_none
    intro event member
    obtain closed | last := List.mem_append.1 member
    · exact (closingValues_about index item event closed).2.2.2.1
    · rw [List.mem_singleton.1 last]
      rfl
  have total : deltas events = deltas middle := by
    rw [order, List.append_assoc, deltas_append, silent, String.append_empty]
    simp [deltas, delta]
  constructor
  · refine ⟨added, middle ++ Sending.closingValues index item, by simp [order], ?_⟩
    intro event member
    obtain piece | closed := List.mem_append.1 member
    · have kind := tracked.pieces event piece
      cases event <;> simp_all [isPiece, isAdded, isDone]
    · have about := closingValues_about index item event closed
      exact ⟨about.2.1, about.2.2.1⟩
  · intro event member text final
    rw [total]
    rw [order] at member
    obtain earlier | last := List.mem_append.1 member
    · obtain first | closed := List.mem_append.1 earlier
      · obtain rfl | piece := List.mem_cons.1 first
        · cases final
        · have kind := tracked.pieces event piece
          cases event <;> simp_all [isPiece, finalText]
      · exact (tracked.taken text ((closingValues_about index item event closed).2.2.2.2 text final)).symm
    · rw [List.mem_singleton.1 last, finalText, itemText_json item done] at final
      exact (tracked.taken text final).symm

/-! ### The encoder's own view -/

open Sending

section Steps

variable (front : List SentEvent)

def sent (s : Sending) : List ResponsesEvent := (front ++ s.events).map (·.event)

def numbers (s : Sending) : List Nat := (front ++ s.events).map (·.sequence)

structure Logged (s : Sending) : Prop where
  numbered : numbers front s = List.range s.stream.sequence
  placed : addedIndices (sent front s) = List.range s.stream.items.length
  tracked : ∀ index item, s.stream.items[index]? = some item → Track index item (own index (sent front s))
  inside : ∀ event ∈ sent front s, ∀ index, event.outputIndex? = some index → index < s.stream.items.length
  quiet : ∀ event ∈ sent front s, event.isTerminal = false

/-- Where text and tools are to be written there is an open item of that kind. -/
structure Active (stream : ResponsesStream) : Prop where
  text : ∀ index, stream.activeText = some index →
    ∃ id text, stream.items[index]? = some { id, content := .message text, status := .inProgress }
  tools : ∀ tool index, (tool, index) ∈ stream.toolIndices → ∃ id custom callId name space input,
    stream.items[index]? = some { id, content := .tool custom callId name space input, status := .inProgress }

structure Consistent (s : Sending) : Prop where
  running : s.stream.terminal = false
  logged : Logged front s
  active : Active s.stream

variable {front} {s : Sending}

@[simp] theorem sent_event (event : ResponsesEvent) : sent front (s.event event) = sent front s ++ [event] := by
  simp [sent, Sending.event]

@[simp] theorem sent_sendAll (events : List ResponsesEvent) : sent front (sendAll events s) = sent front s ++ events := by
  induction events generalizing s with
  | nil => simp [sendAll]
  | cons event events ih =>
    have rest := @ih (s.event event)
    rw [sendAll] at rest ⊢
    rw [List.foldl_cons, rest, sent_event, List.append_assoc, List.singleton_append]

theorem numbered_event (event : ResponsesEvent) (before : numbers front s = List.range s.stream.sequence) :
    numbers front (s.event event) = List.range (s.event event).stream.sequence := by
  have next : numbers front (s.event event) = numbers front s ++ [s.stream.sequence] := by
    simp [numbers, Sending.event]
  rw [next, before]
  exact List.range_succ.symm

theorem numbered_sendAll (events : List ResponsesEvent) (before : numbers front s = List.range s.stream.sequence) :
    numbers front (sendAll events s) = List.range (sendAll events s).stream.sequence := by
  induction events generalizing s with
  | nil => exact before
  | cons event events ih => exact ih (numbered_event event before)

theorem sendAll_stream (events : List ResponsesEvent) :
    ∃ sequence, (sendAll events s).stream = { s.stream with sequence } := by
  induction events generalizing s with
  | nil => exact ⟨s.stream.sequence, rfl⟩
  | cons event events ih =>
    obtain ⟨sequence, same⟩ := @ih (s.event event)
    exact ⟨sequence, same⟩

@[simp] theorem sendAll_items (events : List ResponsesEvent) : (sendAll events s).stream.items = s.stream.items := by
  obtain ⟨sequence, same⟩ := @sendAll_stream s events
  rw [same]

theorem Active.sendAll (events : List ResponsesEvent) (active : Active s.stream) : Active (sendAll events s).stream := by
  obtain ⟨sequence, same⟩ := @sendAll_stream s events
  rw [same]
  exact ⟨active.text, active.tools⟩

theorem Logged.about {index : Nat} {items : List OutputItem} {events : List ResponsesEvent} (logged : Logged front s)
    (there : index < s.stream.items.length) (same_length : items.length = s.stream.items.length)
    (others : ∀ other, other ≠ index → items[other]? = s.stream.items[other]?)
    (about : ∀ event ∈ events, event.outputIndex? = some index ∧ event.isAdded = false)
    (track : ∀ item, items[index]? = some item → Track index item (own index (sent front s) ++ events)) :
    Logged front (sendAll events { s with stream := { s.stream with items } }) := by
  have indexed : ∀ event ∈ events, event.outputIndex? = some index := fun event member => (about event member).1
  constructor
  · exact numbered_sendAll events logged.numbered
  · rw [sent_sendAll, sendAll_items, addedIndices_append, addedIndices_none fun event member => (about event member).2,
      List.append_nil]
    dsimp only
    rw [same_length]
    exact logged.placed
  · intro other item found
    rw [sendAll_items] at found
    rw [sent_sendAll, own_append]
    by_cases here : other = index
    · subst here
      rw [own_same indexed]
      exact track item found
    · rw [own_other indexed here, List.append_nil]
      exact logged.tracked other item (others other here ▸ found)
  · intro event member other place
    rw [sendAll_items]
    dsimp only
    rw [same_length]
    rw [sent_sendAll] at member
    obtain old | new := List.mem_append.1 member
    · exact logged.inside event old other place
    · rw [indexed event new, Option.some.injEq] at place
      exact place ▸ there
  · intro event member
    rw [sent_sendAll] at member
    obtain old | new := List.mem_append.1 member
    · exact logged.quiet event old
    · have place := indexed event new
      cases event <;> first | rfl | cases place

theorem Track.grown {index : Nat} {item : OutputItem} {events more : List ResponsesEvent} {added : String}
    (opened : item.status = .inProgress) (pieces : ∀ event ∈ more, isPiece event = true) (adds : deltas more = added)
    (track : Track index item events) : Track index { item with content := item.content.push added } (events ++ more) := by
  obtain ⟨first, middle, tracked⟩ := track
  refine ⟨first, middle ++ more, ?_, ?_, ?_⟩
  · rw [tracked.order, closing, closing, if_pos opened, if_pos opened]
    simp
  · intro event member
    obtain old | new := List.mem_append.1 member
    · exact tracked.pieces event old
    · exact pieces event new
  · intro text taken
    rw [deltas_append, adds]
    have before := tracked.taken
    cases content : item.content with
    | message old =>
      rw [content] at before taken
      rw [before old rfl]
      exact Option.some.inj taken
    | reasoning old =>
      rw [content] at taken
      cases taken
    | tool custom callId name space old =>
      rw [content] at before taken
      rw [before old rfl]
      exact Option.some.inj taken

theorem Track.closed {index : Nat} {item : OutputItem} {events : List ResponsesEvent} {status : Status}
    (opened : item.status = .inProgress) (done : status ≠ .inProgress) (track : Track index item events) :
    Track index { item with status }
      (events ++ (closingValues index item ++ [ResponsesEvent.itemDone index (item.json status)])) := by
  obtain ⟨first, middle, tracked⟩ := track
  refine ⟨first, middle, ?_, tracked.pieces, tracked.taken⟩
  have order := tracked.order
  rw [closing, if_pos opened, List.append_nil] at order
  rw [order, closing, if_neg done]
  rfl

theorem Logged.close {index : Nat} {status : Status} (logged : Logged front s) (done : status ≠ .inProgress) :
    Logged front (s.close index status) := by
  unfold Sending.close
  cases found : s.stream.items[index]? with
  | none => exact logged
  | some item =>
    dsimp only
    split
    case isTrue => exact logged
    case isFalse opened =>
      have open_item : item.status = .inProgress := not_not.1 opened
      obtain ⟨there, -⟩ := List.getElem?_eq_some_iff.1 found
      refine logged.about there (List.length_set ..) ?_ ?_ ?_
      · intro other apart
        exact List.getElem?_set_ne (Ne.symm apart)
      · intro event member
        obtain value | last := List.mem_append.1 member
        · have about := closingValues_about index item event value
          exact ⟨about.1, about.2.1⟩
        · rw [List.mem_singleton.1 last]
          exact ⟨rfl, rfl⟩
      · intro changed here
        rw [List.getElem?_set_self there, Option.some.injEq] at here
        rw [← here]
        exact (logged.tracked index item found).closed open_item done

theorem Active.close {index : Nat} {status : Status} (active : Active s.stream) (idle : s.stream.activeText ≠ some index)
    (no_tool : ∀ tool, (tool, index) ∉ s.stream.toolIndices) : Active (s.close index status).stream := by
  unfold Sending.close
  cases found : s.stream.items[index]? with
  | none => exact active
  | some item =>
    dsimp only
    split
    case isTrue => exact active
    case isFalse =>
      apply Active.sendAll
      constructor
      · intro other open_text
        have apart : index ≠ other := fun same => idle (same ▸ open_text)
        obtain ⟨id, text, there⟩ := active.text other open_text
        exact ⟨id, text, (List.getElem?_set_ne apart).trans there⟩
      · intro tool other member
        have apart : index ≠ other := fun same => no_tool tool (same ▸ member)
        obtain ⟨id, custom, callId, name, space, input, there⟩ := active.tools tool other member
        exact ⟨id, custom, callId, name, space, input, (List.getElem?_set_ne apart).trans there⟩

theorem close_stream (index : Nat) (status : Status) :
    ∃ items sequence, (s.close index status).stream = { s.stream with items, sequence } := by
  unfold Sending.close
  cases s.stream.items[index]? with
  | none => exact ⟨s.stream.items, s.stream.sequence, rfl⟩
  | some item =>
    dsimp only
    split
    · exact ⟨s.stream.items, s.stream.sequence, rfl⟩
    · obtain ⟨sequence, same⟩ := @sendAll_stream
        { s with stream := { s.stream with items := s.stream.items.set index { item with status } } }
        (closingValues index item ++ [ResponsesEvent.itemDone index (item.json status)])
      exact ⟨_, sequence, same⟩

theorem Consistent.close {index : Nat} {status : Status} (before : Consistent front s) (done : status ≠ .inProgress)
    (idle : s.stream.activeText ≠ some index) (no_tool : ∀ tool, (tool, index) ∉ s.stream.toolIndices) :
    Consistent front (s.close index status) := by
  refine ⟨?_, before.logged.close done, before.active.close idle no_tool⟩
  obtain ⟨items, sequence, same⟩ := @close_stream s index status
  rw [same]
  exact before.running

/-! ### New items -/

variable (outside : Outside)

@[simp] theorem add_items (content : ItemContent) : (s.add outside content).stream.items =
    s.stream.items ++ [OutputItem.new (outside.draw s.stream.items.length) content] := rfl

@[simp] theorem sent_add (content : ItemContent) : sent front (s.add outside content) = sent front s ++
    [.itemAdded s.stream.items.length
      ((OutputItem.new (outside.draw s.stream.items.length) content).json .inProgress)] :=
  sent_event ..

theorem Logged.add {content : ItemContent} (fresh : ∀ text, content.streamed = some text → text = "")
    (logged : Logged front s) : Logged front (s.add outside content) := by
  constructor
  · exact numbered_event _ logged.numbered
  · rw [sent_add, addedIndices_append, logged.placed, add_items, List.length_append, List.length_singleton]
    exact List.range_succ.symm
  · intro index item found
    rw [sent_add, own_append]
    rw [add_items] at found
    by_cases old : index < s.stream.items.length
    · rw [List.getElem?_append_left old] at found
      have about : ∀ event ∈ [ResponsesEvent.itemAdded s.stream.items.length
          ((OutputItem.new (outside.draw s.stream.items.length) content).json .inProgress)],
          event.outputIndex? = some s.stream.items.length := by
        intro event member
        rw [List.mem_singleton.1 member]
        rfl
      have elsewhere := own_other about (Nat.ne_of_lt old)
      rw [elsewhere, List.append_nil]
      exact logged.tracked index item found
    · rw [List.getElem?_append_right (Nat.le_of_not_lt old), List.getElem?_singleton] at found
      split at found
      case isFalse => cases found
      case isTrue last =>
        obtain rfl := Option.some.inj found
        have here : index = s.stream.items.length := by omega
        have nothing : own index (sent front s) = [] := by
          apply List.filter_eq_nil_iff.2
          intro event member about
          exact old (logged.inside event member index (of_decide_eq_true about))
        rw [nothing, here]
        refine ⟨(OutputItem.new (outside.draw s.stream.items.length) content).json .inProgress, [], ?_, by simp,
          fun text taken => (fresh text taken).symm⟩
        simp [own, outputIndex?, closing, OutputItem.new]
  · intro event member index about
    rw [add_items, List.length_append, List.length_singleton]
    rw [sent_add] at member
    obtain old | new := List.mem_append.1 member
    · have before := logged.inside event old index about
      omega
    · rw [List.mem_singleton.1 new, outputIndex?, Option.some.injEq] at about
      omega
  · intro event member
    rw [sent_add] at member
    obtain old | new := List.mem_append.1 member
    · exact logged.quiet event old
    · rw [List.mem_singleton.1 new]
      rfl

theorem Active.add (content : ItemContent) (active : Active s.stream) : Active (s.add outside content).stream := by
  have kept : ∀ {index : Nat} {item : OutputItem}, s.stream.items[index]? = some item →
      (s.add outside content).stream.items[index]? = some item := by
    intro index item found
    obtain ⟨there, -⟩ := List.getElem?_eq_some_iff.1 found
    rw [add_items, List.getElem?_append_left there]
    exact found
  constructor
  · intro index open_text
    obtain ⟨id, text, there⟩ := active.text index open_text
    exact ⟨id, text, kept there⟩
  · intro tool index member
    obtain ⟨id, custom, callId, name, space, input, there⟩ := active.tools tool index member
    exact ⟨id, custom, callId, name, space, input, kept there⟩

theorem Consistent.add (content : ItemContent) (fresh : ∀ text, content.streamed = some text → text = "")
    (before : Consistent front s) : Consistent front (s.add outside content) :=
  ⟨before.running, before.logged.add outside fresh, before.active.add outside content⟩

/-! ### More of an open item -/

theorem push_items (index : Nat) (added : String) : (s.push index added).stream.items =
    s.stream.items.modify index fun item => { item with content := item.content.push added } := rfl

theorem Consistent.push {index : Nat} {item : OutputItem} {added : String} (events : List ResponsesEvent)
    (before : Consistent front s) (found : s.stream.items[index]? = some item) (opened : item.status = .inProgress)
    (pieces : ∀ event ∈ events, event.outputIndex? = some index ∧ isPiece event = true) (adds : deltas events = added) :
    Consistent front (sendAll events (s.push index added)) := by
  obtain ⟨there, -⟩ := List.getElem?_eq_some_iff.1 found
  have mine : (s.push index added).stream.items[index]? = some { item with content := item.content.push added } := by
    rw [push_items, List.getElem?_modify_eq, found]
    rfl
  have others : ∀ other, other ≠ index → (s.push index added).stream.items[other]? = s.stream.items[other]? := by
    intro other apart
    rw [push_items, List.getElem?_modify_ne _ _ (Ne.symm apart)]
  refine ⟨?_, ?_, ?_⟩
  · obtain ⟨sequence, same⟩ := @sendAll_stream (s.push index added) events
    rw [same]
    exact before.running
  · refine before.logged.about there (List.length_modify ..) others ?_ ?_
    · intro event member
      obtain ⟨place, piece⟩ := pieces event member
      exact ⟨place, by cases event <;> first | rfl | cases piece⟩
    · intro changed here
      obtain rfl := Option.some.inj (mine.symm.trans here)
      exact (before.logged.tracked index item found).grown opened (fun event member => (pieces event member).2) adds
  · apply Active.sendAll
    constructor
    · intro other open_text
      obtain ⟨id, text, at_text⟩ := before.active.text other open_text
      by_cases here : other = index
      · subst here
        obtain rfl := Option.some.inj (found.symm.trans at_text)
        exact ⟨id, text ++ added, mine⟩
      · exact ⟨id, text, (others other here).trans at_text⟩
    · intro tool other member
      obtain ⟨id, custom, callId, name, space, input, at_tool⟩ := before.active.tools tool other member
      by_cases here : other = index
      · subst here
        obtain rfl := Option.some.inj (found.symm.trans at_tool)
        exact ⟨id, custom, callId, name, space, input ++ added, mine⟩
      · exact ⟨id, custom, callId, name, space, input, (others other here).trans at_tool⟩

theorem Consistent.event {index : Nat} {item : OutputItem} {event : ResponsesEvent} (before : Consistent front s)
    (found : s.stream.items[index]? = some item) (opened : item.status = .inProgress)
    (about : event.outputIndex? = some index) (piece : isPiece event = true) (silent : event.delta = "") :
    Consistent front (s.event event) := by
  obtain ⟨there, -⟩ := List.getElem?_eq_some_iff.1 found
  have pieces : ∀ other ∈ [event], isPiece other = true := by simpa using piece
  have adds : deltas [event] = "" := deltas_none (by simpa using silent)
  refine ⟨before.running, ?_, ⟨before.active.text, before.active.tools⟩⟩
  refine @Logged.about front s index s.stream.items [event] before.logged there rfl (fun _ _ => rfl) ?_ ?_
  · intro other member
    rw [List.mem_singleton.1 member]
    exact ⟨about, by cases event <;> first | rfl | cases piece⟩
  · intro same here
    obtain rfl := Option.some.inj (found.symm.trans here)
    have grown := (before.logged.tracked index item found).grown opened pieces adds
    have content : item.content.push "" = item.content := by cases item.content <;> simp [ItemContent.push]
    rwa [content] at grown

/-! ### The functions of the encoder -/

theorem Consistent.closeText (before : Consistent front s) :
    Consistent front s.closeText ∧ s.closeText.stream.activeText = none := by
  unfold Sending.closeText
  cases active : s.stream.activeText with
  | none => exact ⟨before, active⟩
  | some index =>
    obtain ⟨id, text, there⟩ := before.active.text index active
    have idle : Consistent front { s with stream := { s.stream with activeText := none } } :=
      ⟨before.running, ⟨before.logged.numbered, before.logged.placed, before.logged.tracked, before.logged.inside,
        before.logged.quiet⟩, ⟨fun _ none => (by cases none), before.active.tools⟩⟩
    constructor
    · refine idle.close (by decide) (by simp) ?_
      intro tool member
      obtain ⟨_, _, _, _, _, _, at_tool⟩ := before.active.tools tool index member
      cases there.symm.trans at_tool
    · obtain ⟨items, sequence, same⟩ := @close_stream { s with stream := { s.stream with activeText := none } } index .completed
      rw [same]

theorem Consistent.touched {pendingReasoning : String} {usage : Value} {finishReason : Option String}
    (before : Consistent front s) :
    Consistent front { s with stream := { s.stream with pendingReasoning, usage, finishReason } } :=
  ⟨before.running, ⟨before.logged.numbered, before.logged.placed, before.logged.tracked, before.logged.inside,
    before.logged.quiet⟩, ⟨before.active.text, before.active.tools⟩⟩

theorem Consistent.reasoning (text : String) (before : Consistent front s) : Consistent front (s.reasoning text) := by
  unfold Sending.reasoning
  split
  · exact before
  · split
    · exact before
    · exact before.touched

theorem Consistent.flushReasoning (before : Consistent front s) : Consistent front (s.flushReasoning outside) := by
  unfold Sending.flushReasoning
  dsimp only
  have taken : Consistent front { s with stream := { s.stream with pendingReasoning := "" } } := before.touched
  split
  · exact taken
  · generalize ({ s with stream := { s.stream with pendingReasoning := "" } } : Sending) = ready at taken ⊢
    obtain ⟨closed, idle⟩ := taken.closeText
    generalize ready.closeText = quiet at closed idle
    have added := closed.add outside (.reasoning s.stream.pendingReasoning) (by simp [ItemContent.streamed])
    have there : (quiet.add outside (.reasoning s.stream.pendingReasoning)).stream.items[quiet.stream.items.length]? =
        some (OutputItem.new (outside.draw quiet.stream.items.length) (.reasoning s.stream.pendingReasoning)) := by
      rw [add_items, List.getElem?_concat_length]
    refine (added.event there rfl rfl rfl rfl).close (by decide) ?_ ?_
    · intro open_text
      cases idle.symm.trans open_text
    · intro tool member
      obtain ⟨_, _, _, _, _, _, at_tool⟩ := added.active.tools tool _ member
      cases there.symm.trans at_tool

theorem Consistent.openText (before : Consistent front s) :
    Consistent front (s.openText outside).1 ∧ (s.openText outside).1.stream.activeText = some (s.openText outside).2 := by
  unfold Sending.openText
  cases active : s.stream.activeText with
  | some index => exact ⟨before, active⟩
  | none =>
    dsimp only
    obtain ⟨closed, -⟩ := before.closeText
    generalize s.closeText = quiet at closed
    have added := closed.add outside (.message "") (by simp [ItemContent.streamed])
    have there : (quiet.add outside (.message "")).stream.items[quiet.stream.items.length]? =
        some (OutputItem.new (outside.draw quiet.stream.items.length) (.message "")) := by
      rw [add_items, List.getElem?_concat_length]
    generalize quiet.add outside (.message "") = larger at added there
    have activated : Consistent front
        { larger with stream := { larger.stream with activeText := some quiet.stream.items.length } } := by
      refine ⟨added.running, ⟨added.logged.numbered, added.logged.placed, added.logged.tracked, added.logged.inside,
        added.logged.quiet⟩, ⟨?_, added.active.tools⟩⟩
      intro index open_text
      obtain rfl := Option.some.inj open_text
      exact ⟨_, _, there⟩
    exact ⟨activated.event there rfl rfl rfl rfl, rfl⟩

theorem Consistent.text (text : String) (before : Consistent front s) : Consistent front (s.text outside text) := by
  unfold Sending.text
  split
  · exact before
  · obtain ⟨opened, active⟩ := (before.flushReasoning outside).openText outside
    generalize (s.flushReasoning outside).openText outside = next at opened active
    obtain ⟨ready, index⟩ := next
    obtain ⟨id, old, there⟩ := opened.active.text index active
    refine opened.push [.textDelta ((ready.push index text).itemId index) index text] there rfl ?_ ?_
    · simp [outputIndex?, isPiece]
    · simp [deltas, delta]

/-! ### The end of a stream -/

variable (front) in
def Ended (s : Sending) : Prop := s.stream.terminal = true ∧ Delivered (front ++ s.events)

theorem numbers_length (numbered : numbers front s = List.range s.stream.sequence) :
    (front ++ s.events).map (·.sequence) = List.range (front ++ s.events).length := by
  have length := congrArg List.length numbered
  rw [numbers, List.length_map, List.length_range] at length
  rw [length]
  exact numbered

theorem Logged.delivered {kind : ResponseKind} {response : Value} (logged : Logged front s)
    (terminal : isTerminal (.response kind response) = true)
    (whole : kind = .completed ∨ kind = .incomplete → ∃ output, response.get "output" = some (.array output) ∧
      output.length = s.stream.items.length ∧
      ∀ index item, output[index]? = some item → Reported index item (own index (sent front s))) :
    Delivered (front ++ (s.event (.response kind response)).events) := by
  have events : (front ++ (s.event (.response kind response)).events).map (·.event) =
      sent front s ++ [.response kind response] := sent_event _
  have places : addedIndices (sent front s ++ [.response kind response]) = List.range s.stream.items.length := by
    rw [addedIndices_append, logged.placed]
    exact List.append_nil _
  constructor
  · exact numbers_length (numbered_event _ logged.numbered)
  · exact ⟨sent front s, .response kind response, events, terminal, logged.quiet⟩
  · exact ⟨_, events ▸ places⟩
  · rw [events]
    intro other body member success
    obtain old | new := List.mem_append.1 member
    · have quiet := logged.quiet _ old
      obtain rfl | rfl := success <;> cases quiet
    · obtain ⟨rfl, rfl⟩ := ResponsesEvent.response.inj (List.mem_singleton.1 new)
      obtain ⟨output, held, length, reported⟩ := whole success
      refine ⟨output, held, length ▸ places, ?_⟩
      intro index item found
      have nothing : own index [ResponsesEvent.response other body] = [] := by simp [own, outputIndex?]
      rw [own_append, nothing, List.append_nil]
      exact reported index item found

theorem Consistent.fail (code message : String) (before : Consistent front s) :
    Ended front (s.fail outside code message) := by
  unfold Sending.fail
  rw [before.running]
  simp only [Bool.false_eq_true, if_false]
  refine ⟨rfl, ?_⟩
  have logged : Logged front { s with stream := { s.stream with pendingReasoning := "", terminal := true } } :=
    ⟨before.logged.numbered, before.logged.placed, before.logged.tracked, before.logged.inside, before.logged.quiet⟩
  refine logged.delivered rfl ?_
  rintro (success | success) <;> cases success

/-! ### Tools and whole chunks -/

variable (front) in
def Outcome : Except Sending Sending → Prop
  | .ok s => Consistent front s
  | .error s => Ended front s

theorem Outcome.fold {α : Type} {f : Sending → α → Except Sending Sending}
    (step : ∀ {s : Sending} (x : α), Consistent front s → Outcome front (f s x)) (xs : List α)
    (before : Consistent front s) : Outcome front (xs.foldlM f s) := by
  induction xs generalizing s with
  | nil => exact before
  | cons x xs ih =>
    have one := step x before
    rw [List.foldlM_cons]
    cases result : f s x with
    | error last =>
      rw [result] at one
      exact one
    | ok next =>
      rw [result] at one
      exact ih one

def OpenTool (stream : ResponsesStream) (index : Nat) : Prop := ∃ id custom callId name space input,
  stream.items[index]? = some { id, content := .tool custom callId name space input, status := .inProgress }

theorem Consistent.toolInput {index : Nat} (call : Value) (before : Consistent front s)
    (tool : OpenTool s.stream index) : Consistent front (s.toolInput index call) := by
  obtain ⟨id, custom, callId, name, space, input, there⟩ := tool
  unfold Sending.toolInput
  rw [there]
  dsimp only [Option.map_some]
  generalize ((call.index (if custom = true then "custom" else "function")).index
    (if custom = true then "input" else "arguments")).asStr.getD "" = added
  by_cases empty : added = ""
  · rw [if_pos empty, empty]
    exact before.push [] there rfl (by simp) rfl
  · rw [if_neg empty]
    refine before.push [.toolDelta custom ((s.push index added).itemId index) index callId added] there rfl ?_ ?_
    · simp [outputIndex?, isPiece]
    · simp [deltas, delta]

theorem tool_shape (options : ResponsesOptions) (call : Value) :
    ∃ custom callId name space input, options.tool call = .tool custom callId name space input :=
  ⟨_, _, _, _, _, rfl⟩

theorem Consistent.addTool (toolIndex : Nat) (call : Value) (before : Consistent front s) :
    match s.addTool outside toolIndex call with
    | .error last => Ended front last
    | .ok (next, index) => Consistent front next ∧ OpenTool next.stream index := by
  obtain ⟨custom, callId, name, space, input, shape⟩ := tool_shape s.stream.options call
  unfold Sending.addTool
  rw [shape]
  dsimp only
  split
  case h_1 last failed =>
    split at failed
    · cases failed
      exact before.fail outside "invalid_stream" "tool delta is missing its call id or name"
    · cases failed
  case h_2 next index opened =>
    split at opened
    · cases opened
    · have added := before.add outside (.tool custom callId name space "") (by simp [ItemContent.streamed])
      have there : (s.add outside (.tool custom callId name space "")).stream.items[s.stream.items.length]? =
          some (OutputItem.new (outside.draw s.stream.items.length) (.tool custom callId name space "")) := by
        rw [add_items, List.getElem?_concat_length]
      cases opened
      have tool : OpenTool (s.add outside (.tool custom callId name space "")).stream s.stream.items.length :=
        ⟨_, _, _, _, _, _, there⟩
      refine ⟨⟨added.running, ⟨added.logged.numbered, added.logged.placed, added.logged.tracked, added.logged.inside,
        added.logged.quiet⟩, ⟨added.active.text, ?_⟩⟩, tool⟩
      intro other index member
      obtain new | old := List.mem_cons.1 member
      · cases new
        exact tool
      · exact added.active.tools other index old

theorem Consistent.toolDelta (call : Value) (before : Consistent front s) :
    Outcome front (s.toolDelta outside call) := by
  unfold Sending.toolDelta
  cases (call.index "index").asU64 with
  | none => exact before.fail outside "invalid_stream" "tool delta is missing its index"
  | some toolIndex =>
    dsimp only
    cases known : s.stream.toolIndices.lookup toolIndex with
    | some index => exact before.toolInput call (before.active.tools toolIndex index (mem_of_lookup known))
    | none =>
      have added := before.addTool outside toolIndex call
      cases result : s.addTool outside toolIndex call with
      | error last =>
        rw [result] at added
        exact added
      | ok opened =>
        rw [result] at added
        exact added.1.toolInput call added.2

theorem Consistent.elim {f : String → Sending} (before : Consistent front s) (text : Option String)
    (written : ∀ text, Consistent front (f text)) : Consistent front (text.elim s f) := by
  cases text with
  | none => exact before
  | some text => exact written text

theorem Consistent.choice (choice : Value) (before : Consistent front s) :
    Outcome front (s.choice outside choice) := by
  unfold Sending.choice
  dsimp only
  have told : Consistent front (s.setFinishReason choice) := by
    unfold Sending.setFinishReason
    cases (choice.index "finish_reason").asStr with
    | none => exact before
    | some reason => exact before.touched
  generalize s.setFinishReason choice = s at told
  have reasoned := told.elim ((choice.index "delta").index "reasoning_content").asStr fun text => told.reasoning text
  generalize ((choice.index "delta").index "reasoning_content").asStr.elim s (fun text => s.reasoning text) = s at reasoned
  have written := reasoned.elim ((choice.index "delta").index "content").asStr fun text => reasoned.text outside text
  generalize ((choice.index "delta").index "content").asStr.elim s (fun text => s.text outside text) = s at written
  cases ((choice.index "delta").index "tool_calls").asArray with
  | none => exact written
  | some calls =>
    refine Outcome.fold ?_ calls (written.flushReasoning outside).closeText.1
    intro s call before
    exact before.toolDelta outside call

theorem Consistent.chunk (chat : Value) (before : Consistent front s) :
    Consistent front (s.chunk outside chat) ∨ Ended front (s.chunk outside chat) := by
  unfold Sending.chunk
  rw [before.running]
  simp only [Bool.false_eq_true, if_false]
  cases chat.get "error" with
  | some error => exact .inr (before.fail outside _ _)
  | none =>
    dsimp only
    have counted : Consistent front (s.takeUsage chat) := by
      unfold Sending.takeUsage
      split
      · exact before.touched
      · exact before
    generalize s.takeUsage chat = s at counted
    cases (chat.index "choices").asArray with
    | none => exact .inr (counted.fail outside _ _)
    | some choices =>
      have outcome : Outcome front (choices.foldlM (Sending.choice outside) s) :=
        Outcome.fold (fun choice before => before.choice outside choice) choices counted
      dsimp only
      cases result : choices.foldlM (Sending.choice outside) s with
      | ok next =>
        rw [result] at outcome
        exact .inl outcome
      | error last =>
        rw [result] at outcome
        exact .inr outcome

/-! ### Finishing -/

theorem Consistent.addEmptyMessage (before : Consistent front s) : Consistent front (s.addEmptyMessage outside) := by
  unfold Sending.addEmptyMessage
  split
  · have added := before.add outside (.message "") (by simp [ItemContent.streamed])
    have there : (s.add outside (.message "")).stream.items[s.stream.items.length]? =
        some (OutputItem.new (outside.draw s.stream.items.length) (.message "")) := by
      rw [add_items, List.getElem?_concat_length]
    exact added.event there rfl rfl rfl rfl
  · exact before

def OutputItem.closed (status : Status) (item : OutputItem) : OutputItem :=
  if item.status = .inProgress then { item with status } else item

theorem close_items (index other : Nat) (status : Status) : (s.close index status).stream.items[other]? =
    if other = index then (s.stream.items[other]?).map (·.closed status) else s.stream.items[other]? := by
  by_cases same : other = index
  · subst same
    rw [if_pos rfl, Sending.close]
    cases found : s.stream.items[other]? with
    | none => exact found
    | some item =>
      dsimp only
      by_cases opened : item.status = .inProgress
      · obtain ⟨there, -⟩ := List.getElem?_eq_some_iff.1 found
        rw [if_neg (not_not.2 opened), sendAll_items, Option.map_some, OutputItem.closed, if_pos opened]
        exact List.getElem?_set_self there
      · rw [if_pos opened, found, Option.map_some, OutputItem.closed, if_neg opened]
  · rw [if_neg same, Sending.close]
    cases s.stream.items[index]? with
    | none => rfl
    | some item =>
      dsimp only
      by_cases opened : item.status = .inProgress
      · rw [if_neg (not_not.2 opened), sendAll_items]
        exact List.getElem?_set_ne (Ne.symm same)
      · rw [if_pos opened]

theorem closeIndices_spec {status : Status} (done : status ≠ .inProgress) (indices : List Nat) (logged : Logged front s) :
    Logged front (indices.foldl (fun s index => s.close index status) s) ∧
      ∀ other, (indices.foldl (fun s index => s.close index status) s).stream.items[other]? =
        if other ∈ indices then (s.stream.items[other]?).map (·.closed status) else s.stream.items[other]? := by
  induction indices generalizing s with
  | nil => exact ⟨logged, fun other => by simp⟩
  | cons index indices ih =>
    have first : Logged front (s.close index status) := logged.close done
    obtain ⟨after, items⟩ := ih first
    refine ⟨after, fun other => ?_⟩
    have twice : ∀ item : OutputItem, (item.closed status).closed status = item.closed status := by
      intro item
      unfold OutputItem.closed
      by_cases opened : item.status = .inProgress
      · rw [if_pos opened]
        exact if_neg done
      · rw [if_neg opened, if_neg opened]
    rw [List.foldl_cons, items other, close_items]
    by_cases here : other = index
    · subst here
      by_cases again : other ∈ indices
      · simp [again, Function.comp_def, twice]
      · simp [again]
    · by_cases later : other ∈ indices
      · simp [here, later]
      · simp [here, later]

theorem Logged.closeAll {status : Status} (done : status ≠ .inProgress) (logged : Logged front s) :
    Logged front (s.closeAll status) ∧ (s.closeAll status).stream.items = s.stream.items.map (·.closed status) := by
  obtain ⟨after, items⟩ := closeIndices_spec done (List.range s.stream.items.length) logged
  refine ⟨after, ?_⟩
  apply List.ext_getElem?
  intro other
  rw [Sending.closeAll, items other, List.getElem?_map]
  split
  case isTrue => rfl
  case isFalse beyond =>
    rw [List.mem_range, not_lt] at beyond
    rw [List.getElem?_eq_none beyond]
    rfl

theorem envelope_output (options : ResponsesOptions) (output : List Value) (status : Status) (usage error : Value) :
    (options.envelope output status usage error).get "output" = some (.array output) := by
  unfold ResponsesOptions.envelope
  dsimp only [Value.get]
  split <;> simp [lookup_setField]

theorem finalize_ok {options : ResponsesOptions} {insert : ResponsesOptions.Insert} {output : List Value} {status : Status}
    {usage response : Value} (finalized : options.finalize insert output status usage = .ok response) :
    response = options.envelope output status usage .null := by
  unfold ResponsesOptions.finalize at finalized
  split at finalized
  · split at finalized
    · cases finalized
    · exact (Except.ok.inj finalized).symm
  · exact (Except.ok.inj finalized).symm

theorem Consistent.finish (insert : ResponsesOptions.Insert) (before : Consistent front s) :
    Ended front (s.finish outside insert) := by
  unfold Sending.finish
  rw [before.running]
  simp only [Bool.false_eq_true, if_false]
  split
  · exact before.fail outside _ _
  · have ready := (before.flushReasoning outside).addEmptyMessage outside
    generalize (s.flushReasoning outside).addEmptyMessage outside = last at ready
    have done : (if s.stream.finishReason = some "length" then Status.incomplete else .completed) ≠ .inProgress := by
      split <;> decide
    generalize (if s.stream.finishReason = some "length" then Status.incomplete else .completed) = status at done
    split
    case h_1 message refused => exact ready.fail outside _ _
    case h_2 response finalized =>
      refine ⟨rfl, ?_⟩
      obtain ⟨closed, items⟩ := ready.logged.closeAll done
      refine closed.delivered (by split <;> rfl) fun _ => ?_
      refine ⟨last.stream.items.map fun item => item.json (if item.status = .inProgress then status else item.status),
        ?_, ?_, ?_⟩
      · rw [finalize_ok finalized]
        exact envelope_output ..
      · rw [items, List.length_map, List.length_map]
      · intro index item found
        rw [List.getElem?_map, Option.map_eq_some_iff] at found
        obtain ⟨source, there, rfl⟩ := found
        have at_place : (last.closeAll status).stream.items[index]? = some (source.closed status) := by
          rw [items, List.getElem?_map, there]
          rfl
        have track := closed.tracked index _ at_place
        unfold OutputItem.closed at track
        split at track
        case isTrue opened =>
          rw [if_pos opened]
          exact track.reported done
        case isFalse shut =>
          rw [if_neg shut]
          exact track.reported shut

/-! ### Whole streams -/

theorem Consistent.start (options : ResponsesOptions) : Consistent [] (Sending.start { stream := { options } }) := by
  have events : sent [] (Sending.start { stream := { options } }) =
      [.response .created (.object options.template), .response .inProgress (.object options.template)] := rfl
  refine ⟨rfl, ⟨rfl, rfl, ?_, ?_, ?_⟩, ?_⟩
  · intro index item found
    cases found
  · intro event member index about
    rw [events, List.mem_cons, List.mem_singleton] at member
    obtain rfl | rfl := member <;> cases about
  · intro event member
    rw [events, List.mem_cons, List.mem_singleton] at member
    obtain rfl | rfl := member <;> rfl
  · constructor
    · intro index active
      cases active
    · intro tool index member
      cases member

theorem Consistent.split (before : Consistent [] s) : Consistent s.events { stream := s.stream } := by
  have same : sent s.events { stream := s.stream } = sent [] s := by simp [sent]
  have numbered : numbers s.events { stream := s.stream } = numbers [] s := by simp [numbers]
  refine ⟨before.running, ⟨numbered ▸ before.logged.numbered, same ▸ before.logged.placed, same ▸ before.logged.tracked,
    same ▸ before.logged.inside, same ▸ before.logged.quiet⟩, before.active⟩

theorem Consistent.joined (after : Consistent front s) : Consistent [] { s with events := front ++ s.events } :=
  ⟨after.running, ⟨after.logged.numbered, after.logged.placed, after.logged.tracked, after.logged.inside,
    after.logged.quiet⟩, after.active⟩

theorem call_ended (ended : s.stream.terminal = true) (call : StreamCall) : s.call outside call = s := by
  have same : s.stream.call outside call = { stream := s.stream } := by
    cases call with
    | chunk chat => simp [ResponsesStream.call, Sending.chunk, ended]
    | finish insert => simp [ResponsesStream.call, Sending.finish, ended]
    | fail code message => simp [ResponsesStream.call, Sending.fail, ended]
  rw [Sending.call, same]
  simp

theorem run_ended (ended : Ended [] s) (calls : List StreamCall) : Ended [] (Run.run (Sending.call outside) s calls) := by
  refine Run.run_always ?_ calls ended
  intro s call before
  rw [call_ended outside before.1 call]
  exact before

theorem run_chunks (chats : List Value) (before : Consistent [] s ∨ Ended [] s) :
    Consistent [] (Run.run (Sending.call outside) s (chats.map .chunk)) ∨
      Ended [] (Run.run (Sending.call outside) s (chats.map .chunk)) := by
  induction chats generalizing s with
  | nil => exact before
  | cons chat chats ih =>
    apply ih
    obtain going | ended := before
    · exact (going.split.chunk outside chat).imp Consistent.joined id
    · rw [call_ended outside ended.1]
      exact .inr ended

end Steps

inductive Ending where
  | finish (insert : ResponsesOptions.Insert)
  | fail (code message : String)

def Ending.call : Ending → StreamCall
  | finish insert => .finish insert
  | fail code message => .fail code message

/-- Whatever chunks come, whichever way the source stops and whatever is called then: the client gets
a stream whose items are as its terminal event has them. -/
theorem streamed_delivered (outside : Outside) (options : ResponsesOptions) (chats : List Value) (ending : Ending)
    (later : List StreamCall) :
    Delivered (streamed outside options (chats.map .chunk ++ ending.call :: later)).events := by
  have begun : Consistent [] (Sending.start { stream := { options } }) := Consistent.start options
  have middle := run_chunks outside chats (.inl begun)
  rw [streamed, Run.run_append, Run.run_cons]
  generalize Run.run (Sending.call outside) (Sending.start { stream := { options } }) (chats.map .chunk) = s at middle
  have ended : Ended [] (s.call outside ending.call) := by
    obtain going | ended := middle
    · cases ending with
      | finish insert => exact going.split.finish outside insert
      | fail code message => exact going.split.fail outside code message
    · rw [call_ended outside ended.1]
      exact ended
  exact (run_ended outside ended later).2

section Interleaved

def plainOptions : ResponsesOptions :=
  { template := [("id", .string "resp_1")], toolNames := [], emitReasoningSummary := true, session := none }

def plainOutside : Outside := { draw := toString, sanitizeErrorMessage := id }

def deltaChunk (delta : List (String × Value)) : Value :=
  .object [("choices", .array [.object [("delta", .object delta)]])]

def callChunk (arguments : String) : Value :=
  deltaChunk [("tool_calls", .array [.object
    [("function", .object [("arguments", .string arguments), ("name", .string "read_file")]), ("id", .string "call_1"),
      ("index", .number (.posInt 0))]])]

def interleaved : List StreamCall :=
  [.chunk (callChunk "["), .chunk (deltaChunk [("content", .string "Reading.")]), .chunk (callChunk "]"),
    .chunk (.object [("choices", .array [.object [("finish_reason", .string "tool_calls")]]), ("usage", .object [])]),
    .finish fun _ _ _ => true]

def interleavedEvents : List ResponsesEvent := (streamed plainOutside plainOptions interleaved).events.map (·.event)

def doneItems (events : List ResponsesEvent) : List Value :=
  events.filterMap fun event => match event with
    | .itemDone _ item => some item
    | _ => none

def outputOf : ResponsesEvent → Option (List Value)
  | .response .completed body => (body.get "output").bind Value.asArray
  | _ => none

/-- The text is done before the call that was added first: the items of the done events are in
another order than the output of the completed response. -/
theorem done_out_of_order : ∃ response output, interleavedEvents.getLast? = some (.response .completed response) ∧
    response.get "output" = some (.array output) ∧ doneItems interleavedEvents ≠ output := by
  have last : (interleavedEvents.getLast?.bind outputOf).map (fun output => output.map Value.kind) =
      some [some "function_call", some "message"] := by decide +kernel
  have kinds : (doneItems interleavedEvents).map Value.kind = [some "message", some "function_call"] := by decide +kernel
  obtain ⟨output, found, order⟩ := Option.map_eq_some_iff.1 last
  obtain ⟨event, at_end, given⟩ := Option.bind_eq_some_iff.1 found
  unfold outputOf at given
  split at given
  case h_2 => cases given
  case h_1 response =>
    obtain ⟨value, held, array⟩ := Option.bind_eq_some_iff.1 given
    refine ⟨response, output, at_end, ?_, fun same => ?_⟩
    · cases value <;> cases array
      exact held
    · rw [same, order] at kinds
      revert kinds
      decide

end Interleaved

end KiroProxy.Responses

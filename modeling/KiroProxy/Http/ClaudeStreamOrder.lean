import KiroProxy.Http.ClaudeStream
import KiroProxy.Lib.Run

/-! Which answers reach the client as one well formed message. -/
namespace KiroProxy.Http

open Kiro Blocks Run

/-- One message: its start, numbered content blocks one after the other, and its end. -/
def WellFormed (events : List SseEvent) : Prop :=
  ∃ message blocks delta usage management, events = .messageStart message ::
    ((written 0 blocks).map .contentBlock ++ [.messageDelta delta usage management, .messageStop])

inductive Phase where
  | unopened
  | content (reader : Reader)
  | told
  | finished

def Phase.read : Phase → SseEvent → Option Phase
  | unopened, .messageStart _ => some (content .initial)
  | content reader, .contentBlock token => (reader.read token).map content
  | content reader, .messageDelta _ _ _ => if reader.opened = none then some told else none
  | told, .messageStop => some finished
  | _, _ => none

def Phase.readAll (phase : Phase) (events : List SseEvent) : Option Phase := events.foldlM Phase.read phase

theorem readAll_contents (reader : Reader) (tokens : List (Token Value Value)) :
    (Phase.content reader).readAll (tokens.map .contentBlock) = (reader.readAll tokens).map .content := by
  induction tokens generalizing reader with
  | nil => rfl
  | cons token rest ih =>
    simp only [Phase.readAll] at ih
    simp only [Phase.readAll, Reader.readAll, List.map_cons, List.foldlM_cons, Phase.read, Option.bind_eq_bind,
      Option.map_bind]
    cases reader.read token with
    | none => rfl
    | some next => simpa [Reader.readAll] using ih next

variable {events : List SseEvent} {s : ClaudeState}

theorem of_told (accepted : Phase.told.readAll events = some .finished) :
    events = [.messageStop] := by
  cases events with
  | nil => cases accepted
  | cons event rest =>
    simp only [Phase.readAll, List.foldlM_cons, Option.bind_eq_bind, Option.bind_eq_some_iff] at accepted
    obtain ⟨phase, taken, accepted⟩ := accepted
    cases event with
    | messageStop =>
      cases taken
      -- Nothing may follow the end of the message.
      cases rest with
      | nil => rfl
      | cons event rest => cases accepted
    | _ => cases taken

theorem of_contents {reader : Reader} (accepted : (Phase.content reader).readAll events = some .finished) :
    ∃ tokens last delta usage management, events = tokens.map .contentBlock ++
      [.messageDelta delta usage management, .messageStop] ∧
      reader.readAll tokens = some last ∧ last.opened = none := by
  induction events generalizing reader with
  | nil => cases accepted
  | cons event rest ih =>
    simp only [Phase.readAll, List.foldlM_cons, Option.bind_eq_bind, Option.bind_eq_some_iff] at accepted
    obtain ⟨phase, taken, accepted⟩ := accepted
    cases event with
    | messageStart message => cases taken
    | contentBlock token =>
      simp only [Phase.read, Option.map_eq_some_iff] at taken
      obtain ⟨next, read, rfl⟩ := taken
      obtain ⟨tokens, last, delta, usage, management, rfl, remaining, closed⟩ := ih accepted
      refine ⟨token :: tokens, last, delta, usage, management, rfl, ?_, closed⟩
      simpa [Reader.readAll, read] using remaining
    | messageDelta delta usage management =>
      simp only [Phase.read, Option.ite_none_right_eq_some, Option.some.injEq] at taken
      obtain ⟨closed, rfl⟩ := taken
      rw [of_told accepted]
      exact ⟨[], reader, delta, usage, management, rfl, rfl, closed⟩
    | messageStop => cases taken

theorem wellFormed_iff :
    WellFormed events ↔ Phase.unopened.readAll events = some .finished := by
  constructor
  · rintro ⟨message, blocks, delta, usage, management, rfl⟩
    have blocksRead : (Phase.content .initial).readAll ((written 0 blocks).map .contentBlock) =
        some (.content ⟨0 + blocks.length, none⟩) := by
      rw [readAll_contents, Reader.initial, readAll_written, Option.map_some]
    simp only [Phase.readAll] at blocksRead
    simp [Phase.readAll, Phase.read, blocksRead]
  · intro accepted
    cases events with
    | nil => cases accepted
    | cons event rest =>
      simp only [Phase.readAll, List.foldlM_cons, Option.bind_eq_bind, Option.bind_eq_some_iff] at accepted
      obtain ⟨phase, taken, accepted⟩ := accepted
      cases event with
      | messageStart message =>
        cases taken
        obtain ⟨tokens, last, delta, usage, management, rfl, read, closed⟩ := of_contents accepted
        obtain ⟨blocks, rfl⟩ := written_iff.2 ⟨last, read, closed⟩
        exact ⟨message, blocks, delta, usage, management, rfl⟩
      | _ => cases taken

def ClaudeState.phase (s : ClaudeState) : Phase :=
  if s.messageStarted then .content ⟨s.nextIndex, s.block.map (·.1)⟩ else .unopened

/-- Indices are given out once, and the block with a call's index is that call's. -/
structure Numbered (s : ClaudeState) : Prop where
  begun : s.messageStarted = false → s.block = none ∧ s.nextIndex = 0 ∧ s.toolIndices = []
  opened : ∀ index kind, s.block = some (index, kind) → index < s.nextIndex
  tools : ∀ id index, s.toolIndices.lookup id = some index →
    index < s.nextIndex ∧ ∀ kind, s.block = some (index, kind) → kind = .toolUse

/-- A client in the given phase can read the output, and is then where the encoder takes it to be. -/
structure Follows (phase : Phase) (e : Encoder) : Prop where
  numbered : Numbered e.state
  read : phase.readAll e.output = some e.state.phase

section Operations

variable {phase : Phase} {e : Encoder}

theorem readAll_push (phase : Phase) (output : List SseEvent) (event : SseEvent) :
    phase.readAll (output ++ [event]) = (phase.readAll output).bind fun next => next.read event := by
  simp [Phase.readAll]

theorem begin_follows (numbered : Numbered s) : Follows s.phase s.begin := ⟨numbered, rfl⟩

theorem phase_started (started : s.messageStarted = true) :
    s.phase = .content ⟨s.nextIndex, s.block.map (·.1)⟩ := by
  simp [ClaudeState.phase, started]

theorem Numbered.started (numbered : Numbered s) {entry : Nat × BlockKind} (opened : s.block = some entry) :
    s.messageStarted = true := by
  cases began : s.messageStarted with
  | true => rfl
  | false => simp [(numbered.begun began).1] at opened

theorem Follows.ensureMessage (follows : Follows phase e) :
    Follows phase e.ensureMessage ∧ e.ensureMessage.state.messageStarted = true := by
  unfold Encoder.ensureMessage
  split
  case isTrue started => exact ⟨follows, started⟩
  case isFalse silent =>
    have silent : e.state.messageStarted = false := by simpa using silent
    obtain ⟨closed, zero, -⟩ := follows.numbered.begun silent
    refine ⟨⟨⟨(fun began => by cases began), follows.numbered.opened, follows.numbered.tools⟩, ?_⟩, rfl⟩
    rw [readAll_push, follows.read]
    simp [ClaudeState.phase, silent, closed, zero, Phase.read, Reader.initial]

variable {index : Nat} {kind : BlockKind} {id inputDelta : String}

theorem Follows.delta (follows : Follows phase e) (opened : e.state.block = some (index, kind)) (piece : Value) :
    Follows phase (e.delta index piece) := by
  refine ⟨follows.numbered, ?_⟩
  have started := phase_started (follows.numbered.started opened)
  simp only [Encoder.delta, Encoder.push]
  rw [readAll_push, follows.read, started]
  simp [opened, Phase.read, Reader.read]

theorem Follows.deltas (follows : Follows phase e) (opened : e.state.block = some (index, kind)) (pieces : List Value) :
    Follows phase (pieces.foldl (fun e piece => e.delta index piece) e) ∧
      (pieces.foldl (fun e piece => e.delta index piece) e).state = e.state := by
  induction pieces generalizing e with
  | nil => exact ⟨follows, rfl⟩
  | cons piece rest ih =>
    have next := follows.delta opened piece
    exact ih next opened

theorem Follows.closeBlock (follows : Follows phase e) (opened : e.state.block = some (index, kind)) :
    Follows phase (e.closeBlock index) := by
  have began := follows.numbered.started opened
  constructor
  · refine ⟨fun silent => ?_, fun _ _ stillOpen => ?_, fun id index known => ⟨?_, fun _ stillOpen => ?_⟩⟩
    · cases began.symm.trans silent
    · cases stillOpen
    · exact (follows.numbered.tools id index known).1
    · cases stillOpen
  · simp only [Encoder.closeBlock, Encoder.stop, Encoder.push]
    rw [readAll_push, follows.read, phase_started began]
    simp [opened, Phase.read, Reader.read, ClaudeState.phase, began]

theorem Follows.openBlock (follows : Follows phase e) (began : e.state.messageStarted = true)
    (closed : e.state.block = none) (kind : BlockKind) (initial : Value) :
    Follows phase (e.openBlock kind initial).1 := by
  constructor
  · refine ⟨fun silent => ?_, fun index current opened => ?_, fun id index known => ?_⟩
    · cases began.symm.trans silent
    · cases opened
      exact Nat.lt_succ_self _
    · have earlier := (follows.numbered.tools id index known).1
      refine ⟨Nat.lt_succ_of_lt earlier, fun current opened => ?_⟩
      cases opened
      exact absurd earlier (lt_irrefl _)
  · simp only [Encoder.openBlock]
    rw [readAll_push, follows.read, phase_started began]
    simp [closed, Phase.read, Reader.read, ClaudeState.phase, began]

theorem Follows.switchBlock (follows : Follows phase e) (kind : BlockKind) (initial : Value) :
    Follows phase (e.switchBlock kind initial).1 ∧
      (e.switchBlock kind initial).1.state.block = some ((e.switchBlock kind initial).2, kind) := by
  obtain ⟨next, began⟩ := follows.ensureMessage
  simp only [Encoder.switchBlock]
  split
  case h_1 index current opened =>
    split
    case isTrue same => exact ⟨next, by rw [← same.1]; exact opened⟩
    case isFalse =>
      have closed := next.closeBlock opened
      exact ⟨closed.openBlock began rfl kind initial, rfl⟩
  case h_2 closed => exact ⟨next.openBlock began closed kind initial, rfl⟩

theorem Follows.wholeBlock (follows : Follows phase e) (kind : BlockKind) (initial : Value) (pieces : List Value) :
    Follows phase (e.wholeBlock kind initial pieces) := by
  obtain ⟨next, opened⟩ := follows.switchBlock kind initial
  obtain ⟨filled, same⟩ := next.deltas opened pieces
  exact filled.closeBlock (by rw [same]; exact opened)

theorem Follows.textBlock (follows : Follows phase e) (text : String) : Follows phase (e.textBlock text) := by
  obtain ⟨next, opened⟩ := follows.switchBlock .text (.object [("text", .string ""), ("type", .string "text")])
  exact next.delta opened _

theorem Follows.thinking (follows : Follows phase e) (content : String) (signature : Option String) :
    Follows phase (ClaudeState.thinking e content signature) := by
  unfold ClaudeState.thinking
  split
  · exact follows
  · obtain ⟨next, opened⟩ := follows.switchBlock .thinking
      (.object [("signature", .string ""), ("thinking", .string ""), ("type", .string "thinking")])
    generalize e.switchBlock _ _ = switched at next opened
    obtain ⟨e, index⟩ := switched
    simp only at next opened ⊢
    cases signature with
    | none =>
      simp only
      split
      · exact next
      · exact next.delta opened _
    | some signature =>
      simp only
      split
      · exact next.delta opened _
      · exact (next.delta opened _).delta opened _

/-- A fragment with something to send comes for a call whose block is not the open one. -/
def ClaudeState.untimely (s : ClaudeState) : KiroEvent → Bool
  | .toolUse id _ inputDelta _ => (s.toolIndices.lookup id).any fun index =>
      s.block ≠ some (index, .toolUse) ∧ inputDelta ≠ "" ∧ (Text.trim inputDelta ≠ "" ∨ id ∈ s.toolsWithInput)
  | _ => false

theorem Follows.toolInput (follows : Follows phase e) (opened : e.state.block = some (index, .toolUse))
    (id inputDelta : String) (stop : Bool) : Follows phase (ClaudeState.toolInput e index id inputDelta stop) := by
  unfold ClaudeState.toolInput
  -- Remembering that the call has arguments changes neither the phase nor the numbers.
  have noted : Follows phase (if Text.trim inputDelta = "" then e
      else { e with state := { e.state with toolsWithInput := id :: e.state.toolsWithInput } }) := by
    split
    · exact follows
    · exact ⟨⟨follows.numbered.begun, follows.numbered.opened, follows.numbered.tools⟩, follows.read⟩
  have stillOpen : (if Text.trim inputDelta = "" then e
      else { e with state := { e.state with toolsWithInput := id :: e.state.toolsWithInput } }).state.block =
        some (index, .toolUse) := by
    split <;> exact opened
  generalize (if Text.trim inputDelta = "" then e
      else { e with state := { e.state with toolsWithInput := id :: e.state.toolsWithInput } }) = e at noted stillOpen
  simp only
  split
  · split
    · exact (noted.delta stillOpen _).closeBlock stillOpen
    · exact noted.delta stillOpen _
  · split
    · exact noted.closeBlock stillOpen
    · exact noted

theorem toolInput_silent (elsewhere : e.state.block ≠ some (index, .toolUse))
    (silent : ¬ (inputDelta ≠ "" ∧ (Text.trim inputDelta ≠ "" ∨ id ∈ e.state.toolsWithInput))) (stop : Bool) :
    ClaudeState.toolInput e index id inputDelta stop = e := by
  have blank : Text.trim inputDelta = "" := by
    by_contra solid
    refine silent ⟨?_, .inl solid⟩
    rintro rfl
    exact solid (by decide)
  have unsent : ¬ (inputDelta ≠ "" ∧ id ∈ e.state.toolsWithInput) := fun sends => silent ⟨sends.1, .inr sends.2⟩
  simp only [ClaudeState.toolInput, if_pos blank, if_neg unsent]
  rw [if_neg]
  exact fun closes => elsewhere closes.2

theorem toolInput_unplaced (follows : Follows phase e) (known : e.state.toolIndices.lookup id = some index)
    (elsewhere : e.state.block ≠ some (index, .toolUse))
    (sends : inputDelta ≠ "" ∧ (Text.trim inputDelta ≠ "" ∨ id ∈ e.state.toolsWithInput)) (stop : Bool) :
    phase.readAll (ClaudeState.toolInput e index id inputDelta stop).output = none := by
  have began : e.state.messageStarted = true := by
    cases silent : e.state.messageStarted with
    | true => rfl
    | false => simp [(follows.numbered.begun silent).2.2] at known
  have unopened : e.state.block.map (·.1) ≠ some index := by
    intro same
    obtain ⟨⟨opened, kind⟩, here, rfl⟩ := Option.map_eq_some_iff.1 same
    have tool := (follows.numbered.tools id opened known).2 kind here
    exact elsewhere (by rw [here, tool])
  have sent : (ClaudeState.toolInput e index id inputDelta stop).output = e.output ++ [.contentBlock (.delta index
      (.object [("partial_json", .string inputDelta), ("type", .string "input_json_delta")]))] := by
    by_cases blank : Text.trim inputDelta = ""
    · have given : id ∈ e.state.toolsWithInput := sends.2.resolve_left (fun solid => solid blank)
      simp [ClaudeState.toolInput, blank, sends.1, given, Encoder.delta, Encoder.push, elsewhere]
    · simp [ClaudeState.toolInput, blank, sends.1, Encoder.delta, Encoder.push, elsewhere]
  rw [sent, readAll_push, follows.read, phase_started began]
  simp [Phase.read, Reader.read, unopened]

theorem Follows.listed (follows : Follows phase e) (opened : e.state.block = some (index, .toolUse)) (id : String) :
    Follows phase { e with state := { e.state with toolIndices := (id, index) :: e.state.toolIndices } } := by
  refine ⟨⟨fun silent => ?_, follows.numbered.opened, fun other index given => ?_⟩, follows.read⟩
  · cases (follows.numbered.started opened).symm.trans silent
  · simp only [List.lookup_cons] at given
    split at given
    · cases given
      refine ⟨follows.numbered.opened _ _ opened, fun kind same => ?_⟩
      cases opened.symm.trans same
      rfl
    · exact follows.numbered.tools other index given

theorem toolUse_known (known : e.state.toolIndices.lookup id = some index) (name inputDelta : String) (stop : Bool) :
    ClaudeState.toolUse e id name inputDelta stop = ClaudeState.toolInput e index id inputDelta stop := by
  simp only [ClaudeState.toolUse, ClaudeState.toolBlock, known]

theorem Follows.toolUse (follows : Follows phase e) {name : String} {stop : Bool}
    (timely : e.state.untimely (.toolUse id name inputDelta stop) = false) :
    Follows phase (ClaudeState.toolUse e id name inputDelta stop) := by
  cases known : e.state.toolIndices.lookup id with
  | some index =>
    rw [toolUse_known known]
    by_cases opened : e.state.block = some (index, .toolUse)
    · exact follows.toolInput opened id inputDelta stop
    · have silent : ¬ (inputDelta ≠ "" ∧ (Text.trim inputDelta ≠ "" ∨ id ∈ e.state.toolsWithInput)) := by
        simpa only [ClaudeState.untimely, known, Option.any_some, decide_eq_false_iff_not, opened, not_false_eq_true,
          true_and, ne_eq] using timely
      rw [toolInput_silent opened silent]
      exact follows
  | none =>
    obtain ⟨next, opened⟩ := follows.switchBlock .toolUse (.object [("id", .string id), ("input", .object []),
      ("name", .string name), ("type", .string "tool_use")])
    simp only [ClaudeState.toolUse, ClaudeState.toolBlock, known]
    generalize e.switchBlock .toolUse _ = switched at next opened
    exact (next.listed opened id).toolInput opened id inputDelta stop

end Operations

/-- What the response loop asks of the encoder; sealing a search result may fail. -/
inductive Operation where
  | event (upstream : KiroEvent)
  | compaction (content : String)
  | toolSearch (search : ClaudeToolSearchTrace)
  | webSearch (tryEncrypt : Encrypt) (search : ClaudeWebSearchTrace)
  | citations (tryEncrypt : Encrypt) (searches : List ClaudeWebSearchTrace) (answerText : String)

def Operation.succeeds (s : ClaudeState) : Operation → Prop
  | webSearch tryEncrypt search => (s.webSearch tryEncrypt search).2.isSome
  | _ => True

def Operation.apply (s : ClaudeState) : Operation → Encoder
  | event upstream => s.event upstream
  | compaction content => s.compaction content
  | toolSearch search => s.toolSearch search
  | webSearch tryEncrypt search =>
    let (s, encoded) := s.webSearch tryEncrypt search
    encoded.getD s.begin
  | citations tryEncrypt searches answerText => (s.citations tryEncrypt searches answerText).getD s.begin

def Operation.untimely (s : ClaudeState) : Operation → Bool
  | event upstream => s.untimely upstream
  | _ => false

def send (e : Encoder) (operation : Operation) : Encoder :=
  let next := operation.apply e.state
  { next with output := e.output ++ next.output }

def Succeeds (e : Encoder) (operation : Operation) : Prop := operation.succeeds e.state

def Timely (e : Encoder) (operation : Operation) : Prop := operation.untimely e.state = false

instance (e : Encoder) (operation : Operation) : Decidable (Timely e operation) :=
  inferInstanceAs (Decidable (_ = false))

def answer (context : StreamContext) (operations : List Operation) (decoded : DecodedResponse)
    (maxTokens : Option Nat) (currentRoundOutputTokens : Nat) : List SseEvent :=
  let sent := run send (buildClaudeState context).begin operations
  sent.output ++ (streamFinish sent.state decoded maxTokens currentRoundOutputTokens).output

theorem serverToolUse_follows (numbered : Numbered s) (emission : ClaudeServerToolEmission) (id name : String)
    (input : Value) : Follows s.phase (s.serverToolUse emission id name input) := by
  unfold ClaudeState.serverToolUse
  split
  · exact begin_follows numbered
  · exact (begin_follows numbered).wholeBlock _ _ _

theorem retold_follows (numbered : Numbered s) (visible : String) (links : List String) :
    Follows s.phase { s with visibleText := visible, emittedCitationLinks := links }.begin :=
  ⟨⟨numbered.begun, numbered.opened, numbered.tools⟩, rfl⟩

theorem event_follows (numbered : Numbered s) {upstream : KiroEvent} (timely : s.untimely upstream = false) :
    Follows s.phase (s.event upstream) := by
  cases upstream with
  | assistantResponse content =>
    exact (retold_follows numbered (s.visibleText ++ content) s.emittedCitationLinks).textBlock content
  | reasoning content signature redactedContent =>
    have thought := (begin_follows numbered).thinking content signature
    cases redactedContent with
    | none => exact thought
    | some data => exact thought.wholeBlock _ _ _
  | citations citations =>
    simp only [ClaudeState.event]
    split
    · exact retold_follows numbered s.visibleText _
    · exact (retold_follows numbered _ _).textBlock _
  | toolUse id name inputDelta stop => exact (begin_follows numbered).toolUse timely
  | messageMetadata usage => exact begin_follows numbered
  | usage usage => exact begin_follows numbered
  | error kind message => exact begin_follows numbered
  | other eventType payload => exact begin_follows numbered

theorem apply_follows (numbered : Numbered s) {operation : Operation} (succeeds : operation.succeeds s)
    (timely : operation.untimely s = false) : Follows s.phase (operation.apply s) := by
  have ready := begin_follows numbered
  cases operation with
  | event upstream => exact event_follows numbered timely
  | compaction content =>
    simp only [Operation.apply, ClaudeState.compaction]
    split <;> exact ready.wholeBlock _ _ _
  | toolSearch search =>
    have called := serverToolUse_follows numbered search.emission search.id search.name search.input
    simp only [Operation.apply, ClaudeState.toolSearch]
    split
    · exact called
    · exact called.wholeBlock _ _ _
  | webSearch tryEncrypt search =>
    have called := serverToolUse_follows numbered search.emission search.id "web_search" search.input
    simp only [Operation.succeeds, ClaudeState.webSearch] at succeeds
    simp only [Operation.apply, ClaudeState.webSearch]
    split at succeeds
    case isTrue pending => simpa [pending] using called
    case isFalse complete =>
      rw [if_neg complete]
      cases content : ClaudeState.webSearchContent tryEncrypt search with
      | none => simp [content] at succeeds
      | some content => exact called.wholeBlock _ _ _
  | citations tryEncrypt searches answerText =>
    simp only [Operation.apply, ClaudeState.citations]
    split
    · cases found : webSearchCitations searches answerText tryEncrypt with
      | none => exact ready
      | some citations =>
        simp only [Option.bind_eq_bind, Option.bind_some]
        split
        · exact ready
        · obtain ⟨next, opened⟩ := ready.switchBlock .text
            (.object [("citations", .array []), ("text", .string ""), ("type", .string "text")])
          rw [← List.foldl_map (f := fun citation => Value.object
            [("citation", citation), ("type", .string "citations_delta")])]
          exact (next.deltas opened _).1
    · exact ready

theorem apply_unplaced (numbered : Numbered s) {operation : Operation} (untimely : operation.untimely s = true) :
    s.phase.readAll (operation.apply s).output = none := by
  cases operation with
  | event upstream =>
    cases upstream with
    | toolUse id name inputDelta stop =>
      simp only [Operation.untimely, ClaudeState.untimely, Option.any_eq_true, decide_eq_true_eq] at untimely
      obtain ⟨index, known, elsewhere, sends⟩ := untimely
      simp only [Operation.apply, ClaudeState.event]
      rw [toolUse_known known]
      exact toolInput_unplaced (begin_follows numbered) known elsewhere sends stop
    | _ => cases untimely
  | _ => cases untimely

theorem streamFinish_reads (numbered : Numbered s) (decoded : DecodedResponse) (maxTokens : Option Nat)
    (currentRoundOutputTokens : Nat) :
    s.phase.readAll (streamFinish s decoded maxTokens currentRoundOutputTokens).output = some .finished := by
  obtain ⟨begun, started⟩ := (begin_follows numbered).ensureMessage
  simp only [streamFinish, Encoder.push]
  split
  case h_1 index kind opened =>
    have closed := begun.closeBlock opened
    rw [readAll_push, readAll_push, closed.read]
    simp [Encoder.closeBlock, Encoder.stop, Encoder.push, ClaudeState.phase, started, Phase.read]
  case h_2 closed =>
    rw [readAll_push, readAll_push, begun.read]
    simp [ClaudeState.phase, started, closed, Phase.read]

theorem buildClaudeState_follows (context : StreamContext) : Follows .unopened (buildClaudeState context).begin := by
  refine ⟨⟨fun _ => ⟨rfl, rfl, rfl⟩, ?_, ?_⟩, rfl⟩
  · intro index kind opened
    cases opened
  · intro id index known
    cases known

def Lost (e : Encoder) : Prop := Phase.unopened.readAll e.output = none

theorem readAll_append (phase : Phase) (first second : List SseEvent) :
    phase.readAll (first ++ second) = (phase.readAll first).bind fun next => next.readAll second := by
  simp [Phase.readAll]

theorem send_follows (e : Encoder) (operation : Operation) (before : Follows .unopened e)
    (succeeds : Succeeds e operation) (timely : Timely e operation) : Follows .unopened (send e operation) := by
  have applied := apply_follows before.numbered succeeds timely
  refine ⟨applied.numbered, ?_⟩
  simp only [send]
  rw [readAll_append, before.read, Option.bind_some, applied.read]

theorem send_lost (e : Encoder) (operation : Operation) (before : Follows .unopened e) (untimely : ¬ Timely e operation) :
    Lost (send e operation) := by
  have applied := apply_unplaced before.numbered (Bool.eq_true_of_not_eq_false untimely)
  simp only [Lost, send]
  rw [readAll_append, before.read, Option.bind_some, applied]

theorem send_stays_lost (e : Encoder) (operation : Operation) (before : Lost e) : Lost (send e operation) := by
  simp only [Lost, send] at before ⊢
  rw [readAll_append, before, Option.bind_none]

theorem message_well_formed_iff (context : StreamContext) (operations : List Operation) (decoded : DecodedResponse)
    (maxTokens : Option Nat) (currentRoundOutputTokens : Nat)
    (succeed : Along send Succeeds (buildClaudeState context).begin operations) :
    WellFormed (answer context operations decoded maxTokens currentRoundOutputTokens) ↔
      Along send Timely (buildClaudeState context).begin operations := by
  have breaks := fun e operation before (_ : Succeeds e operation) untimely => send_lost e operation before untimely
  rw [wellFormed_iff, answer, readAll_append]
  obtain ⟨timely, follows⟩ | ⟨untimely, lost⟩ :=
    run_decides send_follows breaks send_stays_lost succeed (buildClaudeState_follows context)
  · rw [follows.read, Option.bind_some, streamFinish_reads follows.numbered]
    simp [timely]
  · rw [show Phase.unopened.readAll _ = none from lost]
    simp [untimely]

def plainContext : StreamContext := { requestId := "msg", model := "claude", inputTokens := 1 }

def fragment (id inputDelta : String) (stop : Bool) : Operation := .event (.toolUse id "read" inputDelta stop)

def searchThenCalls : List Operation :=
  [.webSearch (fun result => some result.url) {
      id := "srvtoolu_1", input := .object [], error := none, emission := .complete, executed := true,
      results := [{ title := "t", url := "u", snippet := "", publishedDate := none }] },
    .event (.assistantResponse "see u"), fragment "a" "\x7b\"n\":" false, fragment "a" "1\x7d" true,
    fragment "b" "\x7b\x7d" false, fragment "b" "" true]

theorem message_well_formed_search_then_calls :
    Along send Timely (buildClaudeState plainContext).begin searchThenCalls ∧
      WellFormed (answer plainContext searchThenCalls {} (some 100) 7) := by
  have timely : Along send Timely (buildClaudeState plainContext).begin searchThenCalls := by decide
  refine ⟨timely, (message_well_formed_iff plainContext searchThenCalls {} (some 100) 7 ?_).2 timely⟩
  exact ⟨rfl, trivial, trivial, trivial, trivial, trivial, trivial⟩

def interleavedCalls : List Operation :=
  [fragment "a" "\x7b\"n\":" false, fragment "b" "\x7b\x7d" true, fragment "a" "1\x7d" true]

theorem interleaved_calls_misplaced :
    Along send Succeeds (buildClaudeState plainContext).begin interleavedCalls ∧
      ¬ WellFormed (answer plainContext interleavedCalls {} (some 100) 7) := by
  refine ⟨⟨trivial, trivial, trivial, trivial⟩, ?_⟩
  have lost : Phase.unopened.readAll (answer plainContext interleavedCalls {} (some 100) 7) = none := by decide
  rw [wellFormed_iff, lost]
  exact nofun

end KiroProxy.Http

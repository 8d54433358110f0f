import KiroProxy.Http.ClientView
import KiroProxy.Lib.Bytes
import KiroProxy.Lib.Paired

/-! When a streamed answer and the same answer in one piece say the same. -/
namespace KiroProxy.Http

open Kiro Paired

/-- A call as its fragments arrive: the name of the first one, the first name that is not empty,
the blanks before its arguments, and these. -/
structure Call where
  id : String
  first : String
  name : String
  blank : String
  sent : String
  complete : Bool
  blanks : Text.trim blank = ""
  solid : sent = "" ∨ Text.trim sent ≠ ""

namespace Call

def new (id name : String) : Call := ⟨id, name, name, "", "", false, by decide, .inl rfl⟩

def add (inputDelta : String) (call : Call) : Call :=
  if early : call.sent = "" ∧ Text.trim inputDelta = "" then
    { call with
      blank := call.blank ++ inputDelta
      blanks := Text.trim_append_empty.2 ⟨call.blanks, early.2⟩ }
  else
    { call with
      sent := call.sent ++ inputDelta
      solid := by
        refine .inr fun trimmed => early ?_
        obtain ⟨front, back⟩ := Text.trim_append_empty.1 trimmed
        exact ⟨call.solid.resolve_right fun solid => solid front, back⟩ }

def absorb (id name inputDelta : String) (stop : Bool) (known : Option Call) : Call :=
  let call := known.getD (new id name)
  add inputDelta { call with
    name := if call.name = "" then name else call.name
    complete := call.complete || stop }

def buffer (call : Call) : ToolBuffer where
  id := call.id
  name := call.name
  input := call.blank ++ call.sent
  complete := call.complete

def shown (rename : String → String) (call : Call) : Shown := ⟨rename call.first, call.sent⟩

theorem add_id (inputDelta : String) (call : Call) : (call.add inputDelta).id = call.id := by
  unfold add
  split <;> rfl

theorem buffer_add (inputDelta : String) (call : Call) :
    (call.add inputDelta).buffer = { call.buffer with input := call.buffer.input ++ inputDelta } := by
  unfold add
  split
  case isTrue early => simp [buffer, early.1]
  case isFalse => simp [buffer, String.append_assoc]

theorem shown_add (rename : String → String) (inputDelta : String) (call : Call) :
    (call.add inputDelta).shown rename = (call.shown rename).add inputDelta := by
  unfold add
  split
  case isTrue early => simp [shown, Shown.add, early]
  case isFalse late =>
    have later : ¬ ((call.shown rename).partialJson = "" ∧ Text.trim inputDelta = "") := late
    unfold Shown.add
    rw [if_neg later]
    rfl

theorem buffer_absorb (id name inputDelta : String) (stop : Bool) (known : Option Call) :
    (absorb id name inputDelta stop known).buffer = ToolBuffer.absorb id name inputDelta stop (known.map buffer) := by
  rw [absorb, buffer_add]
  cases known with
  | none =>
    by_cases empty : name = ""
    · simp [new, buffer, ToolBuffer.absorb, empty]
    · simp [new, buffer, ToolBuffer.absorb, empty]
  | some call => simp [buffer, ToolBuffer.absorb]

theorem shown_absorb (rename : String → String) (id name inputDelta : String) (stop : Bool) (known : Option Call) :
    (absorb id name inputDelta stop known).shown rename =
      Shown.absorb (rename name) inputDelta (known.map (shown rename)) := by
  cases known with
  | none => exact shown_add rename inputDelta _
  | some call => exact shown_add rename inputDelta _

end Call

def arrive (calls : List (String × Call)) : KiroEvent → List (String × Call)
  | .toolUse id name inputDelta stop => SortedMap.place id (Call.absorb id name inputDelta stop) calls
  | _ => calls

variable {decoded other : DecodedResponse} {event : KiroEvent} {events : List KiroEvent}

section Unnamed

def ToolBuffer.unnamed (tool : ToolBuffer) : ToolBuffer := { tool with name := "" }

def DecodedResponse.unnamed (decoded : DecodedResponse) : DecodedResponse :=
  { decoded with tools := decoded.tools.map (Prod.map id ToolBuffer.unnamed) }

def nameless : KiroEvent → KiroEvent
  | .toolUse id _ inputDelta stop => .toolUse id "" inputDelta stop
  | event => event

theorem toolBytes_unnamed (decoded : DecodedResponse) : decoded.unnamed.toolBytes = decoded.toolBytes := by
  simp [DecodedResponse.toolBytes, DecodedResponse.unnamed, Function.comp_def, ToolBuffer.unnamed]

theorem push_unnamed (outside : Outside) (decoded : DecodedResponse) (event : KiroEvent) :
    decoded.unnamed.push outside (nameless event) = (decoded.push outside event).map (·.unnamed) := by
  cases event with
  | toolUse id name inputDelta stop =>
    simp only [DecodedResponse.push, nameless, toolBytes_unnamed]
    split
    · rfl
    · have through (known : Option ToolBuffer) : (ToolBuffer.absorb id name inputDelta stop known).unnamed =
          ToolBuffer.absorb id "" inputDelta stop (known.map ToolBuffer.unnamed) := by
        cases known <;> simp [ToolBuffer.absorb, ToolBuffer.unnamed]
      simp only [DecodedResponse.unnamed, Except.map, SortedMap.map_alter through]
  | _ => rfl

theorem find_unnamed (outside : Outside) (tools : List (String × ToolBuffer)) :
    (tools.map (Prod.map id ToolBuffer.unnamed)).find? (fun (_, tool) => Text.trim tool.input ≠ "" ∧
      (outside.fromStr tool.input).isNone) = (tools.find? fun (_, tool) => Text.trim tool.input ≠ "" ∧
      (outside.fromStr tool.input).isNone).map (Prod.map id ToolBuffer.unnamed) := by
  rw [List.find?_map]
  rfl

theorem completed_unnamed (tools : List (String × ToolBuffer)) :
    (tools.map fun (key, tool) =>
      (key, if Text.trim tool.input = "" then { tool with input := "\x7b\x7d" } else tool)).map
      (Prod.map id ToolBuffer.unnamed) = (tools.map (Prod.map id ToolBuffer.unnamed)).map fun (key, tool) =>
      (key, if Text.trim tool.input = "" then { tool with input := "\x7b\x7d" } else tool) := by
  rw [List.map_map, List.map_map]
  refine List.map_congr_left fun entry _ => ?_
  by_cases blank : Text.trim entry.2.input = ""
  · simp [Prod.map, ToolBuffer.unnamed, blank]
  · simp [Prod.map, ToolBuffer.unnamed, blank]

theorem finalize_unnamed (outside : Outside) (decoded : DecodedResponse) :
    Both (fun finalized bare => finalized.unnamed = bare) (decoded.finalizeToolInputs outside)
      (decoded.unnamed.finalizeToolInputs outside) := by
  have same : decoded.unnamed.tools.find? _ = _ := find_unnamed outside decoded.tools
  simp only [DecodedResponse.finalizeToolInputs, same]
  cases decoded.tools.find? _ with
  | some entry => exact .error _ _
  | none => exact .ok (congrArg (fun tools => { decoded with tools := tools }) (completed_unnamed decoded.tools))

theorem push_both (outside : Outside) (same : other.unnamed = decoded.unnamed) {renamed : KiroEvent}
    (alike : nameless renamed = nameless event) :
    Both (fun next also => decoded.push outside event = .ok next ∧ also.unnamed = next.unnamed)
      (decoded.push outside event) (other.push outside renamed) := by
  have first := push_unnamed outside decoded event
  have second := push_unnamed outside other renamed
  rw [same, alike, first] at second
  cases pushed : decoded.push outside event with
  | error message =>
    rw [pushed] at second
    cases also : other.push outside renamed with
    | error message => exact .error _ _
    | ok next =>
      rw [also] at second
      cases second
  | ok next =>
    rw [pushed] at second
    cases also : other.push outside renamed with
    | error message =>
      rw [also] at second
      cases second
    | ok next' =>
      rw [also] at second
      exact .ok ⟨rfl, (Except.ok.inj second).symm⟩

end Unnamed

def clientName (names : List (String × String)) (name : String) : String := (names.lookup name).getD name

def Streaming.Showing (s : Streaming) (text : String) (shown : List (String × Shown)) : Prop :=
  Shows s.claude (s.sent.foldl Client.read {}).contents text shown

section Sending

variable {s : Streaming} {text : String} {shown : List (String × Shown)}

theorem Streaming.Showing.send (showing : s.Showing text shown) (plain : answers event = true) :
    (s.send event).Showing (afterEvent text shown event).1 (afterEvent text shown event).2 := by
  have next := Shows.event showing plain
  unfold Streaming.Showing Streaming.send
  rw [List.foldl_append]
  exact next

theorem Streaming.Showing.sendText (showing : s.Showing text shown) (piece : String) :
    (s.sendText piece).Showing (text ++ piece) shown := by
  unfold Streaming.sendText
  split
  case isTrue empty =>
    rw [empty, String.append_empty]
    exact showing
  case isFalse => exact showing.send (show answers (.assistantResponse piece) = true from rfl)

end Sending

theorem sendText_rest (s : Streaming) (piece : String) : (s.sendText piece).decoded = s.decoded ∧
    (s.sendText piece).stopFilter = s.stopFilter ∧ (s.sendText piece).upstreamToolNames = s.upstreamToolNames := by
  unfold Streaming.sendText
  split <;> exact ⟨rfl, rfl, rfl⟩

structure Alongside (names : List (String × String)) (calls : List (String × Call)) (c : Collecting) (s : Streaming) :
    Prop where
  filter : s.stopFilter = c.stopFilter
  tidy : c.stopFilter.Tidy
  bare : c.decoded = { text := c.decoded.text, tools := c.decoded.tools, usage := c.decoded.usage }
  unnamed : s.decoded.unnamed = c.decoded.unnamed
  kept : c.stopFilter.matched = none → c.decoded.text.toList = c.visibleText.toList ++ c.stopFilter.pending
  sorted : SortedMap.Sorted c.decoded.tools
  tools : c.decoded.tools.Perm (calls.map (Prod.map id Call.buffer))
  keys : ∀ entry ∈ calls, entry.2.id = entry.1
  named : ∀ id, (s.upstreamToolNames.lookup id).isSome → id ∈ calls.map (·.1)
  showing : s.Showing c.visibleText (calls.map (Prod.map id (Call.shown (clientName names))))

def Collecting.advance (outside : Outside) (c : Collecting) (event : KiroEvent) : Except String Collecting := do
  let (stopFilter, flushed) := c.stopFilter.flushBefore event
  let (stopFilter, shown) := match event with
    | .assistantResponse content => stopFilter.push content
    | _ => (stopFilter, "")
  let decoded ← c.decoded.push outside event
  return ⟨decoded, stopFilter, c.visibleText ++ flushed ++ shown⟩

def Collecting.stopped (c : Collecting) : Collecting × Bool :=
  match c.stopFilter.matched with
  | none => (c, false)
  | some sequence => (⟨c.decoded.stopAtSequence c.visibleText sequence, c.stopFilter, ""⟩, true)

theorem pushNonstreamEvent_eq (outside : Outside) (c : Collecting) (event : KiroEvent) :
    pushNonstreamEvent outside c event = (c.advance outside event).map (·.stopped) := by
  have finish (stopFilter : StopSequenceFilter) (visibleText : String) (decoded : DecodedResponse) :
      (match stopFilter.matched with
      | none => pure (⟨decoded, stopFilter, visibleText⟩, false)
      | some sequence => pure (⟨decoded.stopAtSequence visibleText sequence, stopFilter, ""⟩, true) :
        Except String (Collecting × Bool)) = .ok (Collecting.stopped ⟨decoded, stopFilter, visibleText⟩) := by
    unfold Collecting.stopped
    cases stopFilter.matched <;> rfl
  cases event with
  | assistantResponse content => exact finish _ _ _
  | _ =>
    simp only [pushNonstreamEvent, Collecting.advance]
    cases c.decoded.push outside _ with
    | error message => rfl
    | ok decoded => exact finish _ _ _

section Step

variable {outside : Outside} {names : List (String × String)} {calls : List (String × Call)} {c : Collecting}
  {s : Streaming}

theorem Alongside.text (along : Alongside names calls c s) (content : String) :
    Both (fun next also => Alongside names calls next also.1 ∧ also.2 = next.stopFilter.matched.isSome)
      (c.advance outside (.assistantResponse content)) (s.push outside names (.assistantResponse content)) := by
  have streamed : s.push outside names (.assistantResponse content) = .ok
      ({ ({ s with stopFilter := (s.stopFilter.push content).1 }.sendText (s.stopFilter.push content).2) with
        decoded := { s.decoded with text := s.decoded.text ++ content } },
        (s.stopFilter.push content).1.matched.isSome) := by
    by_cases hidden : (s.stopFilter.push content).2 = ""
    · simp [Streaming.push, restoreToolEventName, restoreWebToolName, StopSequenceFilter.flushBefore, endsText,
        clientVisibleEvent, Streaming.sendText, DecodedResponse.push, hidden, bind, Except.bind, pure, Except.pure]
    · simp [Streaming.push, restoreToolEventName, restoreWebToolName, StopSequenceFilter.flushBefore, endsText,
        clientVisibleEvent, Streaming.sendText, Streaming.send, DecodedResponse.push, hidden, bind, Except.bind, pure,
        Except.pure]
  have advanced : c.advance outside (.assistantResponse content) = .ok
      ⟨{ c.decoded with text := c.decoded.text ++ content }, (c.stopFilter.push content).1,
        c.visibleText ++ (c.stopFilter.push content).2⟩ := by
    simp [Collecting.advance, StopSequenceFilter.flushBefore, endsText, DecodedResponse.push, bind, Except.bind, pure,
      Except.pure]
  rw [streamed, advanced, along.filter]
  obtain ⟨-, filter, upstream⟩ := sendText_rest { s with stopFilter := (c.stopFilter.push content).1 }
    (c.stopFilter.push content).2
  refine .ok ⟨⟨filter, StopSequenceFilter.push_tidy along.tidy content, ?_, ?_, ?_, along.sorted, along.tools, along.keys, ?_, ?_⟩, rfl⟩
  · rw [along.bare]
  · have same := along.unnamed
    simp only [DecodedResponse.unnamed, DecodedResponse.mk.injEq] at same ⊢
    simp [same]
  · intro unmatched
    have before : c.stopFilter.matched = none := StopSequenceFilter.unmatched_of_push unmatched
    have conserved := StopSequenceFilter.push_unmatched along.tidy unmatched
    simp only [String.toList_append, along.kept before, List.append_assoc, conserved]
  · intro id known
    exact along.named id (by rwa [upstream] at known)
  · have showing : Streaming.Showing { s with stopFilter := (c.stopFilter.push content).1 } c.visibleText
        (calls.map (Prod.map id (Call.shown (clientName names)))) := along.showing
    exact showing.sendText _

theorem send_rest (s : Streaming) (event : KiroEvent) : (s.send event).decoded = s.decoded ∧
    (s.send event).stopFilter = s.stopFilter ∧ (s.send event).upstreamToolNames = s.upstreamToolNames :=
  ⟨rfl, rfl, rfl⟩

theorem restoreToolEventName_tool (upstream : List (String × String)) (id name inputDelta : String) (stop : Bool) :
    ∃ restored listed, restoreToolEventName upstream (.toolUse id name inputDelta stop) =
        (.toolUse id restored inputDelta stop, listed) ∧
      (upstream.lookup id = none → restored = name) ∧
      ∀ key, (listed.lookup key).isSome → key = id ∨ (upstream.lookup key).isSome := by
  simp only [restoreToolEventName]
  split
  case isTrue => exact ⟨_, _, rfl, fun unknown => by rw [unknown]; rfl, fun key known => .inr known⟩
  case isFalse =>
    refine ⟨_, _, rfl, fun _ => rfl, fun key known => ?_⟩
    split at known
    · exact .inr known
    · by_cases same : key = id
      · exact .inl same
      · rw [List.lookup_cons, beq_false_of_ne same] at known
        exact .inr known

theorem arrive_shown (names : List (String × String)) (calls : List (String × Call)) {key name restored : String}
    (inputDelta : String) (stop : Bool) (fresh : key ∉ calls.map (·.1) → restored = name) :
    (SortedMap.place key (Call.absorb key name inputDelta stop) calls).map
        (Prod.map id (Call.shown (clientName names))) =
      SortedMap.place key (Shown.absorb (clientName names restored) inputDelta)
        (calls.map (Prod.map id (Call.shown (clientName names)))) := by
  rw [SortedMap.map_place (Call.shown_absorb (clientName names) key name inputDelta stop)]
  by_cases known : key ∈ calls.map (·.1)
  · have keys : key ∈ (calls.map (Prod.map id (Call.shown (clientName names)))).map (·.1) := by
      simpa [Function.comp_def] using known
    simp only [SortedMap.place, if_pos keys]
    rfl
  · rw [fresh known]

theorem absorb_id (id name inputDelta : String) (stop : Bool) (known : Option Call) :
    (Call.absorb id name inputDelta stop known).id = (known.map (·.id)).getD id := by
  rw [Call.absorb, Call.add_id]
  cases known <;> rfl

theorem arrive_keys {calls : List (String × Call)} (keys : ∀ entry ∈ calls, entry.2.id = entry.1)
    (id name inputDelta : String) (stop : Bool) :
    ∀ entry ∈ SortedMap.place id (Call.absorb id name inputDelta stop) calls, entry.2.id = entry.1 := by
  intro entry member
  unfold SortedMap.place at member
  split at member
  · obtain ⟨earlier, there, rfl⟩ := List.mem_map.1 member
    split
    · simp [absorb_id, keys earlier there]
    · exact keys earlier there
  · rcases List.mem_append.1 member with there | new
    · exact keys entry there
    · cases List.mem_singleton.1 new
      simp [absorb_id]

theorem Alongside.tool (along : Alongside names calls c s) (key name inputDelta : String) (stop : Bool) :
    Both (fun next also => Alongside names (arrive calls (.toolUse key name inputDelta stop)) next also.1 ∧
        also.2 = next.stopFilter.matched.isSome)
      (c.advance outside (.toolUse key name inputDelta stop))
      (s.push outside names (.toolUse key name inputDelta stop)) := by
  obtain ⟨restored, listed, restores, fresh, grows⟩ := restoreToolEventName_tool s.upstreamToolNames key name inputDelta stop
  have flushed := sendText_rest { s with upstreamToolNames := listed, stopFilter := c.stopFilter.finish.1 }
    c.stopFilter.finish.2
  generalize reached : Streaming.sendText { s with upstreamToolNames := listed, stopFilter := c.stopFilter.finish.1 }
    c.stopFilter.finish.2 = text at flushed
  obtain ⟨decoded, filter, upstream⟩ := flushed
  have streamed : s.push outside names (.toolUse key name inputDelta stop) =
      (s.decoded.push outside (.toolUse key (clientName names restored) inputDelta stop)).bind fun decoded =>
        .ok ({ text.send (.toolUse key (clientName names restored) inputDelta stop) with decoded := decoded },
          c.stopFilter.finish.1.matched.isSome) := by
    simp only [Streaming.push, restores, restoreWebToolName, StopSequenceFilter.flushBefore, endsText, if_true,
      clientVisibleEvent, along.filter, reached, filter, send_rest, decoded]
    rfl
  have advanced : c.advance outside (.toolUse key name inputDelta stop) =
      (c.decoded.push outside (.toolUse key name inputDelta stop)).bind fun decoded =>
        .ok ⟨decoded, c.stopFilter.finish.1, c.visibleText ++ c.stopFilter.finish.2⟩ := by
    simp only [Collecting.advance, StopSequenceFilter.flushBefore, endsText, if_true, String.append_empty]
    rfl
  rw [streamed, advanced]
  have alike : nameless (.toolUse key (clientName names restored) inputDelta stop) =
      nameless (.toolUse key name inputDelta stop) := rfl
  have pushed := push_both outside along.unnamed alike
  refine pushed.bind fun next also both => .ok ⟨?_, rfl⟩
  obtain ⟨taken, same⟩ := both
  simp only [DecodedResponse.push] at taken
  split at taken
  · cases taken
  obtain rfl := Except.ok.inj taken
  have unmatched (open_ : c.stopFilter.finish.1.matched = none) : c.stopFilter.matched = none := by
    rwa [StopSequenceFilter.finish_matched] at open_
  refine ⟨filter, StopSequenceFilter.finish_tidy _, ?_, same, fun open_ => ?_, ?_, ?_, ?_, fun id known => ?_, ?_⟩
  · rw [along.bare]
  · obtain ⟨shown, empty⟩ := StopSequenceFilter.finish_unmatched (unmatched open_)
    simp [along.kept (unmatched open_), shown, empty]
  · exact SortedMap.alter_sorted along.sorted key _
  · rw [arrive, SortedMap.map_place (Call.buffer_absorb key name inputDelta stop)]
    exact (SortedMap.alter_perm_place along.sorted key _).trans (SortedMap.place_perm along.tools key _)
  · exact arrive_keys along.keys key name inputDelta stop
  · have known : (text.upstreamToolNames.lookup id).isSome := known
    rw [upstream] at known
    exact SortedMap.mem_place_keys.2 ((grows id known).imp_right (along.named id))
  · have start : Streaming.Showing { s with upstreamToolNames := listed, stopFilter := c.stopFilter.finish.1 }
        c.visibleText (calls.map (Prod.map id (Call.shown (clientName names)))) := along.showing
    have shown := start.sendText c.stopFilter.finish.2
    rw [reached] at shown
    have unknown : key ∉ calls.map (·.1) → restored = name := fun absent => fresh (by
      rw [← Option.not_isSome_iff_eq_none]
      exact fun known => absent (along.named key known))
    rw [arrive, arrive_shown names calls inputDelta stop unknown]
    exact shown.send (show answers (.toolUse key (clientName names restored) inputDelta stop) = true from rfl)

def isSilent : KiroEvent → Bool
  | .messageMetadata _ | .usage _ | .other .. => true
  | _ => false

theorem push_silent {next : DecodedResponse} (quiet : isSilent event = true)
    (pushed : decoded.push outside event = .ok next) : ∃ usage, next = { decoded with usage := usage } := by
  cases event with
  | messageMetadata usage => exact ⟨_, (Except.ok.inj pushed).symm⟩
  | usage usage => exact ⟨_, (Except.ok.inj pushed).symm⟩
  | other eventType payload => exact ⟨decoded.usage, (Except.ok.inj pushed).symm⟩
  | _ => cases quiet

theorem Alongside.silent (along : Alongside names calls c s) (quiet : isSilent event = true) :
    Both (fun next also => Alongside names (arrive calls event) next also.1 ∧ also.2 = next.stopFilter.matched.isSome)
      (c.advance outside event) (s.push outside names event) := by
  have advanced : c.advance outside event = (c.decoded.push outside event).bind fun decoded =>
      .ok ⟨decoded, c.stopFilter, c.visibleText⟩ := by
    cases event with
    | messageMetadata | usage | other => simp [Collecting.advance, StopSequenceFilter.flushBefore, endsText]; rfl
    | _ => cases quiet
  have streamed : s.push outside names event = (s.decoded.push outside event).bind fun decoded =>
      .ok ({ s with decoded := decoded }, s.stopFilter.matched.isSome) := by
    cases event with
    | messageMetadata | usage | other =>
      simp [Streaming.push, restoreToolEventName, restoreWebToolName, StopSequenceFilter.flushBefore, endsText,
        clientVisibleEvent, Streaming.sendText, Streaming.send, ClaudeState.event, ClaudeState.begin]
      rfl
    | _ => cases quiet
  have still : arrive calls event = calls := by
    cases event with
    | toolUse => cases quiet
    | _ => rfl
  rw [advanced, streamed, still]
  have pushed := push_both outside along.unnamed (show nameless event = nameless event from rfl)
  refine pushed.bind fun next also both => .ok ⟨?_, by rw [along.filter]⟩
  obtain ⟨usage, rfl⟩ := push_silent quiet both.1
  exact ⟨along.filter, along.tidy, by rw [along.bare], both.2, along.kept, along.sorted, along.tools, along.keys,
    along.named, along.showing⟩

theorem Alongside.step (along : Alongside names calls c s) (plain : answers event = true) :
    Both (fun next also => Alongside names (arrive calls event) next also.1 ∧ also.2 = next.stopFilter.matched.isSome)
      (c.advance outside event) (s.push outside names event) := by
  cases event with
  | assistantResponse content => exact along.text content
  | toolUse id name inputDelta stop => exact along.tool id name inputDelta stop
  | messageMetadata usage => exact along.silent rfl
  | usage usage => exact along.silent rfl
  | other eventType payload => exact along.silent rfl
  | _ => cases plain

end Step

def StopSequenceFilter.after (filter : StopSequenceFilter) : KiroEvent → StopSequenceFilter
  | .assistantResponse content => (filter.push content).1
  | event => (filter.flushBefore event).1

/-- The events up to the one that completes a stop sequence, and whether one does. -/
def consumed (filter : StopSequenceFilter) : List KiroEvent → List KiroEvent × Bool
  | [] => ([], false)
  | event :: rest =>
    if (filter.after event).matched.isSome then ([event], true)
    else
      let (later, stopped) := consumed (filter.after event) rest
      (event :: later, stopped)

theorem advance_filter {outside : Outside} {c next : Collecting} (advanced : c.advance outside event = .ok next) :
    next.stopFilter = c.stopFilter.after event := by
  simp only [Collecting.advance, Bytes.bind_ok] at advanced
  obtain ⟨decoded, -, advanced⟩ := advanced
  cases advanced
  cases event <;> rfl

/-- Where the two stand at the end: at a stop sequence, the record has been cut down to it. -/
def Ending (names : List (String × String)) (read : List (String × Call) × Bool) (c : Collecting) (s : Streaming) : Prop :=
  ∃ uncut, Alongside names read.1 uncut s ∧ c = uncut.stopped.1 ∧ uncut.stopFilter.matched.isSome = read.2

theorem starts_alongside (context : StreamContext) (stopSequences : List String) (names : List (String × String)) :
    Alongside names [] { stopFilter := .new stopSequences }
      { claude := buildClaudeState context, stopFilter := .new stopSequences } where
  filter := rfl
  tidy := StopSequenceFilter.new_tidy _
  bare := rfl
  unnamed := rfl
  kept _ := rfl
  sorted := .nil
  tools := .nil
  keys _ member := absurd member List.not_mem_nil
  named _ known := absurd known (by simp)
  showing := ⟨fun _ => rfl, rfl, rfl, rfl, fun _ _ => (by simp [buildClaudeState]), fun _ => (by simp [buildClaudeState]),
    fun _ opened => (by cases opened)⟩

theorem run_ending (outside : Outside) {names : List (String × String)} {calls : List (String × Call)}
    {c : Collecting} {s : Streaming} (along : Alongside names calls c s) (unmatched : c.stopFilter.matched = none)
    (plain : ∀ event ∈ events, answers event = true) :
    Both (Ending names (((consumed c.stopFilter events).1.foldl arrive calls), (consumed c.stopFilter events).2))
      (collectEvents outside c events) (s.pushAll outside names events) := by
  induction events generalizing calls c s with
  | nil =>
    refine .ok ⟨c, along, ?_, ?_⟩
    · simp [Collecting.stopped, unmatched]
    · simp [unmatched, consumed]
  | cons event rest ih =>
    have step : Both _ (c.advance outside event) (s.push outside names event) :=
      along.step (plain event List.mem_cons_self)
    simp only [collectEvents, Streaming.pushAll, pushNonstreamEvent_eq]
    generalize advanced : c.advance outside event = first at step ⊢
    generalize s.push outside names event = second at step ⊢
    cases step with
    | error message other => exact .error _ _
    | @ok next also related =>
      obtain ⟨s, stopped⟩ := also
      obtain ⟨along, rfl⟩ := related
      have filter := advance_filter advanced
      cases ended : next.stopFilter.matched with
      | some sequence =>
        have cut : next.stopped.2 = true := by simp [Collecting.stopped, ended]
        have last : consumed c.stopFilter (event :: rest) = ([event], true) := by
          simp [consumed, ← filter, ended]
        have ending : Ending names (arrive calls event, true) next.stopped.1 s :=
          ⟨next, along, rfl, by rw [ended]; rfl⟩
        simp only [last, Except.map]
        generalize next.stopped = result at ending cut ⊢
        obtain ⟨final, stopped⟩ := result
        cases cut
        exact .ok ending
      | none =>
        have uncut : next.stopped = (next, false) := by simp [Collecting.stopped, ended]
        have more : consumed c.stopFilter (event :: rest) =
            (event :: (consumed next.stopFilter rest).1, (consumed next.stopFilter rest).2) := by
          simp [consumed, ← filter, ended]
        rw [more]
        have later := ih along ended fun event member => plain event (List.mem_cons_of_mem _ member)
        simp only [Except.map, uncut]
        exact later

section Finish

variable {outside : Outside} {request : Request}

def delivered (request : Request) (decoded : DecodedResponse) : DecodedResponse :=
  let exhausted := if request.maxTokens ≤ saturatingAdd 0 decoded.usage.outputTokens then some "max_tokens" else none
  let whole := { decoded with usage := mergeRoundUsage decoded.usage {} }
  if decoded.stopSequence.isSome then whole else stopFor whole exhausted

structure Bare (decoded : DecodedResponse) : Prop where
  reasoning : decoded.reasoning = ""
  signature : decoded.reasoningSignature = none
  redacted : decoded.redactedThinking = ""
  citations : decoded.citations = []
  searches : decoded.toolSearches = []
  webSearches : decoded.webSearches = []
  serverEvents : decoded.claudeServerEvents = []

theorem collect_one (bare : Bare decoded)
    (decodes : decodeRound outside request.config {} (request.round events) = .ok decoded) :
    (Rounds.new {}).collect outside request.config [request.round events] = some (delivered request decoded) := by
  have plain : ({ Rounds.new {} with decoded := decoded } : Rounds).deliverText =
      { decoded with usage := mergeRoundUsage decoded.usage {} } := by
    obtain ⟨-, -, -, -, searches, webSearches, serverEvents⟩ := bare
    simp [Rounds.deliverText, Rounds.deliver, Rounds.new, ← searches, ← webSearches, ← serverEvents]
  simp only [Rounds.collect, Rounds.step, show (Rounds.new {}).decoded = {} from rfl, decodes, delivered]
  by_cases stopped : decoded.stopSequence.isSome
  · simp [stopped, plain]
  · have accepted (exhausted : Bool) : emptyToolResultDisposition (request.round events).toolResults decoded exhausted
        (Rounds.new {}).emptyToolResultRetries = .accept := by
      simp [emptyToolResultDisposition, Request.round]
    have untouched : decoded.takeToolUsesWhere outside
        (fun tool => ClaudeToolSearchCatalog.isSearchTool [] tool.name) = (decoded, []) := by
      simp [DecodedResponse.takeToolUsesWhere, ClaudeToolSearchCatalog.isSearchTool]
    simp only [stopped, accepted, Rounds.acceptedRound, Request.config]
    simp [untouched, Rounds.plainRound, plain]
    rfl

theorem collect_failed {message : String}
    (failed : decodeRound outside request.config {} (request.round events) = .error message) :
    (Rounds.new {}).collect outside request.config [request.round events] = none := by
  simp only [Rounds.collect, Rounds.step, show (Rounds.new {}).decoded = {} from rfl, failed]

theorem claudeContent_bare (tryEncrypt : Encrypt) (bare : Bare decoded) :
    claudeContent outside tryEncrypt decoded none = some (textBlocks decoded.text ++ toolUseBlocks outside decoded) := by
  have reasoning : reasoningBlocks decoded = [] := by simp [reasoningBlocks, bare.signature, bare.reasoning]
  have answer : answerBlocks decoded [] = textBlocks decoded.text := by
    have unreferenced : kiroVisibleReferences [] = "" := rfl
    simp only [answerBlocks, bare.citations, unreferenced, String.append_empty, List.isEmpty_nil, if_true]
    split
    case isTrue empty => simp [textBlocks, empty]
    case isFalse => rfl
  have uncited : webSearchCitations [] decoded.text tryEncrypt = some [] := rfl
  simp [claudeContent, reasoning, answer, bare.redacted, bare.serverEvents, bare.searches, bare.webSearches, uncited]

theorem asStr_optional (text : Option String) : (optional text).asStr = text := by
  cases text <;> rfl

theorem ofBlock_toolUse (id name : String) (input : Value) :
    Content.ofBlock (.object [("id", .string id), ("input", input), ("name", .string name), ("type", .string "tool_use")]) =
      .toolUse id name input "" := rfl

theorem contents_bare (decoded : DecodedResponse) :
    (textBlocks decoded.text ++ toolUseBlocks outside decoded).map Content.ofBlock =
      (if decoded.text = "" then [] else [.text decoded.text]) ++ decoded.tools.map fun entry =>
        .toolUse entry.2.id entry.2.name (repairJson outside entry.2.input) "" := by
  rw [List.map_append, toolUseBlocks, List.map_map, textBlocks]
  have calls := List.map_congr_left fun entry (_ : entry ∈ decoded.tools) =>
    ofBlock_toolUse entry.2.id entry.2.name (repairJson outside entry.2.input)
  refine congrArg₂ (· ++ ·) ?_ calls
  split <;> rfl

theorem join_blank (n : Nat) : String.join (List.replicate n "") = "" := by
  induction n with
  | zero => rfl
  | succ n ih => simpa [List.replicate_succ] using ih

theorem ofMessage_bare (outside : Outside) (tryEncrypt : Encrypt) (bare : Bare decoded) (context : StreamContext)
    (maxTokens outputTokens : Nat) :
    ∃ message, claudeJson outside tryEncrypt decoded context maxTokens outputTokens none = some message ∧
      Answer.ofMessage outside message = ⟨decoded.text, decoded.tools.map fun entry =>
        ⟨entry.2.id, entry.2.name, some (repairJson outside entry.2.input)⟩,
        some (claudeStop decoded (some maxTokens) outputTokens), decoded.stopSequence⟩ := by
  have reads (message : Value)
      (content : (message.get "content") = some (.array (textBlocks decoded.text ++ toolUseBlocks outside decoded)))
      (reason : message.getStr "stop_reason" = some (claudeStop decoded (some maxTokens) outputTokens))
      (sequence : message.getStr "stop_sequence" = decoded.stopSequence) :
      Answer.ofMessage outside message = ⟨decoded.text, decoded.tools.map fun entry =>
        ⟨entry.2.id, entry.2.name, some (repairJson outside entry.2.input)⟩,
        some (claudeStop decoded (some maxTokens) outputTokens), decoded.stopSequence⟩ := by
    simp only [Answer.ofMessage, content, Option.bind_some, Value.asArray, Option.getD_some, contents_bare,
      Answer.ofContents, reason, sequence, Answer.mk.injEq, and_true]
    constructor
    · by_cases empty : decoded.text = ""
      · simp [empty, Function.comp_def, Content.written, join_blank]
      · simp [empty, Function.comp_def, Content.written, join_blank]
    · by_cases empty : decoded.text = ""
      · simp [empty, Content.call, List.filterMap_map]
      · simp [empty, Content.call, List.filterMap_map]
  simp only [claudeJson, claudeContent_bare tryEncrypt bare, bind, Option.bind_some, pure]
  refine ⟨_, rfl, reads _ ?_ ?_ ?_⟩
  · rfl
  · cases contextManagement context.contextEditStats context.autoCompactionOriginalInputTokens context.inputTokens <;> rfl
  · refine Eq.trans ?_ (asStr_optional decoded.stopSequence)
    cases contextManagement context.contextEditStats context.autoCompactionOriginalInputTokens context.inputTokens <;> rfl

def Shown.call (outside : Outside) (id : String) (shown : Shown) : ToolCall :=
  ⟨id, shown.name, if shown.partialJson = "" then some (.object []) else outside.fromStr shown.partialJson⟩

theorem calls_of_filter {contents : List Content} {shown : List (String × Shown)}
    (calls : contents.filter (·.isToolUse) = shown.map fun (id, shown) => .ofShown id shown) :
    contents.filterMap (·.call outside) = shown.map fun entry => entry.2.call outside entry.1 := by
  have tools : contents.filterMap (·.call outside) = (contents.filter (·.isToolUse)).filterMap (·.call outside) := by
    rw [List.filterMap_filter]
    refine List.filterMap_congr fun content _ => ?_
    cases content <;> rfl
  rw [tools, calls, List.filterMap_map]
  exact List.filterMap_eq_map_iff_forall_eq_some.2 fun _ _ => rfl

theorem answer_stream {s : Streaming} {text : String} {shown : List (String × Shown)} (showing : s.Showing text shown)
    (decoded : DecodedResponse) (maxTokens outputTokens : Nat) :
    Client.answer outside (s.sent ++ (streamFinish s.claude decoded (some maxTokens) outputTokens).output) =
      ⟨text, shown.map fun entry => entry.2.call outside entry.1,
        some (claudeStop decoded (some maxTokens) outputTokens), decoded.stopSequence⟩ := by
  have begun : Shows s.claude.begin.state (s.claude.begin.contents (s.sent.foldl Client.read {})) text shown := showing
  have started := begun.ensureMessage
  have closed : ∃ e : Encoder, Shows e.state (e.contents (s.sent.foldl Client.read {})) text shown ∧
      ∃ usage management, (streamFinish s.claude decoded (some maxTokens) outputTokens).output = e.output ++
        [.messageDelta (.object [("stop_reason", .string (claudeStop decoded (some maxTokens) outputTokens)),
          ("stop_sequence", optional decoded.stopSequence)]) usage management, .messageStop] := by
    unfold streamFinish
    cases opened : s.claude.begin.ensureMessage.state.block with
    | none =>
      exact ⟨_, started, claudeUsage s.claude.compactionIteration decoded, contextManagement s.claude.contextEditStats
        s.claude.autoCompactionOriginalInputTokens s.claude.inputTokens, by simp [opened, Encoder.push]⟩
    | some block =>
      exact ⟨_, started.closeBlock block.1, claudeUsage s.claude.compactionIteration decoded, contextManagement
        s.claude.contextEditStats s.claude.autoCompactionOriginalInputTokens s.claude.inputTokens,
        by simp [opened, Encoder.push]⟩
  obtain ⟨e, shows, usage, management, output⟩ := closed
  rw [output]
  simp only [Client.answer, List.foldl_append, List.foldl_cons, List.foldl_nil, Client.read, Answer.ofContents]
  have contents : (e.output.foldl Client.read (s.sent.foldl Client.read {})).contents =
      e.contents (s.sent.foldl Client.read {}) := rfl
  rw [contents, shows.text, calls_of_filter shows.calls]
  simp only [Answer.mk.injEq, true_and]
  exact ⟨rfl, asStr_optional decoded.stopSequence⟩

structure Outside.Reads (outside : Outside) : Prop where
  empty : outside.fromStr "\x7b\x7d" = some (.object [])
  leading : ∀ {blank text : String} {value : Value}, Text.trim blank = "" →
    outside.fromStr (blank ++ text) = some value → outside.fromStr text = some value
  trailing : ∀ {blank text : String} {value : Value}, Text.trim blank = "" →
    outside.fromStr (text ++ blank) = some value → outside.fromStr text = some value

def finalized (tool : ToolBuffer) : ToolBuffer :=
  if Text.trim tool.input = "" then { tool with input := "\x7b\x7d" } else tool

theorem finalized_id (tool : ToolBuffer) : (finalized tool).id = tool.id := by
  unfold finalized
  split <;> rfl

theorem finalized_name (tool : ToolBuffer) : (finalized tool).name = tool.name := by
  unfold finalized
  split <;> rfl

theorem repairJson_valid (reads : outside.Reads) {input : String} {value : Value} (solid : Text.trim input ≠ "")
    (valid : outside.fromStr input = some value) : repairJson outside input = value := by
  obtain ⟨front, back, split, before, after⟩ := Text.trim_split input
  have trimmed : outside.fromStr (Text.trim input) = some value := by
    rw [split, String.append_assoc] at valid
    exact reads.trailing after (reads.leading before valid)
  simp [repairJson, solid, trimmed]

theorem input_agrees (reads : outside.Reads) (call : Call) (rename : String → String)
    (valid : Text.trim call.buffer.input ≠ "" → (outside.fromStr call.buffer.input).isSome) :
    some (repairJson outside (finalized call.buffer).input) = ((call.shown rename).call outside call.id).input := by
  by_cases empty : call.sent = ""
  · have blank : Text.trim call.buffer.input = "" := by
      simpa [Call.buffer, empty] using call.blanks
    have parsed := repairJson_valid reads (by decide) reads.empty
    simp only [finalized, if_pos blank, parsed]
    simp [Shown.call, Call.shown, empty]
  · have solid : Text.trim call.buffer.input ≠ "" := by
      intro blank
      exact call.solid.resolve_left empty (Text.trim_append_empty.1 blank).2
    obtain ⟨value, parsed⟩ := Option.isSome_iff_exists.1 (valid solid)
    have sent : outside.fromStr call.sent = some value := reads.leading call.blanks parsed
    simp only [finalized, if_neg solid, repairJson_valid reads solid parsed]
    simp [Shown.call, Call.shown, empty, sent]

/-- The calls begin in the order of their ids, and each goes by the name of its first fragment. -/
def InOrder (names : List (String × String)) (calls : List (String × Call)) : Prop :=
  SortedMap.Sorted calls ∧ ∀ entry ∈ calls, clientName names entry.2.first = clientName names entry.2.name

def bufferedCall (outside : Outside) (names : List (String × String)) (entry : String × ToolBuffer) : ToolCall :=
  ⟨entry.2.id, clientName names entry.2.name, some (repairJson outside (finalized entry.2).input)⟩

theorem restored_calls (names : List (String × String)) {tools : List (String × ToolBuffer)}
    (shape : decoded.tools = tools.map fun (key, tool) => (key, finalized tool)) :
    (decoded.restoreToolNames names).tools.map (fun entry => (⟨entry.2.id, entry.2.name,
      some (repairJson outside entry.2.input)⟩ : ToolCall)) = tools.map (bufferedCall outside names) := by
  rw [DecodedResponse.restoreToolNames, shape, List.map_map, List.map_map]
  refine List.map_congr_left fun entry _ => ?_
  simp only [Function.comp_apply, bufferedCall, finalized_id, finalized_name, clientName]

theorem sorted_keys {α : Type} {entries : List (String × α)} :
    SortedMap.Sorted entries ↔ (entries.map (·.1)).Pairwise (· < ·) := List.pairwise_map.symm

theorem calls_agree_iff (names : List (String × String)) (reads : outside.Reads) {calls : List (String × Call)}
    {tools : List (String × ToolBuffer)} (sorted : SortedMap.Sorted tools)
    (perm : tools.Perm (calls.map (Prod.map id Call.buffer))) (keys : ∀ entry ∈ calls, entry.2.id = entry.1)
    (valid : ∀ entry ∈ tools, Text.trim entry.2.input ≠ "" → (outside.fromStr entry.2.input).isSome) :
    (calls.map (Prod.map id (Call.shown (clientName names)))).map (fun entry => entry.2.call outside entry.1) =
      tools.map (bufferedCall outside names) ↔ InOrder names calls := by
  have inputs : ∀ entry ∈ calls, (bufferedCall outside names (Prod.map id Call.buffer entry)).input =
      ((entry.2.shown (clientName names)).call outside entry.1).input := by
    intro entry member
    have solid := valid _ (perm.mem_iff.2 (List.mem_map_of_mem member))
    have agrees := input_agrees reads entry.2 (clientName names) solid
    rw [keys entry member] at agrees
    exact agrees
  have keyed : tools.map (fun entry => entry.2.id) = tools.map (·.1) := by
    refine List.map_congr_left fun entry member => ?_
    obtain ⟨call, there, rfl⟩ := List.mem_map.1 (perm.mem_iff.1 member)
    exact keys call there
  have placed (ordered : SortedMap.Sorted calls) : tools = calls.map (Prod.map id Call.buffer) := by
    refine SortedMap.eq_of_perm perm sorted ?_
    rw [sorted_keys, List.map_map]
    exact sorted_keys.1 ordered
  constructor
  · intro same
    have ids : calls.map (·.1) = tools.map (·.1) := by
      have read := congrArg (List.map ToolCall.id) same
      simp only [List.map_map, Function.comp_def, Shown.call, bufferedCall, Prod.map, id_eq] at read
      exact read.trans keyed
    have ordered : SortedMap.Sorted calls := by
      rw [sorted_keys, ids, ← sorted_keys]
      exact sorted
    refine ⟨ordered, fun entry member => ?_⟩
    rw [placed ordered, List.map_map, List.map_map] at same
    exact congrArg ToolCall.name (List.map_inj_left.1 same entry member)
  · rintro ⟨ordered, named⟩
    rw [placed ordered, List.map_map, List.map_map]
    refine List.map_congr_left fun entry member => ToolCall.ext ?_ ?_ ?_
    · exact (keys entry member).symm
    · exact named entry member
    · exact (inputs entry member).symm

theorem finalize_ok {next : DecodedResponse} (finalizes : decoded.finalizeToolInputs outside = .ok next) :
    next = { decoded with tools := decoded.tools.map fun (key, tool) => (key, finalized tool) } ∧
      ∀ entry ∈ decoded.tools, Text.trim entry.2.input ≠ "" → (outside.fromStr entry.2.input).isSome := by
  simp only [DecodedResponse.finalizeToolInputs] at finalizes
  split at finalizes
  case h_1 => cases finalizes
  case h_2 valid =>
    refine ⟨(Except.ok.inj finalizes).symm, fun entry member solid => ?_⟩
    have fine := List.find?_eq_none.1 valid entry member
    by_contra invalid
    exact fine (by simpa [solid] using invalid)

theorem finalize_both (outside : Outside) (same : other.unnamed = decoded.unnamed) :
    Both (fun next also => decoded.finalizeToolInputs outside = .ok next ∧ also.unnamed = next.unnamed)
      (decoded.finalizeToolInputs outside) (other.finalizeToolInputs outside) := by
  have first := finalize_unnamed outside decoded
  have second := finalize_unnamed outside other
  rw [same] at second
  have both := first.through second
  generalize decoded.finalizeToolInputs outside = result at both ⊢
  generalize other.finalizeToolInputs outside = result' at both ⊢
  cases both with
  | error message other => exact .error _ _
  | ok related =>
    obtain ⟨bare, one, two⟩ := related
    exact .ok ⟨rfl, two.trans one.symm⟩

theorem tools_nil_of_unnamed (same : other.unnamed = decoded.unnamed) (none : decoded.tools = []) :
    other = decoded := by
  have tools := congrArg DecodedResponse.tools same
  simp only [DecodedResponse.unnamed, none, List.map_nil, List.map_eq_nil_iff] at tools
  have shape (record : DecodedResponse) (empty : record.tools = []) : record.unnamed = record := by
    cases record
    cases empty
    rfl
  rw [← shape decoded none, ← same, shape other tools]

theorem fill_tools (decoded : DecodedResponse) :
    (fillMissingUsage outside request.tokenizer decoded).tools = decoded.tools := rfl

theorem delivered_tools (decoded : DecodedResponse) : (delivered request decoded).tools = decoded.tools := by
  simp only [delivered, stopFor]
  split
  · rfl
  · split <;> rfl

theorem stopFor_text (decoded : DecodedResponse) (reason : Option String) :
    (stopFor decoded reason).text = decoded.text := by
  unfold stopFor
  split <;> rfl

theorem stopFor_stopSequence (decoded : DecodedResponse) (reason : Option String) :
    (stopFor decoded reason).stopSequence = decoded.stopSequence := by
  unfold stopFor
  split <;> rfl

theorem delivered_text (decoded : DecodedResponse) : (delivered request decoded).text = decoded.text := by
  simp only [delivered]
  split
  · rfl
  · exact stopFor_text _ _

theorem delivered_stopSequence (decoded : DecodedResponse) :
    (delivered request decoded).stopSequence = decoded.stopSequence := by
  simp only [delivered]
  split
  · rfl
  · exact stopFor_stopSequence _ _

theorem claudeStop_calls (unstopped : decoded.stopReason = none) (calls : decoded.tools ≠ []) (maxTokens : Option Nat)
    (outputTokens : Nat) : claudeStop decoded maxTokens outputTokens = "tool_use" := by
  simp [claudeStop, unstopped, calls]

def streamed (outside : Outside) (request : Request) (decoded : DecodedResponse) : DecodedResponse :=
  let filled := fillMissingUsage outside request.tokenizer decoded
  let exhausted := if request.maxTokens ≤ saturatingAdd 0 filled.usage.outputTokens then some "max_tokens" else none
  { stopFor filled exhausted with usage := mergeRoundUsage (stopFor filled exhausted).usage {} }

theorem stop_agrees (outside : Outside) (request : Request) (same : other.unnamed = decoded.unnamed)
    (unstopped : decoded.stopReason = none) (unmatched : decoded.stopSequence = none) (maxTokens : Option Nat) :
    let whole := delivered request (fillMissingUsage outside request.tokenizer decoded)
    claudeStop (streamed outside request other) maxTokens (streamed outside request other).usage.outputTokens =
      claudeStop (whole.restoreToolNames request.webToolNames) maxTokens whole.usage.outputTokens := by
  intro whole
  by_cases none : decoded.tools = []
  · obtain rfl := tools_nil_of_unnamed same none
    have tools : (fillMissingUsage outside request.tokenizer other).tools = [] := none
    have open_ : (fillMissingUsage outside request.tokenizer other).stopSequence.isSome = false := by
      rw [show (fillMissingUsage outside request.tokenizer other).stopSequence = other.stopSequence from rfl, unmatched]
      rfl
    simp only [whole, delivered, streamed, stopFor, tools, open_, claudeStop, DecodedResponse.restoreToolNames]
    rfl
  · have also : other.tools ≠ [] := by
      intro empty
      exact none (tools_nil_of_unnamed same.symm empty ▸ empty)
    have reason : other.stopReason = Option.none := (congrArg DecodedResponse.stopReason same).trans unstopped
    have plain : (fillMissingUsage outside request.tokenizer other).stopReason = Option.none := reason
    have filled : (fillMissingUsage outside request.tokenizer decoded).stopReason = Option.none := unstopped
    rw [claudeStop_calls, claudeStop_calls]
    · simp only [whole, delivered, stopFor, fill_tools, none, if_false, DecodedResponse.restoreToolNames]
      split <;> exact filled
    · simp [whole, DecodedResponse.restoreToolNames, delivered_tools, fill_tools, none]
    · simp [streamed, stopFor, fill_tools, also, plain]
    · simp [streamed, stopFor, fill_tools, also]

def Agreeable (request : Request) (events : List KiroEvent) : Prop :=
  let read := consumed (.new request.stopSequences) events
  let calls := read.1.foldl arrive []
  if read.2 then calls = [] else InOrder request.webToolNames calls

/-- What the end of a round, in one piece and streamed, has to do with the calls that arrived. -/
def Told (outside : Outside) (tryEncrypt : Encrypt) (request : Request) (agreeable : Prop) (decoded : DecodedResponse)
    (sent : List SseEvent) : Prop :=
  Bare decoded ∧ ∃ message, claudeJson outside tryEncrypt
      ((delivered request decoded).restoreToolNames request.webToolNames) request.context request.maxTokens
      (delivered request decoded).usage.outputTokens none = some message ∧
    (Client.answer outside sent = Answer.ofMessage outside message ↔ agreeable)

def streamEnd (outside : Outside) (request : Request) (s : Streaming) : Except String (List SseEvent) := do
  let decoded ← s.complete outside request
  let (stopFilter, trailing) := s.stopFilter.finish
  let s := s.sendText trailing
  let decoded := applyStreamStop { decoded with usage := mergeRoundUsage decoded.usage {} } stopFilter
  return s.sent ++ (streamFinish s.claude decoded (some request.maxTokens) decoded.usage.outputTokens).output

def roundEnd (outside : Outside) (request : Request) (c : Collecting) : Except String DecodedResponse := do
  let decoded ← if c.decoded.stopSequence = none then c.decoded.finalizeToolInputs outside else pure c.decoded
  return fillMissingUsage outside request.tokenizer decoded

theorem Bare.restored (bare : Bare decoded) {names : List (String × String)} :
    Bare (decoded.restoreToolNames names) :=
  ⟨bare.reasoning, bare.signature, bare.redacted, bare.citations, bare.searches, bare.webSearches, bare.serverEvents⟩

theorem Bare.delivered (bare : Bare decoded) (request : Request) :
    Bare (delivered request decoded) := by
  unfold Http.delivered
  simp only [stopFor]
  split
  · exact ⟨bare.reasoning, bare.signature, bare.redacted, bare.citations, bare.searches, bare.webSearches,
      bare.serverEvents⟩
  · split <;> exact ⟨bare.reasoning, bare.signature, bare.redacted, bare.citations, bare.searches, bare.webSearches,
      bare.serverEvents⟩

theorem bare_of_alongside {names : List (String × String)} {calls : List (String × Call)} {c : Collecting} {s : Streaming}
    (along : Alongside names calls c s) : Bare c.decoded ∧ c.decoded.stopReason = none ∧ c.decoded.stopSequence = none := by
  rw [along.bare]
  exact ⟨⟨rfl, rfl, rfl, rfl, rfl, rfl, rfl⟩, rfl, rfl⟩

theorem end_stopped (tryEncrypt : Encrypt) {calls : List (String × Call)} {c : Collecting} {s : Streaming}
    (along : Alongside request.webToolNames calls c s) {sequence : String}
    (matched : c.stopFilter.matched = some sequence) :
    Both (Told outside tryEncrypt request (calls = [])) (roundEnd outside request c.stopped.1)
      (streamEnd outside request s) := by
  have cut : c.stopped.1.decoded = c.decoded.stopAtSequence c.visibleText sequence := by
    simp [Collecting.stopped, matched]
  have gathered : roundEnd outside request c.stopped.1 = .ok
      (fillMissingUsage outside request.tokenizer (c.decoded.stopAtSequence c.visibleText sequence)) := by
    simp only [roundEnd, cut]
    rfl
  have ended : s.stopFilter.matched = some sequence := by rw [along.filter, matched]
  have flushed : s.stopFilter.finish.2 = "" := by simp [StopSequenceFilter.finish, ended]
  have finished : s.stopFilter.finish.1.matched = some sequence := by
    rw [StopSequenceFilter.finish_matched, ended]
  have sent : ∃ decoded : DecodedResponse, decoded.stopReason = some "stop_sequence" ∧
      decoded.stopSequence = some sequence ∧ streamEnd outside request s = .ok (s.sent ++
        (streamFinish s.claude decoded (some request.maxTokens) decoded.usage.outputTokens).output) := by
    refine ⟨applyStreamStop { fillMissingUsage outside request.tokenizer s.decoded with
      usage := mergeRoundUsage (fillMissingUsage outside request.tokenizer s.decoded).usage {} } s.stopFilter.finish.1,
      ?_, ?_, ?_⟩
    · simp [applyStreamStop, finished, DecodedResponse.stopAtSequence]
    · simp [applyStreamStop, finished, DecodedResponse.stopAtSequence]
    · simp only [streamEnd, Streaming.complete, ended, flushed]
      rfl
  obtain ⟨decoded, reason, stop, sent⟩ := sent
  rw [gathered, sent]
  obtain ⟨bare, -, -⟩ := bare_of_alongside along
  have cutBare : Bare (fillMissingUsage outside request.tokenizer (c.decoded.stopAtSequence c.visibleText sequence)) :=
    ⟨bare.reasoning, bare.signature, bare.redacted, bare.citations, bare.searches, bare.webSearches, bare.serverEvents⟩
  refine .ok ⟨cutBare, ?_⟩
  have whole : Bare ((delivered request (fillMissingUsage outside request.tokenizer
      (c.decoded.stopAtSequence c.visibleText sequence))).restoreToolNames request.webToolNames) :=
    ⟨bare.reasoning, bare.signature, bare.redacted, bare.citations, bare.searches, bare.webSearches, bare.serverEvents⟩
  obtain ⟨message, made, reads⟩ := ofMessage_bare outside tryEncrypt whole request.context request.maxTokens
    (delivered request (fillMissingUsage outside request.tokenizer
      (c.decoded.stopAtSequence c.visibleText sequence))).usage.outputTokens
  refine ⟨message, made, ?_⟩
  have ends : claudeStop decoded (some request.maxTokens) decoded.usage.outputTokens = "stop_sequence" := by
    simp [claudeStop, reason]
  rw [reads, answer_stream along.showing, ends, stop]
  constructor
  · intro same
    simpa [DecodedResponse.restoreToolNames, delivered_tools, fill_tools, DecodedResponse.stopAtSequence] using
      congrArg Answer.calls same
  · rintro rfl
    rfl

theorem end_unstopped (reads : outside.Reads) (tryEncrypt : Encrypt) {calls : List (String × Call)} {c : Collecting}
    {s : Streaming} (along : Alongside request.webToolNames calls c s) (unmatched : c.stopFilter.matched = none) :
    Both (Told outside tryEncrypt request (InOrder request.webToolNames calls)) (roundEnd outside request c)
      (streamEnd outside request s) := by
  obtain ⟨bare, reason, stop⟩ := bare_of_alongside along
  have gathered : roundEnd outside request c = (c.decoded.finalizeToolInputs outside).bind fun decoded =>
      .ok (fillMissingUsage outside request.tokenizer decoded) := by
    simp only [roundEnd, stop, if_true]
    rfl
  have going : s.stopFilter.matched = none := by rw [along.filter, unmatched]
  have still : s.stopFilter.finish.1.matched = none := by rw [StopSequenceFilter.finish_matched, going]
  have sent : streamEnd outside request s = (s.decoded.finalizeToolInputs outside).bind fun decoded =>
      .ok ((s.sendText s.stopFilter.finish.2).sent ++ (streamFinish (s.sendText s.stopFilter.finish.2).claude
        (streamed outside request decoded) (some request.maxTokens)
        (streamed outside request decoded).usage.outputTokens).output) := by
    simp only [streamEnd, Streaming.complete, going, if_true, applyStreamStop, still]
    cases s.decoded.finalizeToolInputs outside <;> rfl
  rw [gathered, sent]
  refine (finalize_both outside along.unnamed).bind fun decoded other both => ?_
  obtain ⟨finalizes, same⟩ := both
  obtain ⟨shape, valid⟩ := finalize_ok finalizes
  have filledBare : Bare (fillMissingUsage outside request.tokenizer decoded) := by
    rw [shape]
    exact ⟨bare.reasoning, bare.signature, bare.redacted, bare.citations, bare.searches, bare.webSearches,
      bare.serverEvents⟩
  refine .ok ⟨filledBare, ?_⟩
  obtain ⟨message, made, reads'⟩ := ofMessage_bare outside tryEncrypt (filledBare.delivered request).restored
    request.context request.maxTokens
    (delivered request (fillMissingUsage outside request.tokenizer decoded)).usage.outputTokens
  refine ⟨message, made, ?_⟩
  have stops := stop_agrees outside request same
    (by rw [shape]; exact reason) (by rw [shape]; exact stop) (some request.maxTokens)
  have text : c.visibleText ++ s.stopFilter.finish.2 =
      (delivered request (fillMissingUsage outside request.tokenizer decoded)).text := by
    have trailing := (StopSequenceFilter.finish_unmatched going).1
    have kept := along.kept unmatched
    rw [delivered_text, shape]
    apply String.toList_inj.1
    rw [String.toList_append, trailing, along.filter]
    exact kept.symm
  have calls : ((delivered request (fillMissingUsage outside request.tokenizer decoded)).restoreToolNames
      request.webToolNames).tools.map (fun entry => (⟨entry.2.id, entry.2.name,
        some (repairJson outside entry.2.input)⟩ : ToolCall)) =
      c.decoded.tools.map (bufferedCall outside request.webToolNames) := by
    refine restored_calls request.webToolNames ?_
    rw [delivered_tools, fill_tools, shape]
  have sequence : (streamed outside request other).stopSequence = ((delivered request (fillMissingUsage outside
      request.tokenizer decoded)).restoreToolNames request.webToolNames).stopSequence :=
    calc (streamed outside request other).stopSequence
        = other.stopSequence := stopFor_stopSequence _ _
      _ = decoded.stopSequence :=
        show other.unnamed.stopSequence = decoded.unnamed.stopSequence from congrArg DecodedResponse.stopSequence same
      _ = _ := (delivered_stopSequence (fillMissingUsage outside request.tokenizer decoded)).symm
  rw [reads', answer_stream (along.showing.sendText s.stopFilter.finish.2), stops, calls, text, sequence]
  have agrees := calls_agree_iff request.webToolNames reads along.sorted along.tools along.keys valid
  constructor
  · exact fun same => agrees.1 (congrArg Answer.calls same)
  · intro order
    rw [agrees.2 order]
    rfl

end Finish

theorem decodeRound_eq (outside : Outside) (request : Request) (events : List KiroEvent) :
    decodeRound outside request.config {} (request.round events) =
      (collectEvents outside { stopFilter := .new request.stopSequences } events).bind (roundEnd outside request) := rfl

theorem streamResponse_eq (outside : Outside) (request : Request) (events : List KiroEvent) :
    streamResponse outside request events =
      (Streaming.pushAll outside request.webToolNames
        { claude := buildClaudeState request.context, stopFilter := .new request.stopSequences } events).bind
        (streamEnd outside request) := rfl

theorem both_told (outside : Outside) (reads : outside.Reads) (tryEncrypt : Encrypt) (request : Request)
    (events : List KiroEvent) (plain : ∀ event ∈ events, answers event = true) :
    Both (Told outside tryEncrypt request (Agreeable request events))
      (decodeRound outside request.config {} (request.round events)) (streamResponse outside request events) := by
  rw [decodeRound_eq, streamResponse_eq]
  have run := run_ending outside (starts_alongside request.context request.stopSequences request.webToolNames) rfl plain
  refine run.bind fun c s ending => ?_
  obtain ⟨uncut, along, rfl, stopped⟩ := ending
  cases matched : uncut.stopFilter.matched with
  | some sequence =>
    have stopped : (consumed (.new request.stopSequences) events).2 = true := by
      rw [matched] at stopped
      exact stopped.symm
    have condition : Agreeable request events ↔
        (consumed (.new request.stopSequences) events).1.foldl arrive [] = [] := by
      simp [Agreeable, stopped]
    rw [propext condition]
    exact end_stopped tryEncrypt along matched
  | none =>
    have unstopped : (consumed (.new request.stopSequences) events).2 = false := by
      rw [matched] at stopped
      exact stopped.symm
    have condition : Agreeable request events ↔
        InOrder request.webToolNames ((consumed (.new request.stopSequences) events).1.foldl arrive []) := by
      simp [Agreeable, unstopped]
    have uncut : uncut.stopped.1 = uncut := by simp [Collecting.stopped, matched]
    rw [propext condition, uncut]
    exact end_unstopped reads tryEncrypt along matched

/-- A streamed answer and the same answer in one piece come about together, and a client reads the
same from both exactly when the calls arrive in the order of their ids and under one name each, and
none has begun before a stop sequence. -/
theorem answers_agree_iff (outside : Outside) (reads : outside.Reads) (tryEncrypt : Encrypt) (request : Request)
    (events : List KiroEvent) (plain : ∀ event ∈ events, answers event = true) :
    ((∃ sent, streamResponse outside request events = .ok sent) ↔
      ∃ message, nonstreamClaude outside tryEncrypt request events = some message) ∧
    ∀ sent message, streamResponse outside request events = .ok sent →
      nonstreamClaude outside tryEncrypt request events = some message →
      (Client.answer outside sent = Answer.ofMessage outside message ↔ Agreeable request events) := by
  have both := both_told outside reads tryEncrypt request events plain
  cases decodes : decodeRound outside request.config {} (request.round events) with
  | error failure =>
    rw [decodes] at both
    have unmade : nonstreamClaude outside tryEncrypt request events = none := by
      simp [nonstreamClaude, collect_failed decodes]
    generalize streamResponse outside request events = response at both ⊢
    cases both
    simp [unmade]
  | ok decoded =>
    rw [decodes] at both
    generalize streamResponse outside request events = response at both ⊢
    cases both with
    | ok told =>
      obtain ⟨bare, message, made, agrees⟩ := told
      have whole : nonstreamClaude outside tryEncrypt request events = some message := by
        simp [nonstreamClaude, collect_one bare decodes, made]
      refine ⟨⟨fun _ => ⟨message, whole⟩, fun _ => ⟨_, rfl⟩⟩, fun sent other streamed made => ?_⟩
      cases streamed
      cases whole.symm.trans made
      exact agrees

def lenientOutside : Outside where
  fromStr text :=
    if Text.trim text = "\x7b\x7d" then some (.object [])
    else if Text.trim text = "\x7b\"n\":1\x7d" then some (.object [("n", .number (.posInt 1))])
    else none
  mergeUsage usage _ := usage

theorem lenientOutside_reads : lenientOutside.Reads where
  empty := by
    have trimmed : Text.trim "\x7b\x7d" = "\x7b\x7d" := by decide
    simp [lenientOutside, trimmed]
  leading blanks parsed := by
    simp only [lenientOutside, Text.trim_leading blanks] at parsed ⊢
    exact parsed
  trailing blanks parsed := by
    simp only [lenientOutside, Text.trim_trailing blanks] at parsed ⊢
    exact parsed

def sampleRequest : Request where
  context := { requestId := "msg_1", model := "claude", inputTokens := 7 }
  stopSequences := ["END"]
  maxTokens := 100
  webToolNames := [("fetch_page", "web_fetch")]
  tokenizer := { estimateKiroPayload := some 5, count := fun _ => some 3 }

def orderedCalls : List KiroEvent :=
  [.assistantResponse "An EN", .assistantResponse "try?", .usage .null, .toolUse "a" "fetch_page" "\x7b\"n\":" false,
    .toolUse "a" "" "1\x7d" true, .toolUse "b" "count" " " true]

theorem answers_agree_ordered : ∃ sent message, streamResponse lenientOutside sampleRequest orderedCalls = .ok sent ∧
    nonstreamClaude lenientOutside (fun _ => none) sampleRequest orderedCalls = some message ∧
    Client.answer lenientOutside sent = Answer.ofMessage lenientOutside message := by
  obtain ⟨together, agrees⟩ := answers_agree_iff lenientOutside lenientOutside_reads (fun _ => none) sampleRequest orderedCalls
    (by decide)
  have made : (nonstreamClaude lenientOutside (fun _ => none) sampleRequest orderedCalls).isSome = true := by
    decide
  obtain ⟨message, made⟩ := Option.isSome_iff_exists.1 made
  obtain ⟨sent, streamed⟩ := together.2 ⟨message, made⟩
  refine ⟨sent, message, streamed, made, (agrees sent message streamed made).2 ?_⟩
  have going : (consumed (.new sampleRequest.stopSequences) orderedCalls).2 = false := by decide
  simp only [Agreeable, going]
  exact ⟨by decide, by decide⟩

def crossedCalls : List KiroEvent := [.toolUse "b" "count" "\x7b\x7d" true, .toolUse "a" "count" "\x7b\x7d" true]

theorem crossed_calls_disagree : (∀ event ∈ crossedCalls, answers event = true) ∧
    ∃ sent message, streamResponse lenientOutside sampleRequest crossedCalls = .ok sent ∧
      nonstreamClaude lenientOutside (fun _ => none) sampleRequest crossedCalls = some message ∧
      Client.answer lenientOutside sent ≠ Answer.ofMessage lenientOutside message := by
  have streamed : (streamResponse lenientOutside sampleRequest crossedCalls).toOption.map
      (fun sent => (Client.answer lenientOutside sent).calls.map (·.id)) = some ["b", "a"] := by decide
  have made : (nonstreamClaude lenientOutside (fun _ => none) sampleRequest crossedCalls).map
      (fun message => (Answer.ofMessage lenientOutside message).calls.map (·.id)) = some ["a", "b"] := by decide
  obtain ⟨message, whole, order⟩ := Option.map_eq_some_iff.1 made
  cases response : streamResponse lenientOutside sampleRequest crossedCalls with
  | error failure =>
    rw [response] at streamed
    cases streamed
  | ok sent =>
    rw [response] at streamed
    refine ⟨by decide, sent, message, rfl, whole, fun same => ?_⟩
    have arrival : (Client.answer lenientOutside sent).calls.map (·.id) = ["b", "a"] := Option.some.inj streamed
    rw [same, order] at arrival
    exact absurd arrival (by decide)

end KiroProxy.Http

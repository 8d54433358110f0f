import KiroProxy.Http.StreamAbandoned

/-! The answer that is recorded after a stop sequence, against the text that the client was handed over all rounds. -/
namespace KiroProxy.Http

open Kiro

def spoken : KiroEvent → String
  | .assistantResponse content => content
  | _ => ""

def assistantText (events : List KiroEvent) : String := String.join (events.map spoken)

@[simp] theorem assistantText_append (first second : List KiroEvent) :
    assistantText (first ++ second) = assistantText first ++ assistantText second := by
  rw [assistantText, List.map_append, String.join_append]
  rfl

/-! ### What is recorded and what is handed over -/

def StreamEnding.answer (ending : StreamEnding) : DecodedResponse :=
  applyStreamStop { ending.decoded with
    text := ending.record.accumulatedText ++ ending.decoded.text
    toolSearches := ending.record.accumulatedSearches
    webSearches := ending.record.accumulatedWebSearches
    usage := mergeRoundUsage ending.decoded.usage ending.record.accumulatedUsage } ending.stopFilter.finish.1

namespace StreamLoop

variable (outside : Outside) (request : StreamRequest)

def ending (loop : StreamLoop) (attempt : Attempt) : StreamEnding :=
  let (hearing, _, _) := loop.heard outside request attempt
  ⟨hearing.stopFilter, loop.record, fillMissingUsage outside attempt.round.tokenizer hearing.decoded, attempt.tryEncrypt,
    attempt.commit⟩

/-- The frames of an answer to tool results wait for its end, and are dropped when it fails or says nothing. -/
def takesBack (loop : StreamLoop) (attempt : Attempt) : Bool :=
  let (hearing, _, failed) := loop.heard outside request attempt
  if failed.isSome then attempt.round.toolResults
  else
    let decoded := fillMissingUsage outside attempt.round.tokenizer hearing.decoded
    hearing.stopFilter.matched.isNone && emptyToolResultDisposition attempt.round.toolResults decoded
      (outputExhausted request loop.record decoded) loop.emptyToolResultRetries ≠ .accept

def handed (loop : StreamLoop) (attempt : Attempt) : String :=
  if loop.ended ∨ loop.takesBack outside request attempt then ""
  else assistantText (loop.heard outside request attempt).2.1

def handedAll : StreamLoop → List Attempt → String
  | _, [] => ""
  | loop, attempt :: rest => loop.handed outside request attempt ++ handedAll (loop.step outside request attempt) rest

/-- The attempt fails or says nothing after tool results, and the loop makes another one with a new stop filter. -/
def replacesFilter (loop : StreamLoop) (attempt : Attempt) : Bool :=
  !(loop.step outside request attempt).ended &&
    ((loop.heard outside request attempt).2.2.isSome || loop.takesBack outside request attempt)

/-- The stop filter is replaced only while the rounds before have left no text. -/
def ReplacesEarly : StreamLoop → List Attempt → Prop
  | _, [] => True
  | loop, attempt :: rest =>
    (loop.replacesFilter outside request attempt = true → loop.record.accumulatedText = "") ∧
      ReplacesEarly (loop.step outside request attempt) rest

end StreamLoop

/-! ### The filter -/

variable {filter : StopSequenceFilter}

namespace StopSequenceFilter

/-- Of the text that comes in, the filter shows a part and keeps the rest, as long as no sequence is complete. -/
structure Splits (filter next : StopSequenceFilter) (added shown : String) : Prop where
  tidy : next.Tidy
  counted : next.visibleBytes = filter.visibleBytes + shown.utf8ByteSize
  kept : ∃ tail, filter.pending ++ added.toList = shown.toList ++ tail ∧ (next.matched = none → tail = next.pending)

theorem Splits.refl (tidy : filter.Tidy) : filter.Splits filter "" "" :=
  ⟨tidy, rfl, filter.pending, by simp, fun _ => rfl⟩

theorem Splits.trans {first second third : StopSequenceFilter} {added more shown later : String}
    (one : first.Splits second added shown) (open_ : second.matched = none) (two : second.Splits third more later) :
    first.Splits third (added ++ more) (shown ++ later) where
  tidy := two.tidy
  counted := by rw [two.counted, one.counted, String.utf8ByteSize_append, Nat.add_assoc]
  kept := by
    obtain ⟨tail, parts, held⟩ := one.kept
    obtain ⟨rest, whole, last⟩ := two.kept
    rw [held open_] at parts
    refine ⟨rest, ?_, last⟩
    rw [String.toList_append, ← List.append_assoc, parts, List.append_assoc, whole, String.toList_append, List.append_assoc]

theorem push_splits (tidy : filter.Tidy) (open_ : filter.matched = none) (text : String) :
    filter.Splits (filter.push text).1 text (filter.push text).2 where
  tidy := push_tidy tidy text
  counted := by
    unfold push
    rw [if_neg (by simp [open_])]
    split
    · rfl
    · dsimp only
      split <;> rfl
  kept := by
    unfold push
    rw [if_neg (by simp [open_])]
    split
    case isTrue empty => exact ⟨[], by simp [tidy (by simpa using empty)], fun _ => by simp [tidy (by simpa using empty)]⟩
    case isFalse =>
      dsimp only
      split
      · exact ⟨_, by rw [String.toList_ofList, List.take_append_drop], nofun⟩
      · exact ⟨_, by rw [String.toList_ofList, List.take_append_drop], fun _ => rfl⟩

theorem finish_splits (open_ : filter.matched = none) :
    filter.Splits filter.finish.1 "" filter.finish.2 where
  tidy := finish_tidy filter
  counted := by simp [finish, open_]
  kept := ⟨[], by simp [finish, open_], fun _ => by simp [finish, open_]⟩

end StopSequenceFilter

/-! ### A round -/

section Rounds

variable {outside : Outside} {request : StreamRequest}

variable {event : KiroEvent} {shown : List KiroEvent} {h next : Hearing} {buffers : Bool} {attempt : Attempt}

theorem push_text {decoded next : DecodedResponse} (pushed : decoded.push outside event = .ok next) :
    next.text = decoded.text ++ spoken event := by
  cases event with
  | assistantResponse content =>
    cases pushed
    rfl
  | toolUse id name inputDelta stop =>
    simp only [DecodedResponse.push] at pushed
    split at pushed
    · cases pushed
    · cases pushed
      exact String.append_empty.symm
  | error _ message => cases pushed
  | _ =>
    cases pushed
    exact String.append_empty.symm

theorem visible_splits (tidy : filter.Tidy) (open_ : filter.matched = none) (event : KiroEvent) :
    let flush := filter.flushBefore event
    let visible := clientVisibleEvent flush.1 event
    filter.Splits visible.1 (spoken event) (flush.2 ++ assistantText visible.2.toList) := by
  have finished := StopSequenceFilter.finish_splits open_
  cases event with
  | assistantResponse content =>
    have pushed := StopSequenceFilter.push_splits tidy open_ content
    have shown : assistantText (clientVisibleEvent filter (.assistantResponse content)).2.toList = (filter.push content).2 := by
      simp only [clientVisibleEvent]
      split
      case isTrue empty => rw [empty]; rfl
      case isFalse => simp [assistantText, spoken, String.join_cons]
    simp only [StopSequenceFilter.flushBefore, endsText, Bool.false_eq_true, if_false, String.empty_append, shown]
    exact pushed
  | toolUse => simpa [StopSequenceFilter.flushBefore, endsText, clientVisibleEvent, assistantText, spoken] using finished
  | reasoning => simpa [StopSequenceFilter.flushBefore, endsText, clientVisibleEvent, assistantText, spoken] using finished
  | citations => simpa [StopSequenceFilter.flushBefore, endsText, clientVisibleEvent, assistantText, spoken] using finished
  | _ =>
    simpa [StopSequenceFilter.flushBefore, endsText, clientVisibleEvent, assistantText, spoken] using
      StopSequenceFilter.Splits.refl tidy

theorem spoken_named (names webToolNames : List (String × String)) (internal : Bool) (event : KiroEvent) :
    spoken (if internal then (restoreToolEventName names event).1
      else restoreWebToolName webToolNames (restoreToolEventName names event).1) = spoken event := by
  cases event with
  | toolUse id name inputDelta stop =>
    by_cases unnamed : name = ""
    · cases internal <;> simp [restoreToolEventName, unnamed, restoreWebToolName, spoken]
    · cases internal <;> simp [restoreToolEventName, unnamed, restoreWebToolName, spoken]
  | _ => cases internal <;> rfl

theorem assistantText_filter {keeps : KiroEvent → Bool} {visible : Option KiroEvent}
    (silent : ∀ event ∈ visible, keeps event = false → spoken event = "") :
    assistantText (visible.filter keeps).toList = assistantText visible.toList := by
  cases visible with
  | none => rfl
  | some event =>
    cases kept : keeps event with
    | true => rw [Option.filter_some, if_pos kept]
    | false =>
      rw [Option.filter_some, if_neg (by simp [kept])]
      simp [assistantText, silent event rfl kept, String.join_cons]

variable (event) in
theorem internal_call (catalog : Option ClaudeToolSearchCatalog) (maxRounds : Nat)
    (internal : (eventIsToolSearch catalog event || eventIsWebSearch maxRounds event) = true) :
    endsText event = true := by
  cases event with
  | toolUse => rfl
  | _ => cases internal

theorem visible_spoken {shown : KiroEvent} (ends : endsText event = true)
    (visible : shown ∈ (clientVisibleEvent filter event).2) : spoken shown = "" := by
  cases event with
  | assistantResponse => cases ends
  | _ => cases visible; rfl

theorem Hearing.push_splits (tidy : h.stopFilter.Tidy) (open_ : h.stopFilter.matched = none)
    (pushed : h.push outside request buffers event = (next, shown, none)) :
    h.stopFilter.Splits next.stopFilter (spoken event) (assistantText shown) ∧
      next.decoded.text = h.decoded.text ++ spoken event := by
  simp only [Hearing.push] at pushed
  have call := internal_call (restoreToolEventName h.upstreamToolNames event).1 request.config.toolSearch
    request.config.webSearchMaxRounds
  generalize (eventIsToolSearch request.config.toolSearch (restoreToolEventName h.upstreamToolNames event).1 ||
    eventIsWebSearch request.config.webSearchMaxRounds (restoreToolEventName h.upstreamToolNames event).1) = internal at pushed call
  have same := spoken_named h.upstreamToolNames request.webToolNames internal event
  have ends : internal = true → endsText (if internal then (restoreToolEventName h.upstreamToolNames event).1
      else restoreWebToolName request.webToolNames (restoreToolEventName h.upstreamToolNames event).1) = true := by
    intro internal
    rw [if_pos internal]
    exact call internal
  generalize (if internal then (restoreToolEventName h.upstreamToolNames event).1
    else restoreWebToolName request.webToolNames (restoreToolEventName h.upstreamToolNames event).1) = named at pushed same ends
  have visible := visible_splits tidy open_ named
  have flushed : assistantText (if (h.stopFilter.flushBefore named).2 = "" then []
      else [.assistantResponse (h.stopFilter.flushBefore named).2]) = (h.stopFilter.flushBefore named).2 := by
    split
    case isTrue empty => rw [empty]; rfl
    case isFalse => simp [assistantText, spoken, String.join_cons]
  cases taken : h.decoded.push outside named with
  | error message => simp [taken] at pushed
  | ok decoded =>
    simp only [taken, Prod.mk.injEq, and_true] at pushed
    obtain ⟨rfl, rfl⟩ := pushed
    rw [assistantText_append, flushed, assistantText_filter, ← same]
    · exact ⟨visible, push_text taken⟩
    · intro shown member dropped
      cases internal with
      | true => exact visible_spoken (ends rfl) member
      | false =>
        cases shown with
        | assistantResponse content => simp [shouldBufferToolEvent] at dropped
        | _ => rfl

/-- What is heard in a stretch of events: text that joins the record, of which the filter shows a part. -/
def Hearing.Splits (h next : Hearing) (shown : List KiroEvent) : Prop :=
  ∃ added, h.stopFilter.Splits next.stopFilter added (assistantText shown) ∧ next.decoded.text = h.decoded.text ++ added

theorem Hearing.Splits.trans {first second third : Hearing} {later : List KiroEvent} (one : first.Splits second shown)
    (open_ : second.stopFilter.matched = none) (two : second.Splits third later) :
    first.Splits third (shown ++ later) := by
  obtain ⟨added, early, text⟩ := one
  obtain ⟨more, late, whole⟩ := two
  refine ⟨added ++ more, ?_, by rw [whole, text, String.append_assoc]⟩
  rw [assistantText_append]
  exact early.trans open_ late

theorem Hearing.pushAll_splits {events : List KiroEvent} (tidy : h.stopFilter.Tidy)
    (open_ : h.stopFilter.matched = none) (heard : h.pushAll outside request buffers events = (next, shown, none)) :
    h.Splits next shown := by
  induction events generalizing h shown with
  | nil =>
    cases heard
    exact ⟨"", .refl tidy, String.append_empty.symm⟩
  | cons event rest ih =>
    rw [Hearing.pushAll] at heard
    rcases pushed : h.push outside request buffers event with ⟨middle, first, failed⟩
    simp only [pushed] at heard
    split at heard
    case isTrue =>
      cases heard
      exact ⟨_, Hearing.push_splits tidy open_ pushed⟩
    case isFalse going =>
      rw [not_or, Bool.not_eq_true, Bool.not_eq_true, Option.isSome_eq_false_iff, Option.isSome_eq_false_iff,
        Option.isNone_iff_eq_none, Option.isNone_iff_eq_none] at going
      obtain ⟨rfl, still⟩ := going
      rcases later : middle.pushAll outside request buffers rest with ⟨last, more, failed⟩
      simp only [later] at heard
      cases heard
      have step := Hearing.push_splits tidy open_ pushed
      exact Hearing.Splits.trans ⟨_, step⟩ still (ih step.1.tidy still later)

theorem Hearing.read_splits (tidy : h.stopFilter.Tidy) (open_ : h.stopFilter.matched = none)
    (heard : h.read outside request buffers attempt = (next, shown, none)) : h.Splits next shown := by
  have listened {next : Hearing} {shown : List KiroEvent}
      (heard : h.listen outside request buffers attempt = (next, shown, none)) : h.Splits next shown := by
    rcases first : h.pushAll outside request buffers attempt.round.events with ⟨middle, early, failed⟩
    simp only [Hearing.listen, first] at heard
    split at heard
    case isTrue =>
      cases heard
      exact Hearing.pushAll_splits tidy open_ first
    case isFalse going =>
      rcases second : middle.pushAll outside request buffers attempt.flush with ⟨last, late, error⟩
      simp only [second, Prod.mk.injEq, Option.or_eq_none_iff] at heard
      obtain ⟨rfl, rfl, rfl, rfl, -⟩ := heard
      have still : middle.stopFilter.matched = none := by simpa using going
      have step := Hearing.pushAll_splits tidy open_ first
      have tidy := step.choose_spec.1.tidy
      exact step.trans still (Hearing.pushAll_splits tidy still second)
  rcases reached : h.listen outside request buffers attempt with ⟨raw, early, failed⟩
  simp only [Hearing.read, reached] at heard
  split at heard
  case isTrue fine =>
    split at heard
    case h_1 decoded finalizes =>
      cases heard
      obtain rfl := Option.isNone_iff_eq_none.1 fine.1
      obtain ⟨added, splits, text⟩ := listened reached
      refine ⟨added, splits, ?_⟩
      simp only [DecodedResponse.finalizeToolInputs] at finalizes
      split at finalizes
      · cases finalizes
      · cases finalizes
        exact text
    case h_2 => cases heard
  case isFalse =>
    cases heard
    exact listened reached

theorem conclude_text {decoded rest : DecodedResponse} {record next : StreamRecord} {exhausted : Bool}
    {calls : List SearchCall}
    (concluded : record.conclude outside request attempt exhausted decoded = (calls, .another next rest)) :
    next.accumulatedText = record.accumulatedText ++ decoded.text ∧ rest.text = "" := by
  unfold StreamRecord.conclude at concluded
  by_cases web : request.config.webSearchMaxRounds > 0
  · simp only [if_pos web, DecodedResponse.takeToolUsesWhere, StreamRecord.close, StreamRecord.add] at concluded
    split_ifs at concluded
    all_goals cases concluded
    all_goals exact ⟨rfl, rfl⟩
  · simp only [if_neg web, DecodedResponse.takeToolUsesWhere, StreamRecord.close, StreamRecord.add] at concluded
    split_ifs at concluded
    all_goals cases concluded
    all_goals exact ⟨rfl, rfl⟩

theorem text_seen (format : StreamFormat) (s : StreamState) (content : String) :
    (encode outside format s (.event (.assistantResponse content))).2 ≠ [] := by
  unfold encode streamEvent
  cases format.protocol with
  | claude => exact fun none => Encoder.textBlock_output _ content (List.map_eq_nil_iff.1 none)
  | openAi => exact List.cons_ne_nil _ _

theorem text_unsent {format : StreamFormat} {s : StreamState}
    (quiet : (encodeAll outside format s (shown.map .event)).2 = []) : assistantText shown = "" := by
  induction shown generalizing s with
  | nil => rfl
  | cons event rest ih =>
    rw [List.map_cons, encodeAll, List.append_eq_nil_iff] at quiet
    have later := ih quiet.2
    cases event with
    | assistantResponse content => exact absurd quiet.1 (text_seen format s content)
    | _ =>
      rw [assistantText, List.map_cons, String.join_cons]
      exact later

namespace StreamLoop

/-- What the rounds so far have recorded has been handed over, but for what the filter holds. -/
structure Recorded (loop : StreamLoop) (text : String) : Prop where
  open_ : loop.stopFilter.matched = none
  tidy : loop.stopFilter.Tidy
  blank : loop.decoded.text = ""
  kept : loop.record.accumulatedText.toList = text.toList ++ loop.stopFilter.pending
  counted : loop.stopFilter.visibleBytes = text.utf8ByteSize

theorem Recorded.start (tryEncrypt : Encrypt) : (StreamLoop.start outside request tryEncrypt).Recorded "" :=
  ⟨rfl, StopSequenceFilter.new_tidy _, rfl, rfl, rfl⟩

variable {loop : StreamLoop} {text : String}

theorem Recorded.again {next : StreamLoop} (recorded : loop.Recorded text) (early : loop.record.accumulatedText = "")
    (filter : next.stopFilter = .new request.config.stopSequences) (decoded : next.decoded = {})
    (record : next.record.accumulatedText = loop.record.accumulatedText) :
    next.Recorded text := by
  have nothing : text.toList ++ loop.stopFilter.pending = [] := by rw [← recorded.kept, early]; rfl
  obtain rfl : text = "" := String.toList_eq_nil_iff.1 (List.append_eq_nil_iff.1 nothing).1
  constructor
  · rw [filter]; rfl
  · rw [filter]; exact StopSequenceFilter.new_tidy _
  · rw [decoded]
  · rw [record, early, filter]; rfl
  · rw [filter]; rfl

theorem Recorded.failed {message : String} {hearing : Hearing} (recorded : loop.Recorded text)
    (live : loop.ended = false) (heard : loop.heard outside request attempt = (hearing, shown, some message))
    (early : loop.record.accumulatedText = "") (going : (loop.step outside request attempt).ended = false) :
    (loop.step outside request attempt).Recorded (text ++ loop.handed outside request attempt) := by
  let next : StreamLoop := { loop with
    channel := if attempt.round.toolResults = true then
        loop.channel.restore (shown.foldl (Channel.emit outside request attempt.round.toolResults) loop.channel)
      else shown.foldl (Channel.emit outside request attempt.round.toolResults) loop.channel
    stopFilter := hearing.stopFilter
    decoded := hearing.decoded }
  have stepped : loop.step outside request attempt = next.recover outside request attempt := by
    rw [StreamLoop.step, if_neg (by simp [live])]
    simp only [heard, Option.isSome_some, if_true]
    rfl
  rw [stepped] at going ⊢
  have unheard (quiet : next.channel.dataStarted = false) : loop.handed outside request attempt = "" := by
    simp only [handed, takesBack, live, heard, Option.isSome_some, if_true, Bool.false_eq_true, false_or]
    cases guards : attempt.round.toolResults with
    | true => rfl
    | false =>
      simp only [next, guards, Bool.false_eq_true, if_false, Channel.emits] at quiet
      exact text_unsent (Channel.put_quiet quiet).2
  rcases recover_cases outside request attempt next with ⟨stopped, -⟩ | ⟨quiet, -, tokens, retries, again⟩ |
    ⟨quiet, tokens, -, -, retries, again⟩
  · simp [stopped] at going
  · rw [again, unheard quiet, String.append_empty]
    exact recorded.again early rfl rfl rfl
  · rw [again, unheard quiet, String.append_empty]
    exact recorded.again early rfl rfl rfl

theorem Recorded.completed {hearing : Hearing} (recorded : loop.Recorded text) (live : loop.ended = false)
    (heard : loop.heard outside request attempt = (hearing, shown, none))
    (early : loop.takesBack outside request attempt = true → loop.record.accumulatedText = "")
    (going : (loop.step outside request attempt).ended = false) :
    (loop.step outside request attempt).Recorded (text ++ loop.handed outside request attempt) := by
  obtain ⟨added, splits, spoken⟩ := Hearing.read_splits (h := { stopFilter := loop.stopFilter, decoded := loop.decoded })
    recorded.tidy recorded.open_ heard
  simp only [handed, takesBack, live, heard, Bool.false_eq_true, false_or, if_false, Option.isSome_none] at early ⊢
  simp only [StreamLoop.step, live, heard, Bool.false_eq_true, if_false, Option.isSome_none, complete] at going ⊢
  cases matched : hearing.stopFilter.matched with
  | some sequence =>
    simp [matched, finish] at going
  | none =>
    simp only [matched, Option.isSome_none, Bool.false_eq_true, if_false, Option.isNone_none, Bool.true_and] at going early ⊢
    generalize emptyToolResultDisposition _ _ _ _ = disposition at going early ⊢
    cases disposition with
    | fail => cases going
    | retry =>
      have none_before := early rfl
      simp only at going ⊢
      split at going
      case isTrue continues =>
        rw [if_pos continues]
        have again : loop.Recorded (text ++ "") := by rwa [String.append_empty]
        exact again.again none_before rfl rfl rfl
      case isFalse => cases going
    | accept =>
      simp only [accept] at going ⊢
      generalize proceeded : StreamRecord.proceed outside request loop.record attempt _ _ = result at going ⊢
      obtain ⟨operations, conclusion⟩ := result
      cases conclusion with
      | ends record decoded => cases going
      | fails => cases going
      | another record decoded =>
        obtain ⟨calls, concluded, -⟩ := proceed_another outside request proceeded
        obtain ⟨joined, empty⟩ := conclude_text concluded
        obtain ⟨tail, parts, held⟩ := splits.kept
        have whole : hearing.decoded.text = added := by rw [spoken, recorded.blank, String.empty_append]
        refine ⟨matched, splits.tidy, empty, ?_, ?_⟩
        · have filled : (fillMissingUsage outside attempt.round.tokenizer hearing.decoded).text = added := whole
          rw [joined, filled, String.toList_append, recorded.kept, List.append_assoc, parts, held matched,
            ← List.append_assoc, ← String.toList_append]
          rfl
        · rw [splits.counted, recorded.counted, ← String.utf8ByteSize_append]
          rfl

theorem Recorded.step (recorded : loop.Recorded text)
    (early : loop.replacesFilter outside request attempt = true → loop.record.accumulatedText = "")
    (going : (loop.step outside request attempt).ended = false) :
    (loop.step outside request attempt).Recorded (text ++ loop.handed outside request attempt) := by
  have live : loop.ended = false := by
    cases stopped : loop.ended with
    | false => rfl
    | true =>
      rw [StreamLoop.step, if_pos stopped, stopped] at going
      cases going
  rcases heard : loop.heard outside request attempt with ⟨hearing, shown, failed⟩
  simp only [replacesFilter, going, heard, Bool.not_false, Bool.true_and] at early
  cases failed with
  | some message => exact recorded.failed live heard (early rfl) going
  | none => exact recorded.completed live heard (fun taken => early (by simp [taken])) going

theorem ended_run (ended : loop.ended = true) (attempts : List Attempt) :
    attempts.foldl (StreamLoop.step outside request) loop = loop := by
  induction attempts with
  | nil => rfl
  | cons attempt rest ih =>
    have stays : loop.step outside request attempt = loop := by rw [StreamLoop.step, if_pos ended]
    rw [List.foldl_cons, stays, ih]

theorem Recorded.run {attempts : List Attempt} (recorded : loop.Recorded text)
    (early : loop.ReplacesEarly outside request attempts)
    (going : (attempts.foldl (StreamLoop.step outside request) loop).ended = false) :
    (attempts.foldl (StreamLoop.step outside request) loop).Recorded (text ++ loop.handedAll outside request attempts) := by
  induction attempts generalizing loop text with
  | nil =>
    rw [handedAll, String.append_empty]
    exact recorded
  | cons attempt rest ih =>
    have next : (loop.step outside request attempt).ended = false := by
      cases stopped : (loop.step outside request attempt).ended with
      | false => rfl
      | true =>
        rw [List.foldl_cons, ended_run stopped, stopped] at going
        cases going
    rw [handedAll, ← String.append_assoc]
    exact ih (recorded.step early.1 next) early.2 going

theorem handedAll_snoc (loop : StreamLoop) (attempts : List Attempt) (attempt : Attempt) :
    loop.handedAll outside request (attempts ++ [attempt]) = loop.handedAll outside request attempts ++
      (attempts.foldl (StreamLoop.step outside request) loop).handed outside request attempt := by
  induction attempts generalizing loop with
  | nil => rw [List.nil_append, handedAll, handedAll, handedAll, List.foldl_nil, String.append_empty, String.empty_append]
  | cons first rest ih => rw [List.cons_append, handedAll, handedAll, ih, List.foldl_cons, String.append_assoc]

end StreamLoop

theorem firstBytes_append (text : String) (rest : List Char) :
    firstBytes text.utf8ByteSize (text.toList ++ rest) = some text.toList := by
  have chars (cs : List Char) : firstBytes (String.ofList cs).utf8ByteSize (cs ++ rest) = some cs := by
    induction cs with
    | nil => simp [firstBytes]
    | cons c cs ih =>
      have size : (String.ofList (c :: cs)).utf8ByteSize = (String.ofList cs).utf8ByteSize + (c.utf8Size - 1) + 1 := by
        have positive := c.utf8Size_pos
        rw [String.ofList_cons, String.utf8ByteSize_append, String.utf8ByteSize_singleton]
        omega
      have left : (String.ofList cs).utf8ByteSize + (c.utf8Size - 1) + 1 - c.utf8Size = (String.ofList cs).utf8ByteSize := by
        have positive := c.utf8Size_pos
        omega
      rw [size, List.cons_append, firstBytes, if_pos (by omega), left, ih, Option.map_some]
  have whole := chars text.toList
  rwa [String.ofList_toList] at whole

/-- The record of a stream that a stop sequence ends is the text that the client was handed over all rounds. -/
theorem stopped_answer_handed (outside : Outside) (request : StreamRequest) (tryEncrypt : Encrypt) (attempts : List Attempt)
    (attempt : Attempt) :
    let start := StreamLoop.start outside request tryEncrypt
    let loop := attempts.foldl (StreamLoop.step outside request) start
    start.ReplacesEarly outside request attempts → loop.ended = false →
    (loop.heard outside request attempt).2.2 = none →
    (loop.heard outside request attempt).1.stopFilter.matched.isSome →
    (loop.ending outside request attempt).answer.text = start.handedAll outside request (attempts ++ [attempt]) := by
  intro start loop early live unfailed matched
  have recorded : loop.Recorded ("" ++ start.handedAll outside request attempts) :=
    (StreamLoop.Recorded.start tryEncrypt).run early live
  rw [String.empty_append] at recorded
  rcases heard : loop.heard outside request attempt with ⟨hearing, shown, failed⟩
  rw [heard] at unfailed matched
  obtain rfl : failed = none := unfailed
  obtain ⟨sequence, found⟩ : ∃ sequence, hearing.stopFilter.matched = some sequence := Option.isSome_iff_exists.1 matched
  obtain ⟨added, splits, spoken⟩ := Hearing.read_splits (h := { stopFilter := loop.stopFilter, decoded := loop.decoded })
    recorded.tidy recorded.open_ heard
  obtain ⟨tail, parts, -⟩ := splits.kept
  have handed : start.handedAll outside request (attempts ++ [attempt]) =
      start.handedAll outside request attempts ++ assistantText shown := by
    have kept : loop.handed outside request attempt = assistantText shown := by
      simp [StreamLoop.handed, StreamLoop.takesBack, live, heard, found]
    rw [StreamLoop.handedAll_snoc, kept]
  have finished : hearing.stopFilter.finish.1.matched = some sequence ∧
      hearing.stopFilter.finish.1.visibleBytes = hearing.stopFilter.visibleBytes := by
    simp [StopSequenceFilter.finish, found]
  have counted : hearing.stopFilter.visibleBytes =
      (start.handedAll outside request attempts ++ assistantText shown).utf8ByteSize := by
    rw [splits.counted, recorded.counted, String.utf8ByteSize_append]
  have text : (loop.record.accumulatedText ++ hearing.decoded.text).toList =
      (start.handedAll outside request attempts ++ assistantText shown).toList ++ tail := by
    rw [spoken, recorded.blank, String.empty_append, String.toList_append, recorded.kept, List.append_assoc, parts,
      ← List.append_assoc, ← String.toList_append]
  have cut := firstBytes_append (start.handedAll outside request attempts ++ assistantText shown) tail
  rw [handed]
  simp only [StreamLoop.ending, heard, StreamEnding.answer, applyStreamStop, finished.1, finished.2,
    DecodedResponse.stopAtSequence, counted]
  have filled : (fillMissingUsage outside attempt.round.tokenizer hearing.decoded).text = hearing.decoded.text := rfl
  rw [filled, text, cut, Option.map_some, Option.getD_some, String.ofList_toList]

end Rounds

def lookingUp (toolResults : Bool) : Attempt :=
  answered [.assistantResponse "Let me look. ", .toolUse "t" "tool_search" "" true] toolResults

def foundIt : Attempt := answered [.assistantResponse "Found it.END"] true

/-- The first answer says nothing and is asked for again, before any text. -/
theorem stopped_answer_handed_retry :
    let start := StreamLoop.start heldBackOutside heldBackRequest fun _ => none
    let attempts := [answered [] true, lookingUp true]
    let loop := attempts.foldl (StreamLoop.step heldBackOutside heldBackRequest) start
    (loop.ending heldBackOutside heldBackRequest foundIt).answer.text =
      start.handedAll heldBackOutside heldBackRequest (attempts ++ [foundIt]) := by
  have early : (StreamLoop.start heldBackOutside heldBackRequest fun _ => none).ReplacesEarly heldBackOutside
      heldBackRequest [answered [] true, lookingUp true] :=
    ⟨fun _ => rfl, fun replaced => absurd replaced (by decide), trivial⟩
  exact stopped_answer_handed heldBackOutside heldBackRequest (fun _ => none) [answered [] true, lookingUp true] foundIt
    early (by decide) (by decide) (by decide)

/-- After the search the answer says nothing at first: the next one is cut as if the text before the search were its own. -/
theorem stopped_answer_cut_short :
    let start := StreamLoop.start heldBackOutside heldBackRequest fun _ => none
    let attempts := [lookingUp false, answered [] true]
    let loop := attempts.foldl (StreamLoop.step heldBackOutside heldBackRequest) start
    loop.ended = false ∧ (loop.heard heldBackOutside heldBackRequest foundIt).2.2 = none ∧
      (loop.heard heldBackOutside heldBackRequest foundIt).1.stopFilter.matched = some "END" ∧
      (loop.ending heldBackOutside heldBackRequest foundIt).answer.text = "Let me lo" ∧
      start.handedAll heldBackOutside heldBackRequest (attempts ++ [foundIt]) = "Let me look. Found it." := by
  decide

end KiroProxy.Http

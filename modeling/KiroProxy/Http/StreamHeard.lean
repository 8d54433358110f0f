import KiroProxy.Http.StreamLoop

/-! What is heard of an answer depends neither on the signatures and citations that the record began with,
nor on what a stop filter without sequences has shown before. -/
namespace KiroProxy.Http

open Kiro

/-! ### Records -/

namespace DecodedResponse

/-- Without what a streamed answer never tells: signatures and citations have gone out as events. -/
def told (decoded : DecodedResponse) : DecodedResponse :=
  { decoded with reasoningSignature := none, redactedThinking := "", citations := [] }

def frame (decoded : DecodedResponse) : Option String × Option String × List ClaudeToolSearchTrace ×
    List ClaudeWebSearchTrace × List ClaudeServerEvent :=
  (decoded.stopReason, decoded.stopSequence, decoded.toolSearches, decoded.webSearches, decoded.claudeServerEvents)

variable {outside : Outside} {decoded other : DecodedResponse}

theorem eq_of_told (same : decoded.told = other.told) :
    other = { decoded with
      reasoningSignature := other.reasoningSignature
      redactedThinking := other.redactedThinking
      citations := other.citations } := by
  obtain ⟨text, reasoning, signature, redacted, citations, tools, searches, webs, events, usage, reason, sequence⟩ := decoded
  obtain ⟨_, _, _, _, _, _, _, _, _, _, _, _⟩ := other
  simp only [told, DecodedResponse.mk.injEq] at same
  obtain ⟨rfl, rfl, -, -, -, rfl, rfl, rfl, rfl, rfl, rfl, rfl⟩ := same
  rfl

/-- Two computations that agree on what is told fail alike, and leave the frame as it is. -/
def Agree (x y : Except String DecodedResponse) (before : DecodedResponse) : Prop :=
  (∃ message, x = .error message ∧ y = .error message) ∨
    ∃ first second, x = .ok first ∧ y = .ok second ∧ first.told = second.told ∧ first.frame = before.frame

theorem push_agree (outside : Outside) (same : decoded.told = other.told) (event : KiroEvent) :
    Agree (decoded.push outside event) (other.push outside event) decoded := by
  rw [eq_of_told same]
  cases event with
  | toolUse id name inputDelta stop =>
    by_cases large : decoded.toolBytes + inputDelta.utf8ByteSize > maxCumulativeToolInputBytes
    · exact .inl ⟨_, if_pos large, if_pos large⟩
    · exact .inr ⟨_, _, if_neg large, if_neg large, rfl, rfl⟩
  | error kind message => exact .inl ⟨message, rfl, rfl⟩
  | assistantResponse | reasoning | citations | messageMetadata | usage | other =>
    exact .inr ⟨_, _, rfl, rfl, rfl, rfl⟩

theorem finalize_agree (outside : Outside) (same : decoded.told = other.told) :
    Agree (decoded.finalizeToolInputs outside) (other.finalizeToolInputs outside) decoded := by
  rw [eq_of_told same]
  unfold finalizeToolInputs
  dsimp only
  split
  · exact .inl ⟨_, rfl, rfl⟩
  · exact .inr ⟨_, _, rfl, rfl, rfl, rfl⟩

theorem fill_told (outside : Outside) (tokenizer : Tokenizer) (same : decoded.told = other.told) :
    (fillMissingUsage outside tokenizer decoded).told = (fillMissingUsage outside tokenizer other).told := by
  rw [eq_of_told same]
  rfl

end DecodedResponse

/-! ### Stop filters -/

namespace StopSequenceFilter

def Inert (filter : StopSequenceFilter) : Prop :=
  filter.sequences = [] ∧ filter.pending = [] ∧ filter.matched = none

def Like (filter other : StopSequenceFilter) : Prop := filter = other ∨ filter.Inert ∧ other.Inert

variable {filter other third : StopSequenceFilter}

theorem Like.matched (like : filter.Like other) : filter.matched = other.matched := by
  rcases like with rfl | ⟨⟨-, -, first⟩, -, -, second⟩
  · rfl
  · exact first.trans second.symm

theorem Like.turn (like : filter.Like other) (also : filter.Like third) : other.Like third := by
  rcases like with rfl | ⟨here, there⟩
  · exact also
  · rcases also with rfl | ⟨-, last⟩
    · exact .inr ⟨there, here⟩
    · exact .inr ⟨there, last⟩

theorem Inert.push (inert : filter.Inert) (text : String) : (filter.push text).1.Inert ∧ (filter.push text).2 = text := by
  obtain ⟨sequences, pending, unmatched⟩ := inert
  unfold StopSequenceFilter.push
  simp only [unmatched, sequences]
  exact ⟨⟨rfl, pending, rfl⟩, rfl⟩

theorem Inert.finish (inert : filter.Inert) : filter.finish.1.Inert ∧ filter.finish.2 = "" := by
  obtain ⟨sequences, pending, unmatched⟩ := inert
  unfold StopSequenceFilter.finish
  simp only [unmatched, sequences, pending]
  exact ⟨⟨rfl, rfl, rfl⟩, rfl⟩

theorem Like.push (like : filter.Like other) (text : String) :
    (filter.push text).1.Like (other.push text).1 ∧ (filter.push text).2 = (other.push text).2 := by
  rcases like with rfl | ⟨first, second⟩
  · exact ⟨.inl rfl, rfl⟩
  · exact ⟨.inr ⟨(first.push text).1, (second.push text).1⟩, (first.push text).2.trans (second.push text).2.symm⟩

theorem Like.finish (like : filter.Like other) :
    filter.finish.1.Like other.finish.1 ∧ filter.finish.2 = other.finish.2 := by
  rcases like with rfl | ⟨first, second⟩
  · exact ⟨.inl rfl, rfl⟩
  · exact ⟨.inr ⟨first.finish.1, second.finish.1⟩, first.finish.2.trans second.finish.2.symm⟩

theorem Like.flushBefore (like : filter.Like other) (event : KiroEvent) :
    (filter.flushBefore event).1.Like (other.flushBefore event).1 ∧
      (filter.flushBefore event).2 = (other.flushBefore event).2 := by
  unfold StopSequenceFilter.flushBefore
  split
  · exact like.finish
  · exact ⟨like, rfl⟩

theorem Like.visible (like : filter.Like other) (event : KiroEvent) :
    (clientVisibleEvent filter event).1.Like (clientVisibleEvent other event).1 ∧
      (clientVisibleEvent filter event).2 = (clientVisibleEvent other event).2 := by
  cases event with
  | assistantResponse content =>
    obtain ⟨next, shown⟩ := like.push content
    unfold clientVisibleEvent
    dsimp only
    rw [shown]
    exact ⟨next, rfl⟩
  | _ => exact ⟨like, rfl⟩

end StopSequenceFilter

/-! ### Answers -/

namespace Hearing

structure Like (h g : Hearing) : Prop where
  filter : h.stopFilter.Like g.stopFilter
  told : h.decoded.told = g.decoded.told
  names : h.upstreamToolNames = g.upstreamToolNames

variable (outside : Outside) (request : StreamRequest) (buffers : Bool) {h g : Hearing}

theorem Like.push (like : h.Like g) (event : KiroEvent) :
    (h.push outside request buffers event).1.Like (g.push outside request buffers event).1 ∧
      (h.push outside request buffers event).2 = (g.push outside request buffers event).2 ∧
      (h.push outside request buffers event).1.decoded.frame = h.decoded.frame := by
  unfold Hearing.push
  rw [← like.names]
  generalize restoreToolEventName h.upstreamToolNames event = restored
  obtain ⟨event, names⟩ := restored
  dsimp only
  generalize (if (_ || _ : Bool) = true then event else restoreWebToolName request.webToolNames event) = named
  obtain ⟨flushes, same_flush⟩ := like.filter.flushBefore named
  obtain ⟨shows, same_visible⟩ := flushes.visible named
  rw [same_flush, same_visible]
  rcases DecodedResponse.push_agree outside like.told named with ⟨message, first, second⟩ | ⟨_, _, first, second, told, frame⟩
  · rw [first, second]
    exact ⟨⟨shows, like.told, rfl⟩, rfl, rfl⟩
  · rw [first, second]
    exact ⟨⟨shows, told, rfl⟩, rfl, frame⟩

theorem Like.pushAll (like : h.Like g) (events : List KiroEvent) :
    (h.pushAll outside request buffers events).1.Like (g.pushAll outside request buffers events).1 ∧
      (h.pushAll outside request buffers events).2 = (g.pushAll outside request buffers events).2 ∧
      (h.pushAll outside request buffers events).1.decoded.frame = h.decoded.frame := by
  induction events generalizing h g with
  | nil => exact ⟨like, rfl, rfl⟩
  | cons event rest ih =>
    obtain ⟨next, same, frame⟩ := like.push outside request buffers event
    unfold Hearing.pushAll
    generalize h.push outside request buffers event = first at next same frame
    generalize g.push outside request buffers event = second at next same frame
    obtain ⟨first, shown, failed⟩ := first
    obtain ⟨second, _, _⟩ := second
    cases same
    dsimp only at next frame ⊢
    rw [next.filter.matched]
    split
    · exact ⟨next, rfl, frame⟩
    · obtain ⟨last, heard, kept⟩ := ih next
      generalize first.pushAll outside request buffers rest = first at last heard kept
      generalize second.pushAll outside request buffers rest = second at last heard kept
      obtain ⟨first, later, failed⟩ := first
      obtain ⟨second, _, _⟩ := second
      cases heard
      exact ⟨last, rfl, kept.trans frame⟩

theorem Like.listen (like : h.Like g) (attempt : Attempt) :
    (h.listen outside request buffers attempt).1.Like (g.listen outside request buffers attempt).1 ∧
      (h.listen outside request buffers attempt).2 = (g.listen outside request buffers attempt).2 ∧
      (h.listen outside request buffers attempt).1.decoded.frame = h.decoded.frame := by
  obtain ⟨next, same, frame⟩ := like.pushAll outside request buffers attempt.round.events
  unfold Hearing.listen
  generalize h.pushAll outside request buffers attempt.round.events = first at next same frame
  generalize g.pushAll outside request buffers attempt.round.events = second at next same frame
  obtain ⟨first, shown, failed⟩ := first
  obtain ⟨second, _, _⟩ := second
  cases same
  dsimp only at next frame ⊢
  rw [next.filter.matched]
  split
  · exact ⟨next, rfl, frame⟩
  · obtain ⟨last, heard, kept⟩ := next.pushAll outside request buffers attempt.flush
    generalize first.pushAll outside request buffers attempt.flush = first at last heard kept
    generalize second.pushAll outside request buffers attempt.flush = second at last heard kept
    obtain ⟨first, flushed, error⟩ := first
    obtain ⟨second, _, _⟩ := second
    cases heard
    exact ⟨last, rfl, kept.trans frame⟩

theorem Like.read (like : h.Like g) (attempt : Attempt) :
    (h.read outside request buffers attempt).1.Like (g.read outside request buffers attempt).1 ∧
      (h.read outside request buffers attempt).2 = (g.read outside request buffers attempt).2 ∧
      (h.read outside request buffers attempt).1.decoded.frame = h.decoded.frame := by
  obtain ⟨next, same, frame⟩ := like.listen outside request buffers attempt
  unfold Hearing.read
  generalize h.listen outside request buffers attempt = first at next same frame
  generalize g.listen outside request buffers attempt = second at next same frame
  obtain ⟨first, shown, failed⟩ := first
  obtain ⟨second, _, _⟩ := second
  cases same
  dsimp only at next frame ⊢
  rw [next.filter.matched]
  split
  · rcases DecodedResponse.finalize_agree outside next.told with ⟨message, here, there⟩ | ⟨_, _, here, there, told, kept⟩
    · rw [here, there]
      exact ⟨next, rfl, frame⟩
    · rw [here, there]
      exact ⟨⟨next.filter, told, next.names⟩, rfl, kept.trans frame⟩
  · exact ⟨next, rfl, frame⟩

end Hearing

/-! ### Conclusions -/

variable {outside : Outside} {request : StreamRequest}

inductive Conclusion.Alike : Conclusion → Conclusion → Prop
  | another {record decoded other} : decoded.told = other.told → Alike (another record decoded) (another record other)
  | ends {record decoded other} : decoded.told = other.told → Alike (ends record decoded) (ends record other)
  | fails : Alike fails fails

theorem DecodedResponse.stopFor_told {decoded other : DecodedResponse} (same : decoded.told = other.told)
    (reason : Option String) : (stopFor decoded reason).told = (stopFor other reason).told := by
  rw [eq_of_told same]
  unfold stopFor
  dsimp only
  split
  · rfl
  · rfl

variable (outside request) in
theorem conclude_alike {decoded other : DecodedResponse} (same : decoded.told = other.told) (record : StreamRecord)
    (attempt : Attempt) (outputExhausted : Bool) :
    (record.conclude outside request attempt outputExhausted decoded).1 =
        (record.conclude outside request attempt outputExhausted other).1 ∧
      (record.conclude outside request attempt outputExhausted decoded).2.Alike
        (record.conclude outside request attempt outputExhausted other).2 := by
  rw [DecodedResponse.eq_of_told same]
  unfold StreamRecord.conclude
  have stopped : ∀ tools reason, (stopFor { decoded with tools := tools } reason).told =
      (stopFor { decoded with
        tools := tools
        reasoningSignature := other.reasoningSignature
        redactedThinking := other.redactedThinking
        citations := other.citations } reason).told := by
    intro tools reason
    apply DecodedResponse.stopFor_told
    rfl
  by_cases web : request.config.webSearchMaxRounds > 0
  · simp only [if_pos web, DecodedResponse.takeToolUsesWhere, StreamRecord.close]
    split_ifs
    all_goals constructor
    all_goals first | rfl | exact .fails | exact .another rfl | exact .ends (stopped _ _)
  · simp only [if_neg web, DecodedResponse.takeToolUsesWhere, StreamRecord.close]
    split_ifs
    all_goals constructor
    all_goals first | rfl | exact .fails | exact .another rfl | exact .ends (stopped _ _)

theorem conclude_another {decoded rest : DecodedResponse} {record next : StreamRecord} {attempt : Attempt}
    {outputExhausted : Bool} {calls : List SearchCall} (framed : decoded.frame = ({} : DecodedResponse).frame)
    (concluded : record.conclude outside request attempt outputExhausted decoded = (calls, .another next rest)) :
    rest.told = ({} : DecodedResponse).told ∧ next.accumulatedSearches = (record.add calls).accumulatedSearches ∧
      next.accumulatedWebSearches = (record.add calls).accumulatedWebSearches := by
  obtain ⟨text, reasoning, signature, redacted, citations, tools, searches, webs, events, usage, reason, sequence⟩ := decoded
  simp only [DecodedResponse.frame, Prod.mk.injEq] at framed
  obtain ⟨rfl, rfl, rfl, rfl, rfl⟩ := framed
  have unsearched : (record.add []).accumulatedSearches = record.accumulatedSearches ∧
      (record.add []).accumulatedWebSearches = record.accumulatedWebSearches := ⟨List.append_nil _, List.append_nil _⟩
  unfold StreamRecord.conclude at concluded
  by_cases web : request.config.webSearchMaxRounds > 0
  · simp only [if_pos web, DecodedResponse.takeToolUsesWhere, StreamRecord.close] at concluded
    split_ifs at concluded
    all_goals cases concluded
    all_goals first | exact ⟨rfl, rfl, rfl⟩ | exact ⟨rfl, unsearched.1.symm, unsearched.2.symm⟩
  · simp only [if_neg web, DecodedResponse.takeToolUsesWhere, StreamRecord.close] at concluded
    split_ifs at concluded
    all_goals cases concluded
    all_goals first | exact ⟨rfl, rfl, rfl⟩ | exact ⟨rfl, unsearched.1.symm, unsearched.2.symm⟩

variable (outside request) in
theorem proceed_alike {decoded other : DecodedResponse} (same : decoded.told = other.told) (record : StreamRecord)
    (attempt : Attempt) (outputExhausted : Bool) :
    (record.proceed outside request attempt outputExhausted decoded).1 =
        (record.proceed outside request attempt outputExhausted other).1 ∧
      (record.proceed outside request attempt outputExhausted decoded).2.Alike
        (record.proceed outside request attempt outputExhausted other).2 := by
  obtain ⟨calls, alike⟩ := conclude_alike outside request same record attempt outputExhausted
  unfold StreamRecord.proceed
  dsimp only
  rw [calls]
  split
  · exact ⟨rfl, alike⟩
  · exact ⟨rfl, .fails⟩

theorem streamStop_told {first second : StopSequenceFilter} (like : first.Like second) {decoded other : DecodedResponse}
    (same : decoded.told = other.told) : (applyStreamStop decoded first).told = (applyStreamStop other second).told := by
  rw [DecodedResponse.eq_of_told same]
  rcases like with rfl | ⟨⟨-, -, here⟩, -, -, there⟩
  · unfold applyStreamStop
    split
    · rfl
    · rfl
  · unfold applyStreamStop
    rw [here, there]
    rfl

theorem closing_alike {first second : StopSequenceFilter} (like : first.Like second) {decoded other : DecodedResponse}
    (same : decoded.told = other.told) (buffers : Bool) (claude : StreamState) (record : StreamRecord)
    (tryEncrypt : Encrypt) (commit : UsageInfo → UsageInfo) :
    closingFrames outside request buffers claude ⟨first, record, decoded, tryEncrypt, commit⟩ =
      closingFrames outside request buffers claude ⟨second, record, other, tryEncrypt, commit⟩ := by
  obtain ⟨next, trailing⟩ := like.finish
  unfold closingFrames
  dsimp only
  rw [trailing]
  have completed : ({ decoded with
      text := record.accumulatedText ++ decoded.text
      toolSearches := record.accumulatedSearches
      webSearches := record.accumulatedWebSearches
      usage := mergeRoundUsage decoded.usage record.accumulatedUsage } : DecodedResponse).told =
      ({ other with
        text := record.accumulatedText ++ other.text
        toolSearches := record.accumulatedSearches
        webSearches := record.accumulatedWebSearches
        usage := mergeRoundUsage other.usage record.accumulatedUsage } : DecodedResponse).told := by
    rw [DecodedResponse.eq_of_told same]
    rfl
  have stopped := streamStop_told next completed
  generalize applyStreamStop { decoded with
    text := record.accumulatedText ++ decoded.text
    toolSearches := record.accumulatedSearches
    webSearches := record.accumulatedWebSearches
    usage := mergeRoundUsage decoded.usage record.accumulatedUsage } first.finish.1 = here at stopped ⊢
  generalize applyStreamStop { other with
    text := record.accumulatedText ++ other.text
    toolSearches := record.accumulatedSearches
    webSearches := record.accumulatedWebSearches
    usage := mergeRoundUsage other.usage record.accumulatedUsage } second.finish.1 = there at stopped ⊢
  rw [DecodedResponse.eq_of_told stopped]
  rfl

end KiroProxy.Http

import KiroProxy.Http.StreamHeard
import KiroProxy.Http.StreamQuiet

/-! Of an attempt that is given up the client sees nothing, while the stop filter with which the attempt
began had nothing to lose. -/
namespace KiroProxy.Http

open Kiro

/-- An attempt, and the usage counted before it: attempts that are given up are paid for, too. -/
structure Taken where
  attempt : Attempt
  spent : UsageInfo

/-- A stream in which nothing is given up: what its encoder is told, and how it ends. -/
structure Transcript where
  stopFilter : StopSequenceFilter
  record : StreamRecord
  operations : List Operation := []
  completed : Bool := false
  ending : Option StreamEnding := none

structure Origin where
  fresh : StreamState
  initial : List Operation

section Transcript

variable (outside : Outside) (request : StreamRequest)

def Origin.of (tryEncrypt : Encrypt) (inputTokens : Nat) : Origin where
  fresh := buildState request inputTokens
  initial := initialOperations request tryEncrypt request.resumed.toolSearches request.resumed.webSearches

def Transcript.new : Transcript where
  stopFilter := .new request.config.stopSequences
  record := .new request

def Transcript.take (buffers : Bool) (transcript : Transcript) (taken : Taken) : Transcript :=
  let attempt := taken.attempt
  let (hearing, shown, failed) :=
    ({ stopFilter := transcript.stopFilter } : Hearing).read outside request buffers attempt
  let transcript := { transcript with
    stopFilter := hearing.stopFilter
    operations := transcript.operations ++ shown.map .event }
  if failed.isSome then transcript
  else
    let transcript := { transcript with completed := true }
    let record := { transcript.record with accumulatedUsage := taken.spent }
    let decoded := fillMissingUsage outside attempt.round.tokenizer hearing.decoded
    let ends := fun record decoded =>
      { transcript with ending := some ⟨hearing.stopFilter, record, decoded, attempt.tryEncrypt, attempt.commit⟩ }
    if hearing.stopFilter.matched.isSome then ends record decoded
    else
      let (operations, conclusion) := record.proceed outside request attempt
        (StreamLoop.outputExhausted request record decoded) decoded
      match conclusion with
      | .another record _ =>
        { transcript with record := record, operations := transcript.operations ++ operations }
      | .ends record decoded => { ends record decoded with operations := transcript.operations ++ operations }
      | .fails => { transcript with operations := transcript.operations ++ operations }

def Transcript.frames (buffers : Bool) (origin : Origin) (transcript : Transcript) : List Frame :=
  let (claude, first) := encodeAll outside request.format origin.fresh origin.initial
  let (claude, rest) := encodeAll outside request.format claude transcript.operations
  if rest = [] ∧ transcript.completed = false then []
  else first ++ rest ++ (transcript.ending.map (closingFrames outside request buffers claude)).getD []

namespace StreamLoop

/-- An attempt is given up when another one takes its place, or when it answers tool results with a
failure or with nothing. -/
def abandons (loop : StreamLoop) (attempt : Attempt) : Bool :=
  let (hearing, _, failed) := loop.heard outside request attempt
  if failed.isSome then attempt.round.toolResults || !(loop.step outside request attempt).ended
  else
    let decoded := fillMissingUsage outside attempt.round.tokenizer hearing.decoded
    hearing.stopFilter.matched.isNone && emptyToolResultDisposition attempt.round.toolResults decoded
      (outputExhausted request loop.record decoded) loop.emptyToolResultRetries ≠ .accept

def kept : StreamLoop → List Attempt → List Taken
  | _, [] => []
  | loop, attempt :: rest =>
    (if loop.ended ∨ loop.abandons outside request attempt then [] else [⟨attempt, loop.record.accumulatedUsage⟩]) ++
      StreamLoop.kept (loop.step outside request attempt) rest

def moved (loop : StreamLoop) (attempt : Attempt) (origin : Origin) : Origin :=
  match (loop.heard outside request attempt).2.2, attempt.recovery with
  | some _, .switched inputTokens =>
    if (loop.step outside request attempt).ended then origin else .of request attempt.tryEncrypt inputTokens
  | _, _ => origin

def origin : StreamLoop → Origin → List Attempt → Origin
  | _, origin, [] => origin
  | loop, origin, attempt :: rest =>
    StreamLoop.origin (loop.step outside request attempt) (loop.moved outside request attempt origin) rest

/-- A retry makes a new stop filter: what the old one has held back or counted is gone. -/
def RetriesAfresh : StreamLoop → List Attempt → Prop
  | _, [] => True
  | loop, attempt :: rest =>
    (loop.ended = false → loop.abandons outside request attempt = true →
      (loop.step outside request attempt).ended = false →
      loop.stopFilter.Like (.new request.config.stopSequences)) ∧
    StreamLoop.RetriesAfresh (loop.step outside request attempt) rest

end StreamLoop
/-! ### Channels -/

namespace Channel

variable {outside : Outside} {request : StreamRequest} {channel : Channel}

theorem put_nil (guards : Bool) : channel.put guards [] = channel := by
  cases guards with
  | false => simp [put, prependPendingInitial, send]
  | true => simp [put, prependPendingInitial]

theorem put_put (guards : Bool) (first second : List Frame) :
    (channel.put guards first).put guards second = channel.put guards (first ++ second) := by
  cases first with
  | nil => rw [put_nil, List.nil_append]
  | cons frame first =>
    cases second with
    | nil => rw [put_nil, List.append_nil]
    | cons other second =>
      cases guards with
      | false => simp [put, prependPendingInitial, send]
      | true => simp [put, prependPendingInitial]

theorem put_claude (guards : Bool) (claude : StreamState) (output : List Frame) :
    { channel.put guards output with claude := claude } = { channel with claude := claude }.put guards output := by
  cases guards <;> rfl

theorem emits (guards : Bool) (shown : List KiroEvent) :
    shown.foldl (emit outside request guards) channel =
      { channel with
        claude := (encodeAll outside request.format channel.claude (shown.map .event)).1 }.put guards
          (encodeAll outside request.format channel.claude (shown.map .event)).2 := by
  induction shown generalizing channel with
  | nil => exact (put_nil guards).symm
  | cons event rest ih =>
    have first : emit outside request guards channel event =
        { channel with claude := (encode outside request.format channel.claude (.event event)).1 }.put guards
          (encode outside request.format channel.claude (.event event)).2 := by
      unfold emit encode
      rfl
    have claude : (emit outside request guards channel event).claude =
        (encode outside request.format channel.claude (.event event)).1 := by
      rw [first]
      cases guards <;> rfl
    rw [List.foldl_cons, ih, claude, first, put_claude, put_put]
    rfl

theorem restored (checkpoint : Channel) (clear : checkpoint.guardedOutput = []) (claude : StreamState)
    (output : List Frame) :
    checkpoint.restore ({ checkpoint with claude := claude }.put true output) = checkpoint ∧
      checkpoint.restore (({ checkpoint with claude := claude }.put true output).flushInitial true) = checkpoint := by
  obtain ⟨_, _, _, _, _⟩ := checkpoint
  cases clear
  exact ⟨rfl, rfl⟩

theorem flushed (channel : Channel) (clear : channel.guardedOutput = []) (guards : Bool) (output : List Frame) :
    let done := ((channel.put guards output).flushInitial guards).flushGuarded
    done.claude = channel.claude ∧ done.pendingInitial = [] ∧ done.guardedOutput = [] ∧
      done.sent = channel.sent ++ channel.pendingInitial ++ output := by
  obtain ⟨claude, pending, guarded, started, sent⟩ := channel
  cases clear
  cases output with
  | nil =>
    rw [put_nil]
    cases guards with
    | false => simp [flushInitial, flushGuarded, send]
    | true => simp [flushInitial, flushGuarded, send]
  | cons frame rest =>
    cases guards with
    | false => simp [put, prependPendingInitial, flushInitial, flushGuarded, send]
    | true => simp [put, prependPendingInitial, flushInitial, flushGuarded, send]

theorem send_started (started : channel.dataStarted = !channel.sent.isEmpty) (output : List Frame) :
    (channel.send output).dataStarted = !(channel.send output).sent.isEmpty := by
  simp only [send, started]
  cases channel.sent <;> simp

theorem flushed_started (started : channel.dataStarted = !channel.sent.isEmpty) (guards : Bool) (output : List Frame) :
    let done := ((channel.put guards output).flushInitial guards).flushGuarded
    done.dataStarted = !done.sent.isEmpty := by
  apply send_started
  cases guards with
  | false =>
    apply send_started
    exact send_started started _
  | true => exact started

theorem put_quiet {output : List Frame} (quiet : (channel.put false output).dataStarted = false) :
    channel.dataStarted = false ∧ output = [] := by
  cases output with
  | nil => exact ⟨by rwa [put_nil] at quiet, rfl⟩
  | cons frame rest => simp [put, prependPendingInitial, send] at quiet

end Channel

/-! ### Deliveries -/

namespace Origin

def base (origin : Origin) : StreamState := (encodeAll outside request.format origin.fresh origin.initial).1

def first (origin : Origin) : List Frame := (encodeAll outside request.format origin.fresh origin.initial).2

def rest (origin : Origin) (operations : List Operation) : List Frame :=
  (encodeAll outside request.format (origin.base outside request) operations).2

end Origin

/-- The channel of an encoder that was told the operations, between two rounds. -/
structure Delivers (origin : Origin) (operations : List Operation) (completed : Bool) (channel : Channel) : Prop where
  claude : channel.claude = (encodeAll outside request.format (origin.base outside request) operations).1
  clear : channel.guardedOutput = []
  started : channel.dataStarted = !channel.sent.isEmpty
  frames : (channel.pendingInitial, channel.sent) =
    if origin.rest outside request operations = [] ∧ completed = false then (origin.first outside request, [])
    else ([], origin.first outside request ++ origin.rest outside request operations)

section Delivers

variable {outside request} {origin : Origin} {operations : List Operation} {completed : Bool} {channel : Channel}

variable (outside request) in
theorem rest_append (origin : Origin) (operations more : List Operation) :
    origin.rest outside request (operations ++ more) = origin.rest outside request operations ++
      (encodeAll outside request.format
        (encodeAll outside request.format (origin.base outside request) operations).1 more).2 := by
  unfold Origin.rest
  rw [encodeAll_append]

variable (outside request) in
theorem claude_append (origin : Origin) (operations more : List Operation) :
    (encodeAll outside request.format (origin.base outside request) (operations ++ more)).1 =
      (encodeAll outside request.format
        (encodeAll outside request.format (origin.base outside request) operations).1 more).1 := by
  rw [encodeAll_append]

theorem Delivers.shown (delivers : Delivers outside request origin operations completed channel)
    (more : List Operation) :
    Delivers outside request origin (operations ++ more) completed
      ({ channel with claude := (encodeAll outside request.format channel.claude more).1 }.put false
        (encodeAll outside request.format channel.claude more).2) := by
  obtain ⟨claude, clear, started, frames⟩ := delivers
  have appended := rest_append outside request origin operations more
  have encoder := claude_append outside request origin operations more
  rw [← claude] at appended encoder
  generalize encodeAll outside request.format channel.claude more = encoded at appended encoder ⊢
  obtain ⟨next, output⟩ := encoded
  obtain ⟨_, pending, guarded, dataStarted, sent⟩ := channel
  dsimp only at claude clear started frames appended encoder ⊢
  subst clear
  cases output with
  | nil =>
    rw [Channel.put_nil]
    refine ⟨encoder.symm, rfl, started, ?_⟩
    rw [appended, List.append_nil]
    exact frames
  | cons frame rest =>
    refine ⟨encoder.symm, rfl, Channel.send_started (by exact started) _, ?_⟩
    rw [if_neg fun waits => by simp [appended] at waits, appended]
    split at frames
    case isTrue waits =>
      cases frames
      simp [Channel.put, Channel.prependPendingInitial, Channel.send, waits.1]
    case isFalse =>
      cases frames
      simp [Channel.put, Channel.prependPendingInitial, Channel.send]

theorem Delivers.accepted (delivers : Delivers outside request origin operations completed channel)
    (guards : Bool) (more : List Operation) :
    Delivers outside request origin (operations ++ more) true
      (({ channel with claude := (encodeAll outside request.format channel.claude more).1 }.put guards
        (encodeAll outside request.format channel.claude more).2).flushInitial guards).flushGuarded := by
  obtain ⟨claude, clear, started, frames⟩ := delivers
  have appended := rest_append outside request origin operations more
  have encoder := claude_append outside request origin operations more
  rw [← claude] at appended encoder
  generalize encodeAll outside request.format channel.claude more = encoded at appended encoder ⊢
  obtain ⟨next, output⟩ := encoded
  obtain ⟨same, pending, emptied, sent⟩ :=
    Channel.flushed { channel with claude := next } clear guards output
  refine ⟨same.trans encoder.symm, emptied, Channel.flushed_started (by exact started) guards output, ?_⟩
  rw [if_neg fun waits => Bool.noConfusion waits.2, pending, sent, appended]
  split at frames
  case isTrue waits =>
    obtain ⟨waiting, none_sent⟩ := Prod.mk.inj frames
    rw [waiting, none_sent, waits.1]
    rfl
  case isFalse =>
    obtain ⟨none_waiting, all_sent⟩ := Prod.mk.inj frames
    rw [none_waiting, all_sent, List.append_nil, List.append_assoc]

theorem Delivers.performed (delivers : Delivers outside request origin operations true channel)
    (more : List Operation) :
    Delivers outside request origin (operations ++ more) true (channel.perform outside request more) := by
  obtain ⟨claude, clear, started, frames⟩ := delivers
  have appended := rest_append outside request origin operations more
  have encoder := claude_append outside request origin operations more
  rw [← claude] at appended encoder
  unfold Channel.perform
  generalize encodeAll outside request.format channel.claude more = encoded at appended encoder ⊢
  obtain ⟨next, output⟩ := encoded
  rw [if_neg fun waits => Bool.noConfusion waits.2] at frames
  obtain ⟨none_waiting, all_sent⟩ := Prod.mk.inj frames
  refine ⟨encoder.symm, clear, Channel.send_started (by exact started) output, ?_⟩
  rw [if_neg fun waits => Bool.noConfusion waits.2, appended]
  simp [Channel.send, none_waiting, all_sent]

theorem Delivers.silent (delivers : Delivers outside request origin operations completed channel)
    (quiet : channel.dataStarted = false) (untouched : (origin.base outside request).Untouched)
    (early : ∀ operation ∈ operations, operation.Early) :
    channel.sent = [] ∧ channel.claude = origin.base outside request ∧
      (completed = true → origin.first outside request = []) ∧
      ∀ operation ∈ operations, Silent outside request.format operation := by
  obtain ⟨claude, clear, started, frames⟩ := delivers
  have none_sent : channel.sent = [] := by simpa [quiet] using started
  have said : origin.rest outside request operations = [] ∧
      (completed = true → origin.first outside request = []) := by
    split at frames
    case isTrue waits => exact ⟨waits.1, fun finished => by simp [finished] at waits⟩
    case isFalse =>
      have all_sent := (Prod.mk.inj frames).2
      rw [none_sent] at all_sent
      obtain ⟨none_first, none_rest⟩ := List.append_eq_nil_iff.1 all_sent.symm
      exact ⟨none_rest, fun _ => none_first⟩
  have silent := quiet_silent untouched early said.1
  refine ⟨none_sent, ?_, said.2, silent⟩
  rw [claude, encodeAll_silent silent]

theorem Delivers.unheard (delivers : Delivers outside request origin operations completed channel)
    (untouched : (origin.base outside request).Untouched) (early : ∀ operation ∈ operations, operation.Early)
    {more : List Operation} (later : ∀ operation ∈ more, operation.Early)
    (quiet : ({ channel with claude := (encodeAll outside request.format channel.claude more).1 }.put false
      (encodeAll outside request.format channel.claude more).2).dataStarted = false) :
    { channel with claude := (encodeAll outside request.format channel.claude more).1 }.put false
      (encodeAll outside request.format channel.claude more).2 = channel ∧ channel.dataStarted = false := by
  obtain ⟨before, none_shown⟩ := Channel.put_quiet quiet
  obtain ⟨-, claude, -, -⟩ := delivers.silent before untouched early
  have silent : ∀ operation ∈ more, Silent outside request.format operation :=
    quiet_silent (by rw [claude]; exact untouched) later none_shown
  rw [encodeAll_silent silent, Channel.put_nil]
  exact ⟨rfl, before⟩

theorem Delivers.moved (delivers : Delivers outside request origin operations completed channel)
    (quiet : channel.dataStarted = false) (untouched : (origin.base outside request).Untouched)
    (early : ∀ operation ∈ operations, operation.Early) {other : Origin}
    (unannounced : origin.first outside request = [] → other.first outside request = []) :
    Delivers outside request other operations completed
      { channel with claude := other.base outside request, pendingInitial := other.first outside request } := by
  obtain ⟨none_sent, -, finished, silent⟩ := delivers.silent quiet untouched early
  have none_rest : other.rest outside request operations = [] := by
    unfold Origin.rest
    rw [encodeAll_silent silent]
  refine ⟨?_, delivers.clear, delivers.started, ?_⟩
  · rw [encodeAll_silent silent]
  · rw [none_rest, List.append_nil]
    cases completed with
    | false => rw [if_pos ⟨rfl, rfl⟩, none_sent]
    | true => rw [if_neg fun waits => Bool.noConfusion waits.2, unannounced (finished rfl), none_sent]

theorem Delivers.sent_frames (transcript : Transcript)
    (delivers : Delivers outside request origin transcript.operations transcript.completed channel)
    (unended : transcript.ending = none) (buffers : Bool) :
    channel.sent = transcript.frames outside request buffers origin := by
  have all := congrArg Prod.snd delivers.frames
  unfold Transcript.frames
  rw [unended]
  change channel.sent = if origin.rest outside request transcript.operations = [] ∧ transcript.completed = false then []
    else origin.first outside request ++ origin.rest outside request transcript.operations ++ []
  split at all
  case isTrue waits => rw [if_pos waits]; exact all
  case isFalse flows => rw [if_neg flows, List.append_nil]; exact all

theorem Delivers.closed_frames (transcript : Transcript)
    (delivers : Delivers outside request origin transcript.operations true channel)
    (finished : transcript.completed = true) {ending : StreamEnding} (ended : transcript.ending = some ending)
    (buffers : Bool) :
    (channel.send (closingFrames outside request buffers channel.claude ending)).sent =
      transcript.frames outside request buffers origin := by
  have flows := delivers.frames
  rw [if_neg fun waits => Bool.noConfusion waits.2] at flows
  have all : channel.sent = origin.first outside request ++ origin.rest outside request transcript.operations :=
    (Prod.mk.inj flows).2
  unfold Transcript.frames
  dsimp only
  rw [if_neg fun waits => by rw [finished] at waits; exact Bool.noConfusion waits.2, ended, delivers.claude]
  change channel.sent ++ _ = _
  rw [all]
  rfl

end Delivers

/-! ### Preludes -/

theorem initialOperations_preluding (tryEncrypt : Encrypt) (searches : List ClaudeToolSearchTrace)
    (webSearches : List ClaudeWebSearchTrace) :
    ∀ operation ∈ initialOperations request tryEncrypt searches webSearches, operation.Preluding := by
  intro operation member
  unfold initialOperations at member
  split at member
  · cases member
  · simp only [List.mem_append, Option.mem_toList, Option.map_eq_some_iff, List.mem_filterMap] at member
    rcases member with ⟨summary, -, rfl⟩ | ⟨event, -, found⟩
    · trivial
    · cases event with
      | toolSearch index text =>
        obtain ⟨trace, -, rfl⟩ := Option.map_eq_some_iff.1 found
        trivial
      | webSearch index text =>
        obtain ⟨trace, -, rfl⟩ := Option.map_eq_some_iff.1 found
        trivial

variable {tryEncrypt : Encrypt}

theorem initialOperations_nil {searches : List ClaudeToolSearchTrace} {webSearches : List ClaudeWebSearchTrace}
    (empty : initialOperations request tryEncrypt searches webSearches = []) (other : Encrypt) :
    initialOperations request other searches webSearches = [] := by
  unfold initialOperations at empty ⊢
  split
  · rfl
  · rename_i claude
    rw [claude] at empty
    simp only [List.append_eq_nil_iff, List.filterMap_eq_nil_iff] at empty ⊢
    refine ⟨empty.1, fun event member => ?_⟩
    have nothing := empty.2 event member
    cases event with
    | toolSearch index text => exact nothing
    | webSearch index text => exact Option.map_eq_none_iff.2 (Option.map_eq_none_iff.1 nothing)

theorem Origin.untouched {origin : Origin} {inputTokens : Nat} (begun : origin = .of request tryEncrypt inputTokens) :
    (origin.base outside request).Untouched := by
  rw [begun]
  exact preludes_untouched ⟨rfl, rfl⟩ (initialOperations_preluding _ _ _ _)

theorem Origin.announced {origin : Origin} {inputTokens : Nat} (begun : origin = .of request tryEncrypt inputTokens)
    (sealing : ∀ operation ∈ origin.initial, operation.sealed = true) (none_first : origin.first outside request = []) :
    origin.initial = [] := by
  have initial : origin.initial = initialOperations request tryEncrypt request.resumed.toolSearches
      request.resumed.webSearches := congrArg Origin.initial begun
  have preluding : ∀ operation ∈ origin.initial, operation.Preluding := by
    rw [initial]
    exact initialOperations_preluding _ _ _ _
  cases protocol : request.format.protocol with
  | openAi =>
    rw [initial, initialOperations, protocol]
  | claude =>
    cases told : origin.initial with
    | nil => rfl
    | cons operation rest =>
      exfalso
      rw [told] at sealing preluding
      unfold Origin.first at none_first
      rw [told, encodeAll] at none_first
      exact preluding_seen protocol (preluding operation List.mem_cons_self) (sealing operation List.mem_cons_self)
        (List.append_eq_nil_iff.1 none_first).1

namespace StreamLoop

theorem recover_cases (attempt : Attempt) (loop : StreamLoop) :
    (loop.recover outside request attempt).ended = true ∧
        (loop.recover outside request attempt).channel = loop.channel ∨
      loop.channel.dataStarted = false ∧ (∀ tokens, attempt.recovery ≠ .switched tokens) ∧
        (∃ tokens retries, loop.recover outside request attempt =
          { loop.again request with inputTokens := tokens, preDataRetries := retries }) ∨
      loop.channel.dataStarted = false ∧ ∃ tokens, attempt.recovery = .switched tokens ∧
        let operations := initialOperations request attempt.tryEncrypt loop.record.accumulatedSearches
          loop.record.accumulatedWebSearches
        operations.all Operation.sealed = true ∧ ∃ retries, loop.recover outside request attempt =
          { loop.again request with
            inputTokens := tokens
            preDataRetries := retries
            channel := { loop.channel with
              claude := (encodeAll outside request.format (buildState request tokens) operations).1
              pendingInitial := (encodeAll outside request.format (buildState request tokens) operations).2 } } := by
  unfold recover
  by_cases stuck : loop.channel.dataStarted ∨ attempt.retryLimit ≤ loop.preDataRetries
  · rw [if_pos stuck]
    exact .inl ⟨rfl, rfl⟩
  · rw [if_neg stuck]
    have quiet : loop.channel.dataStarted = false := by
      rw [not_or] at stuck
      exact Bool.eq_false_iff.2 stuck.1
    cases recovery : attempt.recovery with
    | failed => exact .inl ⟨rfl, rfl⟩
    | refreshed => exact .inr (.inl ⟨quiet, nofun, loop.inputTokens, loop.preDataRetries + 1, rfl⟩)
    | fellBack tokens => exact .inr (.inl ⟨quiet, nofun, tokens, loop.preDataRetries + 1, rfl⟩)
    | switched tokens =>
      dsimp only
      split
      case isTrue sealing => exact .inr (.inr ⟨quiet, tokens, rfl, sealing, loop.preDataRetries + 1, rfl⟩)
      case isFalse => exact .inl ⟨rfl, rfl⟩

theorem recover_buffers (attempt : Attempt) (loop : StreamLoop) :
    (loop.recover outside request attempt).buffers = loop.buffers := by
  unfold recover
  split
  · rfl
  · cases attempt.recovery with
    | switched tokens => dsimp only; split <;> rfl
    | _ => rfl

theorem complete_buffers (checkpoint : Channel) (attempt : Attempt) (loop : StreamLoop) :
    (loop.complete outside request checkpoint attempt).buffers = loop.buffers := by
  unfold complete
  dsimp only
  split
  · rfl
  · split
    · unfold accept
      dsimp only
      split <;> rfl
    · split <;> rfl
    · rfl

theorem step_buffers (loop : StreamLoop) (attempt : Attempt) :
    (loop.step outside request attempt).buffers = loop.buffers := by
  unfold step
  split
  · rfl
  · dsimp only
    split
    · rw [recover_buffers]
    · rw [complete_buffers]

end StreamLoop

/-! ### Rounds -/

theorem callOperations_preluding (tryEncrypt : Encrypt) (calls : List SearchCall) :
    ∀ operation ∈ callOperations request tryEncrypt calls, operation.Preluding := by
  intro operation member
  unfold callOperations at member
  split at member
  · cases member
  · obtain ⟨call, -, rfl⟩ := List.mem_map.1 member
    cases call <;> trivial

theorem Operation.Preluding.early {operation : Operation} (preluding : operation.Preluding)
    (sealing : operation.sealed = true) : operation.Early := by
  cases operation with
  | event _ => cases preluding
  | citations _ _ _ => cases preluding
  | _ => exact sealing

theorem proceed_early (record : StreamRecord) (attempt : Attempt) (outputExhausted : Bool) (decoded : DecodedResponse) :
    ∀ operation ∈ (record.proceed outside request attempt outputExhausted decoded).1, operation.Early := by
  intro operation member
  unfold StreamRecord.proceed at member
  dsimp only at member
  split at member
  case isTrue sealing =>
    exact (callOperations_preluding request _ _ operation member).early (List.all_eq_true.1 sealing operation member)
  case isFalse =>
    exact (callOperations_preluding request _ _ operation (List.takeWhile_subset _ member)).early
      (List.mem_takeWhile_imp member)

theorem proceed_another {record next : StreamRecord} {attempt : Attempt} {outputExhausted : Bool}
    {decoded rest : DecodedResponse} {operations : List Operation}
    (proceeded : record.proceed outside request attempt outputExhausted decoded = (operations, .another next rest)) :
    ∃ calls, record.conclude outside request attempt outputExhausted decoded = (calls, .another next rest) ∧
      operations = callOperations request attempt.tryEncrypt calls := by
  unfold StreamRecord.proceed at proceeded
  dsimp only at proceeded
  split at proceeded
  · obtain ⟨told, conclusion⟩ := Prod.mk.inj proceeded
    exact ⟨_, Prod.ext rfl conclusion, told.symm⟩
  · cases proceeded

section Tracks

variable {outside request} {origin : Origin} {transcript : Transcript} {loop : StreamLoop} {attempt : Attempt}

structure Tracks (outside : Outside) (request : StreamRequest) (origin : Origin) (transcript : Transcript)
    (loop : StreamLoop) : Prop where
  delivers : Delivers outside request origin transcript.operations transcript.completed loop.channel
  filter : loop.stopFilter.Like transcript.stopFilter
  decoded : loop.decoded.told = ({} : DecodedResponse).told
  record : { transcript.record with accumulatedUsage := loop.record.accumulatedUsage } = loop.record
  early : ∀ operation ∈ transcript.operations, operation.Early
  begun : ∃ tryEncrypt inputTokens, origin = .of request tryEncrypt inputTokens
  sealing : ∀ operation ∈ origin.initial, operation.sealed = true
  unended : transcript.ending = none
  resumed : loop.channel.dataStarted = false → request.format.protocol = .claude →
    loop.record.accumulatedSearches = request.resumed.toolSearches ∧
      loop.record.accumulatedWebSearches = request.resumed.webSearches

/-- The client has the frames of the kept attempts, and while the run goes on they stay together. -/
def Agrees (outside : Outside) (request : StreamRequest) (origin : Origin) (transcript : Transcript)
    (loop : StreamLoop) : Prop :=
  loop.channel.sent = transcript.frames outside request loop.buffers origin ∧
    (loop.ended = false → Tracks outside request origin transcript loop)

theorem Tracks.untouched (tracks : Tracks outside request origin transcript loop) :
    (origin.base outside request).Untouched := by
  obtain ⟨tryEncrypt, inputTokens, begun⟩ := tracks.begun
  exact Origin.untouched outside request begun

theorem Tracks.agrees (tracks : Tracks outside request origin transcript loop) :
    Agrees outside request origin transcript loop :=
  ⟨Delivers.sent_frames transcript tracks.delivers tracks.unended loop.buffers, fun _ => tracks⟩

theorem Tracks.heard (tracks : Tracks outside request origin transcript loop) (attempt : Attempt) :
    let theirs := ({ stopFilter := transcript.stopFilter } : Hearing).read outside request loop.buffers attempt
    (loop.heard outside request attempt).1.Like theirs.1 ∧ (loop.heard outside request attempt).2 = theirs.2 ∧
      (loop.heard outside request attempt).1.decoded.frame = ({} : DecodedResponse).frame := by
  have like : ({ stopFilter := loop.stopFilter, decoded := loop.decoded } : Hearing).Like
      { stopFilter := transcript.stopFilter } := ⟨tracks.filter, tracks.decoded, rfl⟩
  obtain ⟨alike, same, framed⟩ := like.read outside request loop.buffers attempt
  have empty : loop.decoded.frame = ({} : DecodedResponse).frame := by
    rw [DecodedResponse.eq_of_told tracks.decoded.symm]
    rfl
  exact ⟨alike, same, framed.trans empty⟩

theorem events_early (shown : List KiroEvent) : ∀ operation ∈ shown.map Operation.event, operation.Early := by
  intro operation member
  obtain ⟨event, -, rfl⟩ := List.mem_map.1 member
  rfl

def Channel.failed (outside : Outside) (request : StreamRequest) (guards : Bool) (shown : List KiroEvent)
    (checkpoint : Channel) : Channel :=
  let said := shown.foldl (Channel.emit outside request guards) checkpoint
  if guards then checkpoint.restore said else said

theorem Tracks.guarded (tracks : Tracks outside request origin transcript loop) (shown : List KiroEvent) :
    loop.channel.failed outside request true shown = loop.channel := by
  unfold Channel.failed
  rw [Channel.emits]
  exact (Channel.restored loop.channel tracks.delivers.clear _ _).1

variable {shown : List KiroEvent} {mine : Hearing}

theorem Tracks.taken_back (tracks : Tracks outside request origin transcript loop) {guards : Bool}
    (quiet : (loop.channel.failed outside request guards shown).dataStarted = false) :
    loop.channel.failed outside request guards shown = loop.channel := by
  cases guards with
  | true => exact tracks.guarded shown
  | false =>
    unfold Channel.failed at quiet ⊢
    rw [Channel.emits] at quiet ⊢
    exact (tracks.delivers.unheard tracks.untouched tracks.early (events_early shown) quiet).1

theorem Tracks.again (tracks : Tracks outside request origin transcript loop) {next : StreamLoop}
    (channel : next.channel = loop.channel) (filter : next.stopFilter.Like transcript.stopFilter)
    (decoded : next.decoded.told = ({} : DecodedResponse).told) {usage : UsageInfo}
    (record : next.record = { loop.record with accumulatedUsage := usage }) :
    Tracks outside request origin transcript next where
  delivers := by rw [channel]; exact tracks.delivers
  filter := filter
  decoded := decoded
  record := by rw [record, ← tracks.record]
  early := tracks.early
  begun := tracks.begun
  sealing := tracks.sealing
  unended := tracks.unended
  resumed := by rw [channel, record]; exact tracks.resumed

theorem take_failed {buffers : Bool} {taken : Taken} {hearing : Hearing} {message : String}
    (heard : ({ stopFilter := transcript.stopFilter } : Hearing).read outside request buffers taken.attempt =
      (hearing, shown, some message)) :
    transcript.take outside request buffers taken = { transcript with
      stopFilter := hearing.stopFilter
      operations := transcript.operations ++ shown.map .event } := by
  unfold Transcript.take
  dsimp only
  rw [heard]
  rfl

theorem StreamLoop.moved_failed (loop : StreamLoop) (origin : Origin) {message : String}
    (heard : (loop.heard outside request attempt).2.2 = some message) :
    loop.moved outside request attempt origin = match attempt.recovery with
      | .switched inputTokens =>
        if (loop.step outside request attempt).ended then origin else .of request attempt.tryEncrypt inputTokens
      | _ => origin := by
  unfold StreamLoop.moved
  rw [heard]
  cases attempt.recovery <;> rfl

theorem Tracks.failed (tracks : Tracks outside request origin transcript loop) (live : loop.ended = false)
    {message : String} (heard : (loop.heard outside request attempt).2.2 = some message)
    (afresh : loop.abandons outside request attempt = true → (loop.step outside request attempt).ended = false →
      loop.stopFilter.Like (.new request.config.stopSequences)) :
    Agrees outside request (loop.moved outside request attempt origin)
      (if loop.abandons outside request attempt then transcript
        else transcript.take outside request loop.buffers ⟨attempt, loop.record.accumulatedUsage⟩)
      (loop.step outside request attempt) := by
  obtain ⟨-, same, -⟩ := tracks.heard attempt
  have abandoned : loop.abandons outside request attempt =
      (attempt.round.toolResults || !(loop.step outside request attempt).ended) := by
    unfold StreamLoop.abandons
    dsimp only
    rw [heard]
    rfl
  have moved := loop.moved_failed origin heard
  generalize taken : transcript.take outside request loop.buffers ⟨attempt, loop.record.accumulatedUsage⟩ = extended
  have stepped : ∃ failed : StreamLoop, loop.step outside request attempt = failed.recover outside request attempt ∧
      failed.channel = loop.channel.failed outside request attempt.round.toolResults
        (loop.heard outside request attempt).2.1 ∧
      failed.record = loop.record ∧ failed.buffers = loop.buffers ∧ failed.ended = false := by
    unfold StreamLoop.step
    rw [if_neg (by rw [live]; exact Bool.false_ne_true)]
    dsimp only
    rw [heard]
    exact ⟨_, rfl, rfl, rfl, rfl, live⟩
  obtain ⟨failed, stepped, channel, record, buffers, unended⟩ := stepped
  rcases failed.recover_cases outside request attempt with ⟨ended, same_channel⟩ | ⟨quiet, stays, tokens, retries, retried⟩ |
    ⟨quiet, tokens, switched, sealing, retries, retried⟩
  · -- The stream ends here.
    rw [← stepped] at ended same_channel
    have stayed : loop.moved outside request attempt origin = origin := by
      rw [moved]
      cases attempt.recovery <;> simp [ended]
    rw [stayed, abandoned, ended, Bool.not_true, Bool.or_false]
    refine ⟨?_, fun unended => by rw [ended] at unended; cases unended⟩
    rw [StreamLoop.step_buffers, same_channel, channel]
    cases guards : attempt.round.toolResults with
    | true =>
      rw [tracks.guarded, if_pos rfl]
      exact tracks.agrees.1
    | false =>
      generalize theirs : ({ stopFilter := transcript.stopFilter } : Hearing).read outside request loop.buffers attempt =
        their at same
      obtain ⟨hearing, shown, failure⟩ := their
      rw [same] at heard ⊢
      obtain rfl : failure = some message := heard
      rw [← taken, take_failed theirs, if_neg Bool.false_ne_true, Channel.failed, Channel.emits]
      exact Delivers.sent_frames { transcript with
        stopFilter := hearing.stopFilter
        operations := transcript.operations ++ shown.map .event } (tracks.delivers.shown _) tracks.unended loop.buffers
  · have goes_on : (loop.step outside request attempt).ended = false := by
      rw [stepped, retried]
      exact unended
    have stayed : loop.moved outside request attempt origin = origin := by
      rw [moved]
      cases recovery : attempt.recovery with
      | switched tokens => exact absurd recovery (stays tokens)
      | _ => rfl
    rw [goes_on, Bool.not_false, Bool.or_true] at abandoned
    have filter := (afresh abandoned goes_on).turn tracks.filter
    rw [stayed, abandoned, if_pos rfl, stepped, retried]
    have back : failed.channel = loop.channel := by
      rw [channel] at quiet ⊢
      exact tracks.taken_back quiet
    apply Tracks.agrees
    exact tracks.again (by exact back) (by exact filter) rfl (by exact record)
  · have goes_on : (loop.step outside request attempt).ended = false := by
      rw [stepped, retried]
      exact unended
    rw [goes_on, Bool.not_false, Bool.or_true] at abandoned
    have filter := (afresh abandoned goes_on).turn tracks.filter
    have away : loop.moved outside request attempt origin = .of request attempt.tryEncrypt tokens := by
      rw [moved, switched, goes_on]
      rfl
    rw [away, abandoned, if_pos rfl, stepped, retried]
    have back : failed.channel = loop.channel := by
      rw [channel] at quiet ⊢
      exact tracks.taken_back quiet
    rw [back] at quiet
    have prelude : initialOperations request attempt.tryEncrypt failed.record.accumulatedSearches
        failed.record.accumulatedWebSearches =
        initialOperations request attempt.tryEncrypt request.resumed.toolSearches request.resumed.webSearches := by
      rw [record]
      cases protocol : request.format.protocol with
      | openAi => simp [initialOperations, protocol]
      | claude =>
        obtain ⟨searches, webSearches⟩ := tracks.resumed quiet protocol
        rw [searches, webSearches]
    rw [prelude] at sealing ⊢
    have unannounced : origin.first outside request = [] →
        (Origin.of request attempt.tryEncrypt tokens).first outside request = [] := by
      intro none_first
      obtain ⟨tryEncrypt, inputTokens, begun⟩ := tracks.begun
      have empty := Origin.announced outside request begun tracks.sealing none_first
      rw [begun] at empty
      unfold Origin.first
      rw [show (Origin.of request attempt.tryEncrypt tokens).initial = [] from initialOperations_nil request empty _]
      rfl
    apply Tracks.agrees
    exact {
      delivers := by
        rw [back]
        exact tracks.delivers.moved quiet tracks.untouched tracks.early unannounced
      filter := filter
      decoded := rfl
      record := by
        change { transcript.record with accumulatedUsage := failed.record.accumulatedUsage } = failed.record
        rw [record]
        exact tracks.record
      early := tracks.early
      begun := ⟨_, _, rfl⟩
      sealing := List.all_eq_true.1 sealing
      unended := tracks.unended
      resumed := by
        intro _ protocol
        change failed.record.accumulatedSearches = _ ∧ failed.record.accumulatedWebSearches = _
        rw [record]
        exact tracks.resumed quiet protocol }

theorem Tracks.stopped (tracks : Tracks outside request origin transcript loop) (live : loop.ended = false)
    {theirs : Hearing} (heard : loop.heard outside request attempt = (mine, shown, none))
    (followed : ({ stopFilter := transcript.stopFilter } : Hearing).read outside request loop.buffers attempt =
      (theirs, shown, none)) (like : mine.Like theirs) (matched : mine.stopFilter.matched.isSome = true) :
    Agrees outside request origin
      (transcript.take outside request loop.buffers ⟨attempt, loop.record.accumulatedUsage⟩)
      (loop.step outside request attempt) := by
  have matched_too : theirs.stopFilter.matched.isSome = true := by rw [← like.filter.matched]; exact matched
  have told := DecodedResponse.fill_told outside attempt.round.tokenizer like.told
  have accepted := tracks.delivers.accepted attempt.round.toolResults (shown.map .event)
  rw [← Channel.emits] at accepted
  unfold StreamLoop.step
  rw [if_neg (by rw [live]; exact Bool.false_ne_true)]
  dsimp only
  rw [heard]
  unfold StreamLoop.complete Transcript.take
  dsimp only
  rw [followed]
  dsimp only [Option.isSome_none]
  rw [if_neg Bool.false_ne_true, if_pos matched, if_neg Bool.false_ne_true, if_pos matched_too]
  refine ⟨?_, nofun⟩
  unfold StreamLoop.finish
  dsimp only
  rw [closing_alike like.filter told, tracks.record]
  exact Delivers.closed_frames _ accepted rfl rfl loop.buffers

theorem exhausted_told {decoded other : DecodedResponse} (same : decoded.told = other.told) (record : StreamRecord) :
    StreamLoop.outputExhausted request record decoded = StreamLoop.outputExhausted request record other := by
  rw [DecodedResponse.eq_of_told same]
  rfl

theorem Tracks.searchless (tracks : Tracks outside request origin transcript loop) {calls : List SearchCall}
    {channel : Channel} {more : List Operation}
    (delivers : Delivers outside request origin (transcript.operations ++ more ++ callOperations request tryEncrypt calls)
      true channel)
    (early : ∀ operation ∈ transcript.operations ++ more ++ callOperations request tryEncrypt calls, operation.Early)
    (quiet : channel.dataStarted = false) (claude : request.format.protocol = .claude) :
    calls = [] ∧ loop.channel.dataStarted = false := by
  obtain ⟨-, -, none_first, silent⟩ := delivers.silent quiet tracks.untouched early
  constructor
  · cases calls with
    | nil => rfl
    | cons call rest =>
      exfalso
      have told : ∃ operation ∈ callOperations request tryEncrypt (call :: rest), True := by
        unfold callOperations
        rw [claude]
        exact ⟨_, List.mem_cons_self, trivial⟩
      obtain ⟨operation, member, -⟩ := told
      have preluding := callOperations_preluding request _ _ operation member
      have everywhere := List.mem_append_right (transcript.operations ++ more) member
      have sealing : operation.sealed = true := by
        have timely := early operation everywhere
        cases operation with
        | event _ => cases preluding
        | citations _ _ _ => cases preluding
        | _ => exact timely
      exact preluding_seen claude preluding sealing
        (congrArg Prod.snd (silent operation everywhere (origin.base outside request)))
  · have none_rest : origin.rest outside request transcript.operations = [] := by
      unfold Origin.rest
      rw [encodeAll_silent fun operation member =>
        silent operation (List.mem_append_left _ (List.mem_append_left _ member))]
    have none_sent : loop.channel.sent = [] := by
      have frames := congrArg Prod.snd tracks.delivers.frames
      split at frames
      · exact frames
      · rw [none_rest, none_first rfl] at frames
        exact frames
    rw [tracks.delivers.started, none_sent]
    rfl

theorem Tracks.accepted (tracks : Tracks outside request origin transcript loop) (live : loop.ended = false)
    {theirs : Hearing} (heard : loop.heard outside request attempt = (mine, shown, none))
    (followed : ({ stopFilter := transcript.stopFilter } : Hearing).read outside request loop.buffers attempt =
      (theirs, shown, none)) (like : mine.Like theirs) (framed : mine.decoded.frame = ({} : DecodedResponse).frame)
    (unmatched : mine.stopFilter.matched.isSome = false) (said : emptyToolResultDisposition attempt.round.toolResults
      (fillMissingUsage outside attempt.round.tokenizer mine.decoded)
      (StreamLoop.outputExhausted request loop.record (fillMissingUsage outside attempt.round.tokenizer mine.decoded))
      loop.emptyToolResultRetries = .accept) :
    Agrees outside request origin
      (transcript.take outside request loop.buffers ⟨attempt, loop.record.accumulatedUsage⟩)
      (loop.step outside request attempt) := by
  have unmatched_too : theirs.stopFilter.matched.isSome = false := by rw [← like.filter.matched]; exact unmatched
  have told := DecodedResponse.fill_told outside attempt.round.tokenizer like.told
  have filled : (fillMissingUsage outside attempt.round.tokenizer mine.decoded).frame = ({} : DecodedResponse).frame := framed
  have delivered := tracks.delivers.accepted attempt.round.toolResults (shown.map .event)
  rw [← Channel.emits] at delivered
  unfold StreamLoop.step
  rw [if_neg (by rw [live]; exact Bool.false_ne_true)]
  dsimp only
  rw [heard]
  unfold StreamLoop.complete Transcript.take
  dsimp only
  rw [followed]
  simp only [Option.isSome_none, unmatched, unmatched_too, Bool.false_eq_true, if_false]
  rw [said, tracks.record, ← exhausted_told told]
  generalize fillMissingUsage outside attempt.round.tokenizer mine.decoded = decoded at told filled
  generalize fillMissingUsage outside attempt.round.tokenizer theirs.decoded = other at told
  generalize StreamLoop.outputExhausted request loop.record decoded = exhausted
  have early := proceed_early outside request loop.record attempt exhausted decoded
  obtain ⟨same, alike⟩ := proceed_alike outside request told loop.record attempt exhausted
  unfold StreamLoop.accept
  dsimp only
  rw [← same]
  have performed := delivered.performed (loop.record.proceed outside request attempt exhausted decoded).1
  generalize proceeded : loop.record.proceed outside request attempt exhausted decoded = mine_next at *
  generalize loop.record.proceed outside request attempt exhausted other = their_next at *
  obtain ⟨operations, conclusion⟩ := mine_next
  obtain ⟨_, their_conclusion⟩ := their_next
  dsimp only at same alike performed early ⊢
  cases alike with
  | fails =>
    refine ⟨?_, nofun⟩
    dsimp only [StreamLoop.fail]
    exact Delivers.sent_frames { transcript with
      stopFilter := theirs.stopFilter
      operations := transcript.operations ++ shown.map .event ++ operations
      completed := true } performed tracks.unended loop.buffers
  | ends ended =>
    refine ⟨?_, nofun⟩
    unfold StreamLoop.finish
    dsimp only
    rw [closing_alike like.filter ended]
    exact Delivers.closed_frames _ performed rfl rfl loop.buffers
  | another rest_told =>
    rename_i next rest _
    obtain ⟨calls, concluded, rfl⟩ := proceed_another outside request proceeded
    obtain ⟨empty, searches, webSearches⟩ := conclude_another filled concluded
    have timely : ∀ operation ∈ transcript.operations ++ shown.map .event ++
        callOperations request attempt.tryEncrypt calls, operation.Early := by
      intro operation member
      rcases List.mem_append.1 member with member | member
      · rcases List.mem_append.1 member with member | member
        · exact tracks.early operation member
        · exact events_early shown operation member
      · exact early operation member
    apply Tracks.agrees
    exact {
      delivers := performed
      filter := like.filter
      decoded := empty
      record := rfl
      early := timely
      begun := tracks.begun
      sealing := tracks.sealing
      unended := tracks.unended
      resumed := by
        intro quiet claude
        obtain ⟨rfl, before⟩ := tracks.searchless performed timely quiet claude
        obtain ⟨resumed, resumed_web⟩ := tracks.resumed before claude
        refine ⟨searches.trans ?_, webSearches.trans ?_⟩
        · rw [← resumed]
          exact List.append_nil _
        · rw [← resumed_web]
          exact List.append_nil _ }

theorem Tracks.hollow (tracks : Tracks outside request origin transcript loop) (live : loop.ended = false)
    (heard : loop.heard outside request attempt = (mine, shown, none))
    (unmatched : mine.stopFilter.matched.isSome = false)
    (unsaid : emptyToolResultDisposition attempt.round.toolResults
      (fillMissingUsage outside attempt.round.tokenizer mine.decoded)
      (StreamLoop.outputExhausted request loop.record (fillMissingUsage outside attempt.round.tokenizer mine.decoded))
      loop.emptyToolResultRetries ≠ .accept) (afresh : (loop.step outside request attempt).ended = false →
      loop.stopFilter.Like (.new request.config.stopSequences)) :
    Agrees outside request origin transcript (loop.step outside request attempt) := by
  have guards : attempt.round.toolResults = true := by
    by_contra unguarded
    apply unsaid
    unfold emptyToolResultDisposition
    rw [if_neg fun hollow => unguarded hollow.1]
  unfold StreamLoop.step at afresh ⊢
  rw [if_neg (by rw [live]; exact Bool.false_ne_true)] at afresh ⊢
  dsimp only at afresh ⊢
  rw [heard] at afresh ⊢
  unfold StreamLoop.complete at afresh ⊢
  simp only [Option.isSome_none, unmatched, Bool.false_eq_true, if_false, guards] at afresh unsaid ⊢
  rw [Channel.emits] at afresh ⊢
  have back := (Channel.restored loop.channel tracks.delivers.clear
    (encodeAll outside request.format loop.channel.claude (shown.map .event)).1
    (encodeAll outside request.format loop.channel.claude (shown.map .event)).2).2
  generalize emptyToolResultDisposition _ _ _ _ = disposition at unsaid afresh ⊢
  cases disposition with
  | accept => exact absurd rfl unsaid
  | retry =>
    dsimp only at afresh ⊢
    rw [back] at afresh ⊢
    by_cases continues : attempt.round.continues = true
    · rw [if_pos continues] at afresh ⊢
      have filter := (afresh live).turn tracks.filter
      apply Tracks.agrees
      exact tracks.again rfl (by exact filter) rfl rfl
    · rw [if_neg continues]
      exact ⟨tracks.agrees.1, nofun⟩
  | fail =>
    dsimp only
    rw [back]
    exact ⟨tracks.agrees.1, nofun⟩

theorem Tracks.step (tracks : Tracks outside request origin transcript loop) (live : loop.ended = false)
    (afresh : loop.abandons outside request attempt = true → (loop.step outside request attempt).ended = false →
      loop.stopFilter.Like (.new request.config.stopSequences)) :
    Agrees outside request (loop.moved outside request attempt origin)
      (if loop.abandons outside request attempt then transcript
        else transcript.take outside request loop.buffers ⟨attempt, loop.record.accumulatedUsage⟩)
      (loop.step outside request attempt) := by
  obtain ⟨like, same, framed⟩ := tracks.heard attempt
  cases heard : (loop.heard outside request attempt).2.2 with
  | some message => exact tracks.failed live heard afresh
  | none =>
    have stayed : loop.moved outside request attempt origin = origin := by
      unfold StreamLoop.moved
      rw [heard]
    have abandoned : loop.abandons outside request attempt =
        ((loop.heard outside request attempt).1.stopFilter.matched.isNone &&
          emptyToolResultDisposition attempt.round.toolResults
            (fillMissingUsage outside attempt.round.tokenizer (loop.heard outside request attempt).1.decoded)
            (StreamLoop.outputExhausted request loop.record
              (fillMissingUsage outside attempt.round.tokenizer (loop.heard outside request attempt).1.decoded))
            loop.emptyToolResultRetries ≠ .accept) := by
      unfold StreamLoop.abandons
      dsimp only
      rw [heard]
      rfl
    rw [stayed]
    generalize mine : loop.heard outside request attempt = said at like same framed heard abandoned
    generalize theirs : ({ stopFilter := transcript.stopFilter } : Hearing).read outside request loop.buffers attempt =
      followed at like same
    obtain ⟨hearing, shown, failure⟩ := said
    obtain ⟨other, _, _⟩ := followed
    obtain ⟨rfl, rfl⟩ := Prod.mk.inj same
    cases heard
    dsimp only at abandoned like framed
    cases matched : hearing.stopFilter.matched with
    | some sequence =>
      rw [abandoned, matched]
      exact tracks.stopped live mine theirs like (by rw [matched]; rfl)
    | none =>
      have unmatched : hearing.stopFilter.matched.isSome = false := by rw [matched]; rfl
      rw [matched, Option.isNone_none, Bool.true_and] at abandoned
      by_cases said : emptyToolResultDisposition attempt.round.toolResults
          (fillMissingUsage outside attempt.round.tokenizer hearing.decoded)
          (StreamLoop.outputExhausted request loop.record
            (fillMissingUsage outside attempt.round.tokenizer hearing.decoded))
          loop.emptyToolResultRetries = .accept
      · rw [abandoned, said]
        exact tracks.accepted live mine theirs like framed unmatched said
      · have given_up : loop.abandons outside request attempt = true := abandoned.trans (decide_eq_true said)
        rw [given_up, if_pos rfl]
        exact tracks.hollow live mine unmatched said (afresh given_up)

theorem ended_step (origin : Origin) (ended : loop.ended = true) (attempts : List Attempt) :
    attempts.foldl (StreamLoop.step outside request) loop = loop ∧ loop.kept outside request attempts = [] ∧
      loop.origin outside request origin attempts = origin := by
  induction attempts with
  | nil => exact ⟨rfl, rfl, rfl⟩
  | cons attempt rest ih =>
    have stays : loop.step outside request attempt = loop := by
      unfold StreamLoop.step
      rw [if_pos ended]
    have stayed : loop.moved outside request attempt origin = origin := by
      unfold StreamLoop.moved
      rw [stays, ended]
      split <;> rfl
    obtain ⟨run, kept, began⟩ := ih
    refine ⟨by rw [List.foldl_cons, stays, run], ?_, ?_⟩
    · rw [StreamLoop.kept, stays, kept, if_pos (.inl ended)]
      rfl
    · rw [StreamLoop.origin, stays, stayed, began]

theorem Agrees.run (agrees : Agrees outside request origin transcript loop) {attempts : List Attempt}
    (afresh : loop.RetriesAfresh outside request attempts) :
    (attempts.foldl (StreamLoop.step outside request) loop).channel.sent =
      ((loop.kept outside request attempts).foldl (Transcript.take outside request loop.buffers) transcript).frames outside
        request loop.buffers (loop.origin outside request origin attempts) := by
  induction attempts generalizing loop origin transcript with
  | nil => exact agrees.1
  | cons attempt rest ih =>
    cases live : loop.ended with
    | true =>
      obtain ⟨run, kept, began⟩ := ended_step origin live (attempt :: rest)
      rw [run, kept, began]
      exact agrees.1
    | false =>
      have next := (agrees.2 live).step live (afresh.1 live)
      have later := ih next afresh.2
      rw [StreamLoop.step_buffers] at later
      rw [List.foldl_cons, later, StreamLoop.kept, StreamLoop.origin, List.foldl_append]
      cases loop.abandons outside request attempt with
      | true => simp
      | false => simp [live]

end Tracks

theorem start_agrees (tryEncrypt : Encrypt) :
    Agrees outside request (.of request tryEncrypt request.context.inputTokens) (.new request)
      (.start outside request tryEncrypt) := by
  constructor
  · unfold Transcript.frames
    dsimp only
    rw [if_pos ⟨rfl, rfl⟩]
    rfl
  · intro live
    have sealing : (initialOperations request tryEncrypt request.resumed.toolSearches
        request.resumed.webSearches).all Operation.sealed = true := by
      simpa [StreamLoop.start] using live
    exact {
      delivers := ⟨rfl, rfl, rfl, rfl⟩
      filter := .inl rfl
      decoded := rfl
      record := rfl
      early := fun _ member => absurd member List.not_mem_nil
      begun := ⟨_, _, rfl⟩
      sealing := List.all_eq_true.1 sealing
      unended := rfl
      resumed := fun _ _ => ⟨rfl, rfl⟩ }

/-- The client has what an encoder makes of the prelude and the attempts that were not given up, while no
stop filter with anything to lose is given up with an attempt. -/
theorem abandoned_unseen (tryEncrypt : Encrypt) (attempts : List Attempt)
    (afresh : (StreamLoop.start outside request tryEncrypt).RetriesAfresh outside request attempts) :
    let loop := StreamLoop.start outside request tryEncrypt
    (attempts.foldl (StreamLoop.step outside request) loop).channel.sent =
      ((loop.kept outside request attempts).foldl (Transcript.take outside request loop.buffers) (.new request)).frames
        outside request loop.buffers
        (loop.origin outside request (.of request tryEncrypt request.context.inputTokens) attempts) :=
  (start_agrees outside request tryEncrypt).run afresh

end Transcript

section Runs

/-- A client of the Claude protocol with a stop sequence and a compacted history. -/
def heldBackRequest : StreamRequest where
  context := { requestId := "msg", model := "claude", inputTokens := 1 }
  format := ⟨.claude, 0, "claude", .claude, []⟩
  config := {
    toolSearch := some [("tool_search", "tool_search_tool_bm25")]
    toolSearchMaxRounds := 3
    maxToolSearchOperations := 3
    stopSequences := ["END"] }
  compactionSummary := some "summary"

def heldBackOutside : Outside := ⟨fun _ => some (.object []), fun usage _ => usage⟩

def answered (events : List KiroEvent) (toolResults : Bool) : Attempt where
  round := {
    events := events
    toolResults := toolResults
    tokenizer := ⟨some 5, fun _ => some 5⟩
    toolSearch _ := .error "unavailable"
    webSearch _ := .ok []
    serverId _ := "srvtoolu"
    continues := true }
  tryEncrypt _ := some ""

def shownTexts (frames : List Frame) : List String :=
  frames.filterMap fun
    | .claude (.messageStart _) => some "start"
    | .claude (.contentBlock (.delta _ delta)) => delta.getStr "text"
    | _ => none

def movedAttempts : List Attempt :=
  [{ answered [.reasoning "" none none] false with
      failure := some "connection reset", retryLimit := 1, recovery := .switched 2 },
    answered [.assistantResponse "hello"] false]

theorem abandoned_unseen_moved :
    let loop := StreamLoop.start heldBackOutside heldBackRequest fun _ => none
    let sent := (movedAttempts.foldl (StreamLoop.step heldBackOutside heldBackRequest) loop).channel.sent
    shownTexts sent = ["start", "hello"] ∧
      (loop.kept heldBackOutside heldBackRequest movedAttempts).length = 1 ∧
      sent = ((loop.kept heldBackOutside heldBackRequest movedAttempts).foldl
        (Transcript.take heldBackOutside heldBackRequest loop.buffers) (.new heldBackRequest)).frames
          heldBackOutside heldBackRequest loop.buffers
          (loop.origin heldBackOutside heldBackRequest (.of heldBackRequest (fun _ => none) 1) movedAttempts) := by
  refine ⟨by decide, by decide, ?_⟩
  apply abandoned_unseen
  refine ⟨fun _ _ _ => .inl rfl, fun _ given_up _ => ?_, trivial⟩
  exact absurd given_up (by decide)

/-- A search is made, and the text after it may begin the stop sequence; the first answer to the search is hollow. -/
def heldBackAttempts : List Attempt :=
  [answered [.toolUse "t" "tool_search" "" true, .assistantResponse "E"] false, answered [] true,
    answered [.assistantResponse "hello"] true]

theorem abandoned_seen :
    ¬ ∀ (outside : Outside) (request : StreamRequest) (tryEncrypt : Encrypt) (attempts : List Attempt),
      let loop := StreamLoop.start outside request tryEncrypt
      (attempts.foldl (StreamLoop.step outside request) loop).channel.sent =
        ((loop.kept outside request attempts).foldl (Transcript.take outside request loop.buffers) (.new request)).frames
          outside request loop.buffers
          (loop.origin outside request (.of request tryEncrypt request.context.inputTokens) attempts) := by
  intro unseen
  have texts := congrArg shownTexts (unseen heldBackOutside heldBackRequest (fun _ => none) heldBackAttempts)
  -- The loop shows "hello", and the two attempts that were kept say "Ehello".
  exact absurd texts (by decide)

end Runs
end KiroProxy.Http

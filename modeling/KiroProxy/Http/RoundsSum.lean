import KiroProxy.Http.Rounds
import KiroProxy.Lib.Bytes

/-! What the response of several rounds holds of each of them. -/
namespace KiroProxy.Http

open Kiro

structure Carried where
  signature : Option String := none
  redacted : String := ""
  citations : List KiroCitation := []

def joinOptional : Option String → Option String → Option String
  | none, later => later
  | earlier, none => earlier
  | some earlier, some later => some (earlier ++ later)

namespace Carried

def append (earlier later : Carried) : Carried where
  signature := joinOptional earlier.signature later.signature
  redacted := earlier.redacted ++ later.redacted
  citations := earlier.citations ++ later.citations

theorem append_empty (carried : Carried) : carried.append {} = carried := by
  cases carried with
  | mk signature redacted citations => cases signature <;> simp [append, joinOptional]

theorem empty_append (carried : Carried) : Carried.append {} carried = carried := by
  simp [append, joinOptional]

theorem append_assoc (a b c : Carried) : (a.append b).append c = a.append (b.append c) := by
  simp only [append, String.append_assoc, List.append_assoc, mk.injEq, and_true]
  rcases a.signature with _ | x <;> rcases b.signature with _ | y <;> rcases c.signature with _ | z <;>
    simp [joinOptional, String.append_assoc]

def isEmpty (carried : Carried) : Bool :=
  carried.signature.isNone && carried.redacted = "" && carried.citations.isEmpty

theorem eq_empty {carried : Carried} (empty : carried.isEmpty = true) : carried = {} := by
  simp only [isEmpty, Bool.and_eq_true, Option.isNone_iff_eq_none, decide_eq_true_eq, List.isEmpty_iff] at empty
  obtain ⟨⟨signature, redacted⟩, citations⟩ := empty
  cases carried
  simp_all

end Carried

namespace DecodedResponse

def carried (decoded : DecodedResponse) : Carried :=
  ⟨decoded.reasoningSignature, decoded.redactedThinking, decoded.citations⟩

/-- The record that a round leaves when earlier rounds have left something in it. -/
def carrying (decoded : DecodedResponse) (earlier : Carried) : DecodedResponse := { decoded with
  reasoningSignature := joinOptional earlier.signature decoded.reasoningSignature
  redactedThinking := earlier.redacted ++ decoded.redactedThinking
  citations := earlier.citations ++ decoded.citations }

@[simp] theorem carried_carrying (decoded : DecodedResponse) (earlier : Carried) :
    (decoded.carrying earlier).carried = earlier.append decoded.carried := rfl

theorem push_carrying (outside : Outside) (decoded : DecodedResponse) (earlier : Carried) (event : KiroEvent) :
    (decoded.carrying earlier).push outside event = (decoded.push outside event).map (·.carrying earlier) := by
  cases event with
  | reasoning content signature redactedContent =>
    rcases signature with _ | signature
    · simp [push, carrying, Except.map, String.append_assoc]
    · rcases earlierSignature : earlier.signature with _ | x <;>
        rcases ownSignature : decoded.reasoningSignature with _ | y <;>
        simp [push, carrying, Except.map, String.append_assoc, joinOptional, earlierSignature, ownSignature]
  | citations citations => simp [push, carrying, Except.map]
  | toolUse id name inputDelta stop =>
    have same : (decoded.carrying earlier).toolBytes = decoded.toolBytes := rfl
    simp only [push, same]
    by_cases full : decoded.toolBytes + inputDelta.utf8ByteSize > maxCumulativeToolInputBytes
    · simp only [if_pos full, Except.map]
    · simp only [if_neg full, Except.map, carrying]
  | _ => rfl

end DecodedResponse

def Collecting.carrying (c : Collecting) (earlier : Carried) : Collecting :=
  { c with decoded := c.decoded.carrying earlier }

theorem pushNonstreamEvent_carrying (outside : Outside) (c : Collecting) (earlier : Carried) (event : KiroEvent) :
    pushNonstreamEvent outside (c.carrying earlier) event =
      (pushNonstreamEvent outside c event).map fun (c, stopped) => (c.carrying earlier, stopped) := by
  simp only [pushNonstreamEvent, Collecting.carrying, DecodedResponse.push_carrying]
  cases c.decoded.push outside event with
  | error message => rfl
  | ok decoded =>
    simp only [Except.map, bind, Except.bind]
    split <;> rfl

theorem collectEvents_carrying (outside : Outside) (c : Collecting) (earlier : Carried) (events : List KiroEvent) :
    collectEvents outside (c.carrying earlier) events =
      (collectEvents outside c events).map (·.carrying earlier) := by
  induction events generalizing c with
  | nil => rfl
  | cons event rest ih =>
    simp only [collectEvents, pushNonstreamEvent_carrying]
    cases pushNonstreamEvent outside c event with
    | error message => rfl
    | ok result =>
      obtain ⟨next, stopped⟩ := result
      cases stopped with
      | true => rfl
      | false => exact ih next

theorem finalizeToolInputs_carrying (outside : Outside) (decoded : DecodedResponse) (earlier : Carried) :
    (decoded.carrying earlier).finalizeToolInputs outside =
      (decoded.finalizeToolInputs outside).map (·.carrying earlier) := by
  simp only [DecodedResponse.finalizeToolInputs, DecodedResponse.carrying]
  split <;> rfl

theorem decodeRound_carrying (outside : Outside) (config : RoundsConfig) (decoded : DecodedResponse) (earlier : Carried)
    (round : Round) : decodeRound outside config (decoded.carrying earlier) round =
      (decodeRound outside config decoded round).map (·.carrying earlier) := by
  have start : (⟨decoded.carrying earlier, .new config.stopSequences, ""⟩ : Collecting) =
      Collecting.carrying ⟨decoded, .new config.stopSequences, ""⟩ earlier := rfl
  simp only [decodeRound, start, collectEvents_carrying]
  cases collectEvents outside ⟨decoded, .new config.stopSequences, ""⟩ round.events with
  | error message => rfl
  | ok collected =>
    simp only [Except.map, bind, Except.bind, Collecting.carrying, finalizeToolInputs_carrying]
    have same : (collected.decoded.carrying earlier).stopSequence = collected.decoded.stopSequence := rfl
    rw [same]
    by_cases unmatched : collected.decoded.stopSequence = none
    · simp only [if_pos unmatched]
      cases collected.decoded.finalizeToolInputs outside with
      | error message => rfl
      | ok decoded => rfl
    · simp only [if_neg unmatched]
      rfl

def Round.own (outside : Outside) (config : RoundsConfig) (round : Round) : DecodedResponse :=
  match decodeRound outside config {} round with
  | .ok decoded => decoded
  | .error _ => {}

def SearchCall.toolUse : SearchCall → KiroToolUse
  | tool use _ => use
  | web use _ => use

@[simp] theorem toolUse_tool (use : KiroToolUse) (trace : ClaudeToolSearchTrace) :
    (SearchCall.tool use trace).toolUse = use := rfl

@[simp] theorem toolUse_web (use : KiroToolUse) (trace : ClaudeWebSearchTrace) :
    (SearchCall.web use trace).toolUse = use := rfl

def SearchCall.toolTrace : SearchCall → Option ClaudeToolSearchTrace
  | tool _ trace => some trace
  | web _ _ => none

def SearchCall.webTrace : SearchCall → Option ClaudeWebSearchTrace
  | tool _ _ => none
  | web _ trace => some trace

def searchUses (outside : Outside) (config : RoundsConfig) (own : DecodedResponse) : List KiroToolUse :=
  let catalog := config.toolSearch.getD []
  let (rest, toolUses) := own.takeToolUsesWhere outside fun tool => catalog.isSearchTool tool.name
  toolUses ++ (if config.webSearchMaxRounds > 0 then
    (rest.takeToolUsesWhere outside fun tool => tool.name = "web_search").2 else [])

/-- What has been gathered of the rounds so far, in the loop or in the response. -/
structure Tally where
  text : String
  reasoning : String
  searches : List ClaudeToolSearchTrace
  webSearches : List ClaudeWebSearchTrace
  serverEvents : List ClaudeServerEvent
  usage : UsageInfo

def Rounds.tally (s : Rounds) : Tally :=
  ⟨s.accumulatedText, s.accumulatedReasoning, s.accumulatedSearches, s.accumulatedWebSearches,
    s.accumulatedServerEvents, s.accumulatedUsage⟩

def DecodedResponse.tally (decoded : DecodedResponse) : Tally :=
  ⟨decoded.text, decoded.reasoning, decoded.toolSearches, decoded.webSearches, decoded.claudeServerEvents,
    decoded.usage⟩

def pointers (tools webs : Nat) (precedingText : String) : List SearchCall → List ClaudeServerEvent
  | [] => []
  | .tool _ _ :: rest => .toolSearch tools precedingText :: pointers (tools + 1) webs "" rest
  | .web _ _ :: rest => .webSearch webs precedingText :: pointers tools (webs + 1) "" rest

/-- A round is added: its text waits for more, or stands before the first of its searches. -/
def Tally.add (tally : Tally) (own : DecodedResponse) (calls : List SearchCall) : Tally where
  text := if calls.isEmpty then tally.text ++ own.text else ""
  reasoning := tally.reasoning ++ own.reasoning
  searches := tally.searches ++ calls.filterMap (·.toolTrace)
  webSearches := tally.webSearches ++ calls.filterMap (·.webTrace)
  serverEvents := tally.serverEvents ++
    pointers tally.searches.length tally.webSearches.length (tally.text ++ own.text) calls
  usage := mergeRoundUsage tally.usage own.usage

def Tally.discard (tally : Tally) (own : DecodedResponse) : Tally :=
  { tally with usage := mergeRoundUsage tally.usage own.usage }

theorem record_eq (s : Rounds) (precedingText : String) (calls : List SearchCall) :
    s.record precedingText calls = { s with
      accumulatedSearches := s.accumulatedSearches ++ calls.filterMap (·.toolTrace)
      accumulatedWebSearches := s.accumulatedWebSearches ++ calls.filterMap (·.webTrace)
      accumulatedServerEvents := s.accumulatedServerEvents ++
        pointers s.accumulatedSearches.length s.accumulatedWebSearches.length precedingText calls } := by
  induction calls generalizing s precedingText with
  | nil => simp [Rounds.record, pointers]
  | cons call rest ih =>
    cases call <;> simp [Rounds.record, ih, pointers, SearchCall.toolTrace, SearchCall.webTrace]

theorem mergeRoundUsage_comm (a b : UsageInfo) : mergeRoundUsage a b = mergeRoundUsage b a := by
  simp only [mergeRoundUsage, saturatingAdd, Nat.add_comm, Rat.add_comm]

def Rounds.Blank (s : Rounds) : Prop := s.decoded = DecodedResponse.carrying {} s.decoded.carried

theorem pendingCalls_uses (catalog : ClaudeToolSearchCatalog) (round : Round) (toolUses webUses : List KiroToolUse) :
    (pendingCalls catalog round toolUses webUses).map (·.toolUse) = toolUses ++ webUses := by
  simp [pendingCalls, Function.comp_def, List.mapIdx_eq_zipIdx_map]

theorem runToolSearches_uses (config : RoundsConfig) (catalog : ClaudeToolSearchCatalog) (round : Round)
    (operations i : Nat) (uses : List KiroToolUse) :
    (runToolSearches config catalog round operations i uses).1.map (·.toolUse) = uses := by
  induction uses generalizing operations i with
  | nil => rfl
  | cons use rest ih => simp [runToolSearches, ih]

theorem runWebSearches_uses (config : RoundsConfig) (round : Round) (limitMessage : String) (searches i : Nat)
    (uses : List KiroToolUse) :
    (runWebSearches config round limitMessage searches i uses).1.map (·.toolUse) = uses := by
  induction uses generalizing searches i with
  | nil => rfl
  | cons use rest ih => simp [runWebSearches, ih]

def Rounds.textTaken (s : Rounds) : Rounds :=
  { s with accumulatedText := "", decoded := { s.decoded with text := "" } }

theorem stopFor_tally (decoded : DecodedResponse) (reason : Option String) :
    (stopFor decoded reason).tally = decoded.tally ∧ (stopFor decoded reason).carried = decoded.carried := by
  unfold stopFor
  split <;> exact ⟨rfl, rfl⟩

variable {s : Rounds} {calls : List SearchCall} {decoded next own : DecodedResponse} {outside : Outside}
  {event : KiroEvent} {c : Collecting} {config : RoundsConfig} {rounds : List Round}

theorem deliver_tally (filled : calls ≠ []) (reason : Option String) :
    (stopFor (s.textTaken.record (s.accumulatedText ++ s.decoded.text) calls).deliver reason).tally =
        s.tally.add s.decoded calls ∧
      (stopFor (s.textTaken.record (s.accumulatedText ++ s.decoded.text) calls).deliver reason).carried =
        s.decoded.carried := by
  rw [(stopFor_tally _ _).1, (stopFor_tally _ _).2, record_eq]
  refine ⟨?_, rfl⟩
  simp [DecodedResponse.tally, Rounds.deliver, Rounds.textTaken, Tally.add, Rounds.tally, filled,
    mergeRoundUsage_comm s.decoded.usage]

theorem afterSearch_tally (filled : calls ≠ []) :
    (s.textTaken.record (s.accumulatedText ++ s.decoded.text) calls).afterSearch.tally = s.tally.add s.decoded calls := by
  rw [record_eq]
  simp [Rounds.afterSearch, Rounds.textTaken, Tally.add, Rounds.tally, filled]

theorem calls_ne_nil {uses : List KiroToolUse} (taken : calls.map (·.toolUse) = uses) (filled : uses ≠ []) :
    calls ≠ [] := by
  rintro rfl
  exact filled taken.symm

/-- What a round has become once its searches are settled, from the state with its record. -/
def Settled (s : Rounds) (uses : List KiroToolUse) : Outcome → Prop
  | .failed => True
  | .retried _ => False
  | .searched calls next =>
    next.decoded = {} ∧ next.tally = s.tally.add s.decoded calls ∧ calls.map (·.toolUse) = uses
  | .continued next => next.decoded = DecodedResponse.carrying {} s.decoded.carried ∧
    next.tally = s.tally.add s.decoded [] ∧ uses = []
  | .finished calls decoded => decoded.tally = s.tally.add s.decoded calls ∧ decoded.carried = s.decoded.carried ∧
    calls.map (·.toolUse) = uses

theorem next_settled {next : Rounds} {uses : List KiroToolUse} {outcome : Rounds → Outcome} (round : Round)
    (settled : Settled s uses (outcome next)) : Settled s uses (next.next round outcome) := by
  unfold Rounds.next
  split
  · exact settled
  · trivial

theorem toolSearchRound_settled (config : RoundsConfig) (catalog : ClaudeToolSearchCatalog) (outputExhausted : Bool)
    {toolUses : List KiroToolUse} (webUses : List KiroToolUse) (s : Rounds) (round : Round) (filled : toolUses ≠ []) :
    Settled s (toolUses ++ webUses) (s.toolSearchRound config catalog outputExhausted toolUses webUses round) := by
  have both : toolUses ++ webUses ≠ [] := by simp [filled]
  have pending := pendingCalls_uses catalog round toolUses webUses
  have delivered := fun reason => deliver_tally (s := s) (calls_ne_nil pending both) reason
  simp only [Rounds.toolSearchRound]
  split
  · exact ⟨(delivered _).1, (delivered _).2, pending⟩
  · split
    · exact ⟨(delivered _).1, (delivered _).2, pending⟩
    · have taken : ((runToolSearches config catalog round s.toolSearchOperations 0 toolUses).1 ++
          (runWebSearches config round (parallelLimitMessage config) s.webSearchRound toolUses.length webUses).1).map
            (·.toolUse) = toolUses ++ webUses := by
        rw [List.map_append, runToolSearches_uses, runWebSearches_uses]
      exact next_settled round ⟨rfl, afterSearch_tally (calls_ne_nil taken both), taken⟩

theorem webRound_settled (config : RoundsConfig) (outputExhausted : Bool) {webUses : List KiroToolUse} (s : Rounds)
    (round : Round) (filled : webUses ≠ []) : Settled s webUses (s.webRound config outputExhausted webUses round) := by
  have pending := pendingCalls_uses [] round [] webUses
  simp only [Rounds.webRound]
  split
  · have delivered := deliver_tally (s := s) (calls_ne_nil pending filled)
    exact ⟨(delivered _).1, (delivered _).2, pending⟩
  · have taken := runWebSearches_uses config round (webLimitMessage config) s.webSearchRound 0 webUses
    exact next_settled round ⟨rfl, afterSearch_tally (calls_ne_nil taken filled), taken⟩

/-- A record that no stop sequence has ended, and to which nothing has been delivered. -/
structure Plain (decoded : DecodedResponse) : Prop where
  searches : decoded.toolSearches = []
  webSearches : decoded.webSearches = []
  serverEvents : decoded.claudeServerEvents = []
  stopReason : decoded.stopReason = none
  stopSequence : decoded.stopSequence = none

theorem push_plain (plain : Plain decoded) (pushed : decoded.push outside event = .ok next) : Plain next := by
  cases event with
  | toolUse id name inputDelta stop =>
    simp only [DecodedResponse.push] at pushed
    split at pushed
    · cases pushed
    · cases pushed
      exact ⟨plain.searches, plain.webSearches, plain.serverEvents, plain.stopReason, plain.stopSequence⟩
  | error kind message => cases pushed
  | _ =>
    cases pushed
    exact ⟨plain.searches, plain.webSearches, plain.serverEvents, plain.stopReason, plain.stopSequence⟩

/-- A round ends with a plain record, or with the one that a stop sequence leaves. -/
def Ended (decoded : DecodedResponse) : Prop := Plain decoded ∨ decoded.stopSequence.isSome ∧ decoded.tools = []

theorem pushNonstreamEvent_ended {next : Collecting} {stopped : Bool} (plain : Plain c.decoded)
    (pushed : pushNonstreamEvent outside c event = .ok (next, stopped)) :
    if stopped then next.decoded.stopSequence.isSome ∧ next.decoded.tools = [] else Plain next.decoded := by
  simp only [pushNonstreamEvent, Bytes.bind_ok] at pushed
  obtain ⟨decoded, pushed, result⟩ := pushed
  split at result
  · cases result
    exact push_plain plain pushed
  · cases result
    exact ⟨rfl, rfl⟩

theorem collectEvents_ended {last : Collecting} {events : List KiroEvent} (plain : Plain c.decoded)
    (collected : collectEvents outside c events = .ok last) : Ended last.decoded := by
  induction events generalizing c with
  | nil =>
    cases collected
    exact .inl plain
  | cons event rest ih =>
    simp only [collectEvents, Bytes.bind_ok] at collected
    obtain ⟨⟨next, stopped⟩, pushed, collected⟩ := collected
    have ended := pushNonstreamEvent_ended plain pushed
    cases stopped with
    | true =>
      cases collected
      exact .inr ended
    | false => exact ih ended collected

theorem fillMissingUsage_ended {tokenizer : Tokenizer} (ended : Ended decoded) :
    Ended (fillMissingUsage outside tokenizer decoded) := by
  refine ended.imp (fun plain => ?_) id
  exact ⟨plain.searches, plain.webSearches, plain.serverEvents, plain.stopReason, plain.stopSequence⟩

theorem finalizeToolInputs_ended (ended : Ended decoded) (finalized : decoded.finalizeToolInputs outside = .ok next) :
    Ended next := by
  simp only [DecodedResponse.finalizeToolInputs] at finalized
  split at finalized
  · cases finalized
  · cases finalized
    refine ended.imp (fun plain => ?_) (fun stopped => ⟨stopped.1, by simp [stopped.2]⟩)
    exact ⟨plain.searches, plain.webSearches, plain.serverEvents, plain.stopReason, plain.stopSequence⟩

theorem decodeRound_ended {round : Round} (plain : Plain decoded)
    (decodes : decodeRound outside config decoded round = .ok own) : Ended own := by
  simp only [decodeRound, Bytes.bind_ok] at decodes
  obtain ⟨last, collected, completed⟩ := decodes
  have ended := collectEvents_ended plain collected
  split at completed
  · obtain ⟨finalized, inputs, filled⟩ := Bytes.bind_ok.1 completed
    cases filled
    exact fillMissingUsage_ended (finalizeToolInputs_ended ended inputs)
  · cases completed
    exact fillMissingUsage_ended ended

theorem plainRound_settled {outputExhausted : Bool} (round : Round) (plain : Plain s.decoded) :
    Settled s [] (s.plainRound config outputExhausted round) := by
  simp only [Rounds.plainRound]
  split
  · refine ⟨?_, (stopFor_tally _ _).2, rfl⟩
    rw [(stopFor_tally _ _).1]
    simp [DecodedResponse.tally, Rounds.deliverText, Rounds.deliver, Tally.add, Rounds.tally, pointers,
      mergeRoundUsage_comm s.decoded.usage]
  · apply next_settled
    refine ⟨?_, ?_, rfl⟩
    · have signature : joinOptional s.decoded.reasoningSignature none = s.decoded.reasoningSignature := by
        cases s.decoded.reasoningSignature <;> rfl
      simp [DecodedResponse.carrying, DecodedResponse.carried, plain.searches, plain.webSearches, plain.serverEvents,
        plain.stopReason, plain.stopSequence, signature]
    · simp [Tally.add, Rounds.tally, pointers]

def Stepped (outside : Outside) (config : RoundsConfig) (s : Rounds) (own : DecodedResponse) : Outcome → Prop
  | .failed => True
  | .retried next => next.decoded = {} ∧ next.tally = s.tally.discard own ∧ searchUses outside config own = []
  | .searched calls next => next.decoded = {} ∧ next.tally = s.tally.add own calls ∧
    calls.map (·.toolUse) = searchUses outside config own
  | .continued next => next.decoded = DecodedResponse.carrying {} (s.decoded.carried.append own.carried) ∧
    next.tally = s.tally.add own [] ∧ searchUses outside config own = []
  | .finished calls decoded => decoded.tally = s.tally.add own calls ∧
    decoded.carried = s.decoded.carried.append own.carried ∧ calls.map (·.toolUse) = searchUses outside config own

/-- A record that differs from the round's own in its tools and in what it carries. -/
structure Records (own : DecodedResponse) (earlier : Carried) (decoded : DecodedResponse) : Prop where
  text : decoded.text = own.text
  reasoning : decoded.reasoning = own.reasoning
  usage : decoded.usage = own.usage
  carried : decoded.carried = earlier.append own.carried

theorem add_records {earlier : Carried} (records : Records own earlier decoded) (tally : Tally)
    (calls : List SearchCall) : tally.add decoded calls = tally.add own calls := by
  simp only [Tally.add, records.text, records.reasoning, records.usage]

theorem stepped_of_settled {outcome : Outcome} (records : Records own s.decoded.carried decoded)
    (settled : Settled { s with decoded := decoded } (searchUses outside config own) outcome) :
    Stepped outside config s own outcome := by
  have added := add_records records s.tally
  cases outcome with
  | failed => trivial
  | retried next => exact settled.elim
  | searched calls next => exact ⟨settled.1, settled.2.1.trans (added calls), settled.2.2⟩
  | continued next =>
    refine ⟨?_, settled.2.1.trans (added []), settled.2.2⟩
    rw [← records.carried]
    exact settled.1
  | finished calls decoded => exact ⟨settled.1.trans (added calls), settled.2.1.trans records.carried, settled.2.2⟩

theorem searchUses_nil (none : own.tools = []) :
    searchUses outside config own = [] := by
  simp [searchUses, DecodedResponse.takeToolUsesWhere, none]

theorem branch_stepped {outputExhausted : Bool} (s : Rounds) (round : Round) {toolUses webUses : List KiroToolUse}
    (records : Records own s.decoded.carried decoded) (plain : Plain decoded)
    (uses : searchUses outside config own = toolUses ++ webUses) (catalog : ClaudeToolSearchCatalog) :
    Stepped outside config s own
      (if toolUses ≠ [] then
        Rounds.toolSearchRound config catalog outputExhausted toolUses webUses { s with decoded := decoded } round
      else if webUses ≠ [] then Rounds.webRound config outputExhausted webUses { s with decoded := decoded } round
      else Rounds.plainRound config outputExhausted { s with decoded := decoded } round) := by
  apply stepped_of_settled records
  rw [uses]
  split
  case isTrue filled => exact toolSearchRound_settled config catalog outputExhausted webUses _ round filled
  case isFalse noTools =>
    rw [not_not.1 noTools, List.nil_append]
    split
    case isTrue filled => exact webRound_settled config outputExhausted _ round filled
    case isFalse noWebs =>
      rw [not_not.1 noWebs]
      exact plainRound_settled round plain

theorem accepted_stepped (outside : Outside) (config : RoundsConfig) (outputExhausted : Bool) (s : Rounds)
    (round : Round) (plain : Plain own) :
    Stepped outside config s own
      (Rounds.acceptedRound outside config outputExhausted { s with decoded := own.carrying s.decoded.carried } round) := by
  simp only [Rounds.acceptedRound]
  by_cases web : config.webSearchMaxRounds > 0
  · simp only [if_pos web]
    refine branch_stepped s round ?_ ?_ ?_ _
    · exact ⟨rfl, rfl, rfl, rfl⟩
    · exact ⟨plain.searches, plain.webSearches, plain.serverEvents, plain.stopReason, plain.stopSequence⟩
    · simp only [searchUses, if_pos web]
      rfl
  · simp only [if_neg web]
    refine branch_stepped s round ?_ ?_ ?_ _
    · exact ⟨rfl, rfl, rfl, rfl⟩
    · exact ⟨plain.searches, plain.webSearches, plain.serverEvents, plain.stopReason, plain.stopSequence⟩
    · simp only [searchUses, if_neg web]
      rfl

theorem step_spec (outside : Outside) (config : RoundsConfig) (blank : s.Blank) (round : Round) :
    Stepped outside config s (round.own outside config) (s.step outside config round) := by
  have carrying := decodeRound_carrying outside config {} s.decoded.carried round
  rw [← blank] at carrying
  simp only [Rounds.step, Round.own, carrying]
  cases decodes : decodeRound outside config {} round with
  | error message => trivial
  | ok own =>
    have ended := decodeRound_ended ⟨rfl, rfl, rfl, rfl, rfl⟩ decodes
    simp only [Except.map]
    split
    case isTrue stopped =>
      have cleared : own.tools = [] := by
        refine (ended.resolve_left fun plain => ?_).2
        simp [DecodedResponse.carrying, plain.stopSequence] at stopped
      refine ⟨?_, rfl, (searchUses_nil cleared).symm⟩
      simp [DecodedResponse.tally, Rounds.deliverText, Rounds.deliver, Tally.add, Rounds.tally, pointers,
        DecodedResponse.carrying, mergeRoundUsage_comm own.usage]
    case isFalse unstopped =>
      have plain : Plain own := by
        refine ended.resolve_right fun stopped => unstopped ?_
        exact stopped.1
      split
      · trivial
      case h_2 retry =>
        have cleared : own.tools = [] := by
          simp only [emptyToolResultDisposition] at retry
          split at retry
          case isTrue empty => exact empty.2.2.1
          case isFalse => cases retry
        unfold Rounds.next
        split
        · exact ⟨rfl, rfl, searchUses_nil cleared⟩
        · trivial
      · exact accepted_stepped outside config _ s round plain

/-- A round of a run: what it brought, whether it was kept, and the calls taken out of it. -/
structure Report where
  own : DecodedResponse
  kept : Bool
  calls : List SearchCall

def Rounds.reports (outside : Outside) (config : RoundsConfig) : Rounds → List Round → List Report
  | _, [] => []
  | s, round :: rest =>
    let own := round.own outside config
    match s.step outside config round with
    | .failed => []
    | .retried next => ⟨own, false, []⟩ :: next.reports outside config rest
    | .searched calls next => ⟨own, true, calls⟩ :: next.reports outside config rest
    | .continued next => ⟨own, true, []⟩ :: next.reports outside config rest
    | .finished calls _ => [⟨own, true, calls⟩]

def Tally.report (tally : Tally) (report : Report) : Tally :=
  if report.kept then tally.add report.own report.calls else tally.discard report.own

theorem blank_of_empty (empty : s.decoded = {}) : s.Blank := by
  rw [Rounds.Blank, empty]
  rfl

theorem blank_of_carrying {earlier : Carried} (carries : s.decoded = DecodedResponse.carrying {} earlier) :
    s.Blank ∧ s.decoded.carried = earlier := by
  have same : s.decoded.carried = earlier := by rw [carries, DecodedResponse.carried_carrying]; exact earlier.append_empty
  exact ⟨by rw [Rounds.Blank, same]; exact carries, same⟩

theorem collect_tally (blank : s.Blank) (collected : s.collect outside config rounds = some decoded) :
    decoded.tally = (s.reports outside config rounds).foldl Tally.report s.tally := by
  induction rounds generalizing s with
  | nil => cases collected
  | cons round rest ih =>
    have stepped := step_spec outside config blank round
    simp only [Rounds.collect] at collected
    simp only [Rounds.reports]
    cases outcome : s.step outside config round with
    | failed => simp [outcome] at collected
    | retried next =>
      simp only [outcome] at collected stepped ⊢
      rw [ih (blank_of_empty stepped.1) collected, stepped.2.1]
      rfl
    | searched calls next =>
      simp only [outcome] at collected stepped ⊢
      rw [ih (blank_of_empty stepped.1) collected, stepped.2.1]
      rfl
    | continued next =>
      simp only [outcome] at collected stepped ⊢
      rw [ih (blank_of_carrying stepped.1).1 collected, stepped.2.1]
      rfl
    | finished calls last =>
      simp only [outcome, Option.some.injEq] at collected stepped ⊢
      rw [← collected]
      exact stepped.1

theorem reports_uses (blank : s.Blank) :
    ∀ report ∈ s.reports outside config rounds,
      report.calls.map (·.toolUse) = searchUses outside config report.own := by
  induction rounds generalizing s with
  | nil => simp [Rounds.reports]
  | cons round rest ih =>
    have stepped := step_spec outside config blank round
    simp only [Rounds.reports]
    cases outcome : s.step outside config round with
    | failed => simp
    | retried next =>
      simp only [outcome] at stepped
      exact List.forall_mem_cons.2 ⟨stepped.2.2.symm, ih (blank_of_empty stepped.1)⟩
    | searched calls next =>
      simp only [outcome] at stepped
      exact List.forall_mem_cons.2 ⟨stepped.2.2, ih (blank_of_empty stepped.1)⟩
    | continued next =>
      simp only [outcome] at stepped
      exact List.forall_mem_cons.2 ⟨stepped.2.2.symm, ih (blank_of_carrying stepped.1).1⟩
    | finished calls last =>
      simp only [outcome] at stepped
      exact List.forall_mem_singleton.2 stepped.2.2

def keptText (f : DecodedResponse → String) : List Report → String
  | [] => ""
  | report :: rest => (if report.kept then f report.own else "") ++ keptText f rest

def keptCarried : List Report → Carried
  | [] => {}
  | report :: rest => Carried.append (if report.kept then report.own.carried else {}) (keptCarried rest)

def ClaudeServerEvent.precedingText : ClaudeServerEvent → String
  | toolSearch _ precedingText => precedingText
  | webSearch _ precedingText => precedingText

def precedingTexts : List ClaudeServerEvent → String
  | [] => ""
  | event :: rest => event.precedingText ++ precedingTexts rest

def Points (searches : List ClaudeToolSearchTrace) (webSearches : List ClaudeWebSearchTrace) :
    ClaudeServerEvent → SearchCall → Prop
  | .toolSearch index _, .tool _ trace => searches[index]? = some trace
  | .webSearch index _, .web _ trace => webSearches[index]? = some trace
  | _, _ => False

theorem precedingTexts_append (first second : List ClaudeServerEvent) :
    precedingTexts (first ++ second) = precedingTexts first ++ precedingTexts second := by
  induction first with
  | nil => simp [precedingTexts]
  | cons event rest ih => simp [precedingTexts, ih, String.append_assoc]

theorem pointers_text (tools webs : Nat) (text : String) (calls : List SearchCall) :
    precedingTexts (pointers tools webs text calls) ++ (if calls.isEmpty then text else "") = text := by
  have silent (tools webs : Nat) (calls : List SearchCall) : precedingTexts (pointers tools webs "" calls) = "" := by
    induction calls generalizing tools webs with
    | nil => rfl
    | cons call rest ih => cases call <;> simp [pointers, precedingTexts, ClaudeServerEvent.precedingText, ih]
  cases calls with
  | nil => simp [pointers, precedingTexts]
  | cons call rest => cases call <;> simp [pointers, precedingTexts, ClaudeServerEvent.precedingText, silent]

theorem pointers_point (searches : List ClaudeToolSearchTrace) (webSearches : List ClaudeWebSearchTrace) (text : String)
    (calls : List SearchCall) {allSearches : List ClaudeToolSearchTrace} {allWebs : List ClaudeWebSearchTrace}
    (tools : searches ++ calls.filterMap (·.toolTrace) <+: allSearches)
    (webs : webSearches ++ calls.filterMap (·.webTrace) <+: allWebs) :
    List.Forall₂ (Points allSearches allWebs) (pointers searches.length webSearches.length text calls) calls := by
  induction calls generalizing searches webSearches text with
  | nil => exact .nil
  | cons call rest ih =>
    cases call with
    | tool use trace =>
      have tools : (searches ++ [trace]) ++ rest.filterMap (·.toolTrace) <+: allSearches := by
        simpa [SearchCall.toolTrace] using tools
      have later := ih (searches ++ [trace]) webSearches "" tools webs
      rw [List.length_append] at later
      refine .cons ?_ later
      obtain ⟨more, rfl⟩ := tools
      simp [Points]
    | web use trace =>
      have webs : (webSearches ++ [trace]) ++ rest.filterMap (·.webTrace) <+: allWebs := by
        simpa [SearchCall.webTrace] using webs
      have later := ih searches (webSearches ++ [trace]) "" tools webs
      rw [List.length_append] at later
      refine .cons ?_ later
      obtain ⟨more, rfl⟩ := webs
      simp [Points]

theorem tally_searches (tally : Tally) (reports : List Report) (dropped : ∀ report ∈ reports, report.kept = false →
    report.calls = []) :
    (reports.foldl Tally.report tally).searches =
        tally.searches ++ (reports.flatMap (·.calls)).filterMap (·.toolTrace) ∧
      (reports.foldl Tally.report tally).webSearches =
        tally.webSearches ++ (reports.flatMap (·.calls)).filterMap (·.webTrace) := by
  induction reports generalizing tally with
  | nil => simp
  | cons report rest ih =>
    have later := ih (tally.report report) fun other member => dropped other (List.mem_cons_of_mem report member)
    rw [List.foldl_cons, later.1, later.2]
    cases kept : report.kept with
    | true => simp [Tally.report, kept, Tally.add]
    | false => simp [Tally.report, kept, Tally.discard, dropped report List.mem_cons_self kept]

theorem tally_text (tally : Tally) (reports : List Report) (dropped : ∀ report ∈ reports, report.kept = false →
    report.calls = []) :
    ∃ added, (reports.foldl Tally.report tally).serverEvents = tally.serverEvents ++ added ∧
      precedingTexts added ++ (reports.foldl Tally.report tally).text = tally.text ++ keptText (·.text) reports ∧
      List.Forall₂ (Points (reports.foldl Tally.report tally).searches (reports.foldl Tally.report tally).webSearches)
        added (reports.flatMap (·.calls)) := by
  induction reports generalizing tally with
  | nil => exact ⟨[], by simp, by simp [precedingTexts, keptText], .nil⟩
  | cons report rest ih =>
    have droppedLater := fun other member => dropped other (List.mem_cons_of_mem report member)
    obtain ⟨added, events, text, points⟩ := ih (tally.report report) droppedLater
    obtain ⟨searches, webSearches⟩ := tally_searches (tally.report report) rest droppedLater
    rw [List.foldl_cons, events, List.flatMap_cons]
    cases kept : report.kept with
    | true =>
      have before := pointers_text tally.searches.length tally.webSearches.length (tally.text ++ report.own.text)
        report.calls
      refine ⟨pointers tally.searches.length tally.webSearches.length (tally.text ++ report.own.text) report.calls ++ added,
        by simp [Tally.report, kept, Tally.add], ?_, ?_⟩
      · have own : (tally.report report).text =
            if report.calls.isEmpty then tally.text ++ report.own.text else "" := by simp [Tally.report, kept, Tally.add]
        rw [precedingTexts_append, String.append_assoc, text, own, ← String.append_assoc, before]
        simp [keptText, kept, String.append_assoc]
      · refine List.rel_append (pointers_point _ _ _ _ ?_ ?_) points
        · rw [searches]
          simp [Tally.report, kept, Tally.add]
        · rw [webSearches]
          simp [Tally.report, kept, Tally.add]
    | false =>
      refine ⟨added, by simp [Tally.report, kept, Tally.discard], ?_, ?_⟩
      · rw [text]
        simp [Tally.report, kept, Tally.discard, keptText]
      · simpa [dropped report List.mem_cons_self kept] using points

theorem tally_reasoning (tally : Tally) (reports : List Report) :
    (reports.foldl Tally.report tally).reasoning = tally.reasoning ++ keptText (·.reasoning) reports := by
  induction reports generalizing tally with
  | nil => simp [keptText]
  | cons report rest ih =>
    rw [List.foldl_cons, ih]
    cases kept : report.kept with
    | true => simp [Tally.report, kept, Tally.add, keptText, String.append_assoc]
    | false => simp [Tally.report, kept, Tally.discard, keptText]

def UsageInfo.plus (a b : UsageInfo) : UsageInfo where
  inputTokens := a.inputTokens + b.inputTokens
  outputTokens := a.outputTokens + b.outputTokens
  credits := a.credits + b.credits
  cacheReadTokens := a.cacheReadTokens + b.cacheReadTokens
  cacheWriteTokens := a.cacheWriteTokens + b.cacheWriteTokens
  reasoningTokens := a.reasoningTokens + b.reasoningTokens

structure Unsaturated (usage : UsageInfo) : Prop where
  inputTokens : usage.inputTokens < 2 ^ 64
  outputTokens : usage.outputTokens < 2 ^ 64
  cacheReadTokens : usage.cacheReadTokens < 2 ^ 64
  cacheWriteTokens : usage.cacheWriteTokens < 2 ^ 64
  reasoningTokens : usage.reasoningTokens < 2 ^ 64

def totalUsage : List Report → UsageInfo
  | [] => {}
  | report :: rest => report.own.usage.plus (totalUsage rest)

theorem plus_assoc (a b c : UsageInfo) : (a.plus b).plus c = a.plus (b.plus c) := by
  simp only [UsageInfo.plus, Nat.add_assoc, Rat.add_assoc]

theorem plus_empty (a : UsageInfo) : a.plus {} = a := by
  simp [UsageInfo.plus]

theorem empty_plus (a : UsageInfo) : UsageInfo.plus {} a = a := by
  simp [UsageInfo.plus]

theorem Unsaturated.left {a b : UsageInfo} (both : Unsaturated (a.plus b)) : Unsaturated a :=
  ⟨lt_of_le_of_lt (Nat.le_add_right _ _) both.inputTokens, lt_of_le_of_lt (Nat.le_add_right _ _) both.outputTokens,
    lt_of_le_of_lt (Nat.le_add_right _ _) both.cacheReadTokens,
    lt_of_le_of_lt (Nat.le_add_right _ _) both.cacheWriteTokens,
    lt_of_le_of_lt (Nat.le_add_right _ _) both.reasoningTokens⟩

theorem saturatingAdd_eq {a b : Nat} (fits : a + b < 2 ^ 64) : saturatingAdd a b = a + b := by
  unfold saturatingAdd
  omega

theorem merge_unsaturated {a b : UsageInfo} (both : Unsaturated (a.plus b)) : mergeRoundUsage a b = a.plus b := by
  simp only [mergeRoundUsage, UsageInfo.plus, saturatingAdd_eq both.inputTokens, saturatingAdd_eq both.outputTokens,
    saturatingAdd_eq both.cacheReadTokens, saturatingAdd_eq both.cacheWriteTokens,
    saturatingAdd_eq both.reasoningTokens]

theorem tally_usage (tally : Tally) (reports : List Report)
    (unsaturated : Unsaturated (tally.usage.plus (totalUsage reports))) :
    (reports.foldl Tally.report tally).usage = tally.usage.plus (totalUsage reports) := by
  induction reports generalizing tally with
  | nil => exact (plus_empty _).symm
  | cons report rest ih =>
    simp only [totalUsage] at unsaturated ⊢
    rw [← plus_assoc] at unsaturated ⊢
    have merged : (tally.report report).usage = tally.usage.plus report.own.usage := by
      rw [← merge_unsaturated unsaturated.left]
      unfold Tally.report
      split <;> rfl
    rw [List.foldl_cons, ih (tally.report report) (by rw [merged]; exact unsaturated), merged]

/-- An event that brings neither a signature, nor redacted thinking, nor a citation. -/
def unsigned : KiroEvent → Bool
  | .reasoning _ signature redactedContent => signature.isNone && redactedContent.getD "" = ""
  | .citations citations => citations.isEmpty
  | _ => true

theorem push_unsigned (plain : unsigned event = true) (pushed : decoded.push outside event = .ok next) :
    next.carried = decoded.carried := by
  cases event with
  | reasoning content signature redactedContent =>
    cases pushed
    simp only [unsigned, Bool.and_eq_true, Option.isNone_iff_eq_none, decide_eq_true_eq] at plain
    simp [DecodedResponse.carried, plain.1, plain.2]
  | citations citations =>
    cases pushed
    simp only [unsigned, List.isEmpty_iff] at plain
    simp [DecodedResponse.carried, plain]
  | toolUse id name inputDelta stop =>
    simp only [DecodedResponse.push] at pushed
    split at pushed
    · cases pushed
    · cases pushed
      rfl
  | error kind message => cases pushed
  | _ =>
    cases pushed
    rfl

theorem collectEvents_unsigned {last : Collecting} {events : List KiroEvent}
    (plain : ∀ event ∈ events, unsigned event = true) (collected : collectEvents outside c events = .ok last) :
    last.decoded.carried = c.decoded.carried := by
  induction events generalizing c with
  | nil =>
    cases collected
    rfl
  | cons event rest ih =>
    simp only [collectEvents, Bytes.bind_ok, pushNonstreamEvent] at collected
    obtain ⟨⟨next, stopped⟩, ⟨decoded, pushed, result⟩, collected⟩ := collected
    have kept := push_unsigned (plain event List.mem_cons_self) pushed
    split at result
    · cases result
      rw [ih (fun other member => plain other (List.mem_cons_of_mem event member)) (by simpa using collected)]
      exact kept
    · cases result
      cases collected
      exact kept

theorem own_unsigned {round : Round} (plain : ∀ event ∈ round.events, unsigned event = true) :
    (round.own outside config).carried = {} := by
  unfold Round.own
  split
  case h_1 own decodes =>
    simp only [decodeRound, Bytes.bind_ok] at decodes
    obtain ⟨last, collected, completed⟩ := decodes
    have kept := collectEvents_unsigned plain collected
    split at completed
    · obtain ⟨finalized, inputs, filled⟩ := Bytes.bind_ok.1 completed
      cases filled
      simp only [DecodedResponse.finalizeToolInputs] at inputs
      split at inputs
      · cases inputs
      · cases inputs
        exact kept
    · cases completed
      exact kept
  · rfl

theorem reports_dropped (outside : Outside) (config : RoundsConfig) (s : Rounds) (rounds : List Round) :
    ∀ report ∈ s.reports outside config rounds, report.kept = false → report.calls = [] := by
  induction rounds generalizing s with
  | nil => simp [Rounds.reports]
  | cons round rest ih =>
    simp only [Rounds.reports]
    cases s.step outside config round with
    | failed => simp
    | retried next => exact List.forall_mem_cons.2 ⟨fun _ => rfl, ih next⟩
    | searched calls next => exact List.forall_mem_cons.2 ⟨fun dropped => (by cases dropped), ih next⟩
    | continued next => exact List.forall_mem_cons.2 ⟨fun _ => rfl, ih next⟩
    | finished calls last => exact List.forall_mem_singleton.2 fun dropped => (by cases dropped)

/-- The record is replaced, after searches and for a retry, only while it has nothing to carry. -/
def Rounds.lossless (outside : Outside) (config : RoundsConfig) : Rounds → List Round → Bool
  | _, [] => true
  | s, round :: rest =>
    match s.step outside config round with
    | .failed | .finished _ _ => true
    | .retried next => s.decoded.carried.isEmpty && next.lossless outside config rest
    | .searched _ next =>
      s.decoded.carried.isEmpty && round.events.all unsigned && next.lossless outside config rest
    | .continued next => next.lossless outside config rest

theorem collect_carried (blank : s.Blank) (lossless : s.lossless outside config rounds = true)
    (collected : s.collect outside config rounds = some decoded) :
    decoded.carried = s.decoded.carried.append (keptCarried (s.reports outside config rounds)) := by
  induction rounds generalizing s with
  | nil => cases collected
  | cons round rest ih =>
    have stepped := step_spec outside config blank round
    simp only [Rounds.collect] at collected
    simp only [Rounds.lossless] at lossless
    simp only [Rounds.reports]
    cases outcome : s.step outside config round with
    | failed => simp [outcome] at collected
    | retried next =>
      simp only [outcome, Bool.and_eq_true] at collected lossless stepped ⊢
      have later := ih (blank_of_empty stepped.1) lossless.2 collected
      rw [later, stepped.1, Carried.eq_empty lossless.1]
      simp only [keptCarried, Carried.empty_append]
      exact Carried.empty_append _
    | searched calls next =>
      simp only [outcome, Bool.and_eq_true, List.all_eq_true] at collected lossless stepped ⊢
      have later := ih (blank_of_empty stepped.1) lossless.2 collected
      rw [later, stepped.1, Carried.eq_empty lossless.1.1]
      simp only [keptCarried, own_unsigned lossless.1.2, if_true, Carried.empty_append]
      exact Carried.empty_append _
    | continued next =>
      simp only [outcome] at collected lossless stepped ⊢
      obtain ⟨blank, carried⟩ := blank_of_carrying stepped.1
      rw [ih blank lossless collected, carried, Carried.append_assoc]
      rfl
    | finished calls last =>
      simp only [outcome, Option.some.injEq] at collected stepped ⊢
      rw [← collected, stepped.2.1]
      simp [keptCarried, Carried.append_empty]

structure Assembled (outside : Outside) (config : RoundsConfig) (resumed : Resumed) (reports : List Report)
    (decoded : DecodedResponse) : Prop where
  text : ∃ added, decoded.claudeServerEvents = resumed.serverEvents ++ added ∧
    precedingTexts added ++ decoded.text = keptText (·.text) reports ∧
    List.Forall₂ (Points decoded.toolSearches decoded.webSearches) added (reports.flatMap (·.calls))
  reasoning : decoded.reasoning = keptText (·.reasoning) reports
  reasoningSignature : decoded.reasoningSignature = (keptCarried reports).signature
  redactedThinking : decoded.redactedThinking = (keptCarried reports).redacted
  citations : decoded.citations = (keptCarried reports).citations
  calls : ∀ report ∈ reports, report.calls.map (·.toolUse) = searchUses outside config report.own
  toolSearches : decoded.toolSearches = resumed.toolSearches ++ (reports.flatMap (·.calls)).filterMap (·.toolTrace)
  webSearches : decoded.webSearches = resumed.webSearches ++ (reports.flatMap (·.calls)).filterMap (·.webTrace)
  usage : decoded.usage = totalUsage reports

theorem rounds_assembled (outside : Outside) (config : RoundsConfig) (resumed : Resumed) (rounds : List Round)
    (decoded : DecodedResponse) (collected : (Rounds.new resumed).collect outside config rounds = some decoded)
    (unsaturated : Unsaturated (totalUsage ((Rounds.new resumed).reports outside config rounds)))
    (lossless : (Rounds.new resumed).lossless outside config rounds = true) :
    Assembled outside config resumed ((Rounds.new resumed).reports outside config rounds) decoded := by
  have blank : (Rounds.new resumed).Blank := blank_of_empty rfl
  have dropped := reports_dropped outside config (Rounds.new resumed) rounds
  have tally := collect_tally blank collected
  have carried := collect_carried blank lossless collected
  rw [show (Rounds.new resumed).decoded.carried = {} from rfl, Carried.empty_append] at carried
  obtain ⟨added, events, text, points⟩ := tally_text (Rounds.new resumed).tally _ dropped
  obtain ⟨searches, webSearches⟩ := tally_searches (Rounds.new resumed).tally _ dropped
  have reasoning := tally_reasoning (Rounds.new resumed).tally ((Rounds.new resumed).reports outside config rounds)
  have usage := tally_usage (Rounds.new resumed).tally ((Rounds.new resumed).reports outside config rounds)
  rw [← tally] at events text points searches webSearches reasoning usage
  constructor
  · rw [show (Rounds.new resumed).tally.text = "" from rfl, String.empty_append] at text
    exact ⟨added, events, text, points⟩
  · rw [show (Rounds.new resumed).tally.reasoning = "" from rfl, String.empty_append] at reasoning
    exact reasoning
  · exact congrArg Carried.signature carried
  · exact congrArg Carried.redacted carried
  · exact congrArg Carried.citations carried
  · exact reports_uses blank
  · exact searches
  · exact webSearches
  · rw [show (Rounds.new resumed).tally.usage = {} from rfl, empty_plus] at usage
    exact usage unsaturated

def sampleOutside : Outside where
  fromStr text := if text = "\x7b\"query\":\"lean\"\x7d" then some (.object [("query", .string "lean")]) else none
  mergeUsage usage _ := usage

def sampleRound (events : List KiroEvent) (toolResults : Bool) : Round where
  events := events
  toolResults := toolResults
  tokenizer := { estimateKiroPayload := some 5, count := fun _ => some 3 }
  toolSearch _ := .error "no catalogue"
  webSearch _ := .ok []
  serverId i := "srvtoolu_" ++ toString i
  continues := true

/-- A web search after some reasoning, an empty answer to its result, and the answer to a second try. -/
def searchRounds (signature : Option String) : List Round :=
  [sampleRound [.reasoning "look it up" signature none, .assistantResponse "One moment.",
      .toolUse "t" "web_search" "\x7b\"query\":\"lean\"\x7d" true] false,
    sampleRound [] true, sampleRound [.assistantResponse "Done."] true]

def searchConfig : RoundsConfig := { webSearchMaxRounds := 2 }

theorem rounds_assembled_search : ∃ decoded,
    (Rounds.new {}).collect sampleOutside searchConfig (searchRounds none) = some decoded ∧
      Assembled sampleOutside searchConfig {}
        ((Rounds.new {}).reports sampleOutside searchConfig (searchRounds none)) decoded := by
  have found : ((Rounds.new {}).collect sampleOutside searchConfig (searchRounds none)).isSome = true := by
    decide
  obtain ⟨decoded, collected⟩ := Option.isSome_iff_exists.1 found
  refine ⟨decoded, collected, rounds_assembled _ _ _ _ _ collected ?_ (by decide)⟩
  exact ⟨by decide, by decide, by decide, by decide, by decide⟩

theorem search_drops_signature : ∃ decoded,
    (Rounds.new {}).collect sampleOutside searchConfig (searchRounds (some "sig")) = some decoded ∧
      Unsaturated (totalUsage ((Rounds.new {}).reports sampleOutside searchConfig (searchRounds (some "sig")))) ∧
      ¬ Assembled sampleOutside searchConfig {}
        ((Rounds.new {}).reports sampleOutside searchConfig (searchRounds (some "sig"))) decoded := by
  have dropped : (((Rounds.new {}).collect sampleOutside searchConfig (searchRounds (some "sig"))).map
      (·.reasoningSignature)) = some none := by decide
  obtain ⟨decoded, collected, unsigned⟩ := Option.map_eq_some_iff.1 dropped
  refine ⟨decoded, collected, ?_, fun assembled => ?_⟩
  · exact ⟨by decide, by decide, by decide, by decide, by decide⟩
  · have signed : (keptCarried ((Rounds.new {}).reports sampleOutside searchConfig
        (searchRounds (some "sig")))).signature = some "sig" := by decide
    rw [← assembled.reasoningSignature, unsigned] at signed
    cases signed

end KiroProxy.Http

import KiroProxy.Http.Agreement
import KiroProxy.Http.StreamAbandoned
import KiroProxy.Lib.Lookup

/-! The arguments of the calls in a streamed chat completion, against those of the record. -/
namespace KiroProxy.Http

open Kiro

/-! ### What a client reads -/

structure CallDelta where
  index : Nat
  id : Option String
  arguments : String

def CallDelta.read (call : Value) : Option CallDelta :=
  match call.get "index", call.pointerStr ["function", "arguments"] with
  | some (.number (.posInt index)), some arguments => some ⟨index, call.getStr "id", arguments⟩
  | _, _ => none

def Frame.callDeltas : Frame → List CallDelta
  | .chunk value => (((value.get "choices").getD .null).blocks).flatMap fun choice =>
      (((choice.pointer ["delta", "tool_calls"]).getD .null).blocks).filterMap CallDelta.read
  | _ => []

def callDeltas (frames : List Frame) : List CallDelta := frames.flatMap Frame.callDeltas

def argumentsAt (deltas : List CallDelta) (index : Nat) : List String :=
  (deltas.filter (·.index = index)).map (·.arguments)

@[simp] theorem callDeltas_append (first second : List Frame) :
    callDeltas (first ++ second) = callDeltas first ++ callDeltas second := List.flatMap_append

@[simp] theorem argumentsAt_append (first second : List CallDelta) (index : Nat) :
    argumentsAt (first ++ second) index = argumentsAt first index ++ argumentsAt second index := by
  simp [argumentsAt]

section Chunks

variable (s : StreamState) (format : StreamFormat) (includeUsage : Bool)

theorem chunk_deltas (delta finishReason : Value) :
    (openaiChunk s format includeUsage delta finishReason).callDeltas =
      (((delta.get "tool_calls").getD .null).blocks).filterMap CallDelta.read := by
  cases includeUsage with
  | false => simp [openaiChunk, Frame.callDeltas, Value.get, Value.blocks, Value.asArray, Value.pointer]
  | true => simp [openaiChunk, Frame.callDeltas, Value.get, Value.blocks, Value.asArray, Value.pointer]

theorem chunk_text (fields : List (String × Value)) (finishReason : Value) (other : fields.lookup "tool_calls" = none) :
    (openaiChunk s format includeUsage (.object fields) finishReason).callDeltas = [] := by
  rw [chunk_deltas]
  simp only [Value.get, other]
  rfl

theorem chunk_calls (calls : List Value) (finishReason : Value) :
    (openaiChunk s format includeUsage (.object [("tool_calls", .array calls)]) finishReason).callDeltas =
      calls.filterMap CallDelta.read := by
  rw [chunk_deltas]
  rfl

end Chunks

/-! ### One call -/

namespace Call

/-- All of a call is before the client: its arguments, or an empty object once it has ended without any. -/
def Told (call : Call) (arguments : List String) : Prop :=
  if call.sent = "" then arguments.filter (· ≠ "") = if call.complete then ["\x7b\x7d"] else []
  else String.join arguments = call.sent

/-- What the encoder sends of a fragment: blanks ahead of the arguments are held back, and stand for an empty object
where the call ends with them. -/
def passed (settled : Bool) (inputDelta : String) (stop : Bool) : String :=
  if Text.trim inputDelta = "" ∧ settled = false then (if stop then "\x7b\x7d" else "") else inputDelta

def settled (call : Call) : Bool := decide (call.sent ≠ "") || call.complete

theorem told_new (id name : String) : (new id name).Told [] := rfl

theorem absorb_some (id name inputDelta : String) (stop : Bool) (call : Call) :
    absorb id name inputDelta stop (some call) = add inputDelta { call with
      name := if call.name = "" then name else call.name
      complete := call.complete || stop } := rfl

theorem add_early {inputDelta : String} {call : Call} (unsent : call.sent = "") (blank : Text.trim inputDelta = "") :
    (add inputDelta call).sent = "" := by
  unfold add
  rw [dif_pos ⟨unsent, blank⟩]
  exact unsent

theorem add_late {inputDelta : String} {call : Call} (late : ¬ (call.sent = "" ∧ Text.trim inputDelta = "")) :
    (add inputDelta call).sent = call.sent ++ inputDelta := by
  unfold add
  rw [dif_neg late]

theorem add_complete (inputDelta : String) (call : Call) : (add inputDelta call).complete = call.complete := by
  unfold add
  split <;> rfl

theorem join_snoc (texts : List String) (text : String) : String.join (texts ++ [text]) = String.join texts ++ text := by
  simp [String.join]

theorem join_empty {texts : List String} (empty : ∀ text ∈ texts, text = "") : String.join texts = "" := by
  rw [List.eq_replicate_of_mem empty, join_blank]

theorem told_absorb {call : Call} {arguments : List String} (told : call.Told arguments) (running : call.complete = false)
    (id name inputDelta : String) (stop : Bool) :
    (absorb id name inputDelta stop (some call)).Told (arguments ++ [passed call.settled inputDelta stop]) ∧
      (absorb id name inputDelta stop (some call)).settled =
        (call.settled || decide (Text.trim (passed call.settled inputDelta stop) ≠ "")) := by
  have solid : Text.trim "\x7b\x7d" ≠ "" := by decide
  have empty : Text.trim "" = "" := by decide
  rw [absorb_some]
  generalize renamed : { call with
    name := if call.name = "" then name else call.name
    complete := call.complete || stop } = fragment
  have sent : fragment.sent = call.sent := by rw [← renamed]
  have complete : fragment.complete = stop := by rw [← renamed, running, Bool.false_or]
  unfold Told at told
  by_cases early : call.sent = "" ∧ Text.trim inputDelta = ""
  · obtain ⟨unsent, blank⟩ := early
    have held := add_early (sent.trans unsent) blank
    have ended := (add_complete inputDelta fragment).trans complete
    rw [if_pos unsent, running] at told
    have none_sent : ∀ text ∈ arguments, text = "" := by simpa using told
    cases stop with
    | false => exact ⟨by simpa [Told, settled, passed, held, ended, unsent, running, blank] using none_sent,
        by simp [settled, passed, held, ended, unsent, running, blank, empty]⟩
    | true => exact ⟨by simpa [Told, settled, passed, held, ended, unsent, running, blank] using none_sent,
        by simp [settled, passed, held, ended, unsent, running, blank, solid]⟩
  · have grown : (add inputDelta fragment).sent = call.sent ++ inputDelta := by
      rw [add_late (by rwa [sent]), sent]
    have shown : passed call.settled inputDelta stop = inputDelta := by
      refine if_neg fun blank => early ⟨?_, blank.1⟩
      simpa [settled, running] using blank.2
    have filled : (add inputDelta fragment).sent ≠ "" := by
      rw [grown]
      intro nothing
      obtain ⟨unsent, none⟩ := String.append_eq_empty_iff.1 nothing
      exact early ⟨unsent, by rw [none, empty]⟩
    have before : String.join arguments = call.sent := by
      split at told
      case isTrue unsent =>
        rw [running] at told
        rw [unsent]
        exact join_empty (by simpa using told)
      case isFalse => exact told
    constructor
    · rw [Told, if_neg filled, shown, join_snoc, before, grown]
    · rw [shown]
      by_cases unsent : call.sent = ""
      · have solid : Text.trim inputDelta ≠ "" := fun blank => early ⟨unsent, blank⟩
        simp [settled, filled, solid]
      · simp [settled, filled, unsent]

end Call

/-! ### All calls of a round -/

theorem place_split {β : Type} {entries : List (String × β)} (distinct : (entries.map (·.1)).Nodup) (key : String)
    (f : Option β → β) :
    ∃ before known after, entries = before ++ known.toList.map (key, ·) ++ after ∧ (known = none → after = []) ∧
      key ∉ before.map (·.1) ∧ SortedMap.place key f entries = before ++ (key, f known) :: after := by
  by_cases there : key ∈ entries.map (·.1)
  · obtain ⟨⟨other, value⟩, member, same⟩ := List.mem_map.1 there
    obtain rfl : key = other := same.symm
    obtain ⟨before, after, rfl⟩ := List.append_of_mem member
    rw [List.map_append, List.map_cons, List.nodup_append] at distinct
    obtain ⟨-, rest, apart⟩ := distinct
    have early : key ∉ before.map (·.1) := fun early => apart key early key List.mem_cons_self rfl
    have late : key ∉ after.map (·.1) := (List.nodup_cons.1 rest).1
    have kept {part : List (String × β)} (absent : key ∉ part.map (·.1)) :
        part.map (fun entry => if entry.1 = key then (entry.1, f (some entry.2)) else entry) = part := by
      refine (List.map_congr_left fun entry member => ?_).trans (List.map_id part)
      exact if_neg fun same => absent (List.mem_map.2 ⟨entry, member, same⟩)
    refine ⟨before, some value, after, by simp, nofun, early, ?_⟩
    rw [SortedMap.place, if_pos there, List.map_append, List.map_cons, kept early, kept late, if_pos rfl]
  · exact ⟨entries, none, [], by simp, fun _ => rfl, there, by rw [SortedMap.place, if_neg there]⟩

theorem lookup_zipIdx {keys : List String} (distinct : keys.Nodup) {index : Nat} {key : String}
    (there : keys[index]? = some key) : keys.zipIdx.reverse.lookup key = some index := by
  apply lookup_of_mem
  · simpa using distinct
  · simpa [List.mem_zipIdx_iff_getElem?] using there

theorem lookup_zipIdx_none {keys : List String} {key : String} (absent : key ∉ keys) :
    keys.zipIdx.reverse.lookup key = none := by
  rw [List.lookup_eq_none_iff]
  intro entry member
  rw [List.mem_reverse] at member
  have there := List.mem_of_getElem? (List.mem_zipIdx_iff_getElem?.1 member)
  by_contra same
  have equal : key = entry.1 := by simpa using same
  exact absent (equal ▸ there)

structure Telling (calls : List (String × Call)) (s : StreamState) (deltas : List CallDelta) : Prop where
  distinct : (calls.map (·.1)).Nodup
  indices : s.toolIndices = (calls.map (·.1)).zipIdx.reverse
  withInput : ∀ id, id ∈ s.toolsWithInput ↔ ∃ call, (id, call) ∈ calls ∧ call.settled = true
  placed : ∀ delta ∈ deltas, ∃ id, delta.id = some id ∧ (calls.map (·.1))[delta.index]? = some id
  told : ∀ index id (call : Call), calls[index]? = some (id, call) → call.Told (argumentsAt deltas index)

def Functions (identities : List (String × OpenAiToolIdentity)) : Prop := ∀ entry ∈ identities, entry.2.kind ≠ "custom"

theorem Functions.lookup {identities : List (String × OpenAiToolIdentity)} (functions : Functions identities)
    (name : String) : (identities.lookup name).any (·.kind = "custom") = false := by
  cases found : identities.lookup name with
  | none => rfl
  | some identity => simpa using functions (name, identity) (mem_of_lookup found)

theorem Functions.unbuffered {identities : List (String × OpenAiToolIdentity)} (functions : Functions identities)
    (event : KiroEvent) : shouldBufferToolEvent false identities event = false := by
  cases event with
  | toolUse id name inputDelta stop => simpa [shouldBufferToolEvent] using functions.lookup name
  | _ => rfl

def functionCall (id name : String) (index : Nat) (arguments : String) : Value :=
  .object [("tool_calls", .array [.object [("function", .object [("arguments", .string arguments),
    ("name", .string name)]), ("id", .string id), ("index", natural index), ("type", .string "function")]])]

theorem functionCall_deltas (s : StreamState) (format : StreamFormat) (includeUsage : Bool) (id name : String) (index : Nat)
    (arguments : String) : (openaiChunk s format includeUsage (functionCall id name index arguments) .null).callDeltas =
      [⟨index, some id, arguments⟩] := by
  rw [functionCall, chunk_calls]
  rfl

theorem openaiToolUse_function (outside : Outside) (s : StreamState) {identities : List (String × OpenAiToolIdentity)}
    (functions : Functions identities) (id name inputDelta : String) (stop : Bool) :
    openaiToolUse outside s identities id name inputDelta stop =
      let arguments := Call.passed (decide (id ∈ s.toolsWithInput)) inputDelta stop
      ({ s with
          toolIndices := if (s.toolIndices.lookup id).isSome then s.toolIndices
            else (id, s.toolIndices.length) :: s.toolIndices
          toolsWithInput := if Text.trim arguments = "" then s.toolsWithInput else id :: s.toolsWithInput },
        functionCall id (((identities.lookup name).map (·.name)).getD name)
          ((s.toolIndices.lookup id).getD s.toolIndices.length) arguments) := by
  have passes (known : List String) : (if Text.trim inputDelta = "" ∧ id ∉ known then
      (if stop then "\x7b\x7d" else "") else inputDelta) = Call.passed (decide (id ∈ known)) inputDelta stop := by
    simp [Call.passed]
  unfold openaiToolUse
  simp only [functions.lookup, Bool.false_eq_true, if_false]
  by_cases known : (s.toolIndices.lookup id).isSome
  · simp only [known, if_true, passes]
    split
    · rfl
    · rfl
  · simp only [known, Bool.false_eq_true, if_false, passes]
    split
    · rfl
    · rfl

theorem Telling.initial {s : StreamState} (fresh : s.toolIndices = [] ∧ s.toolsWithInput = []) : Telling [] s [] where
  distinct := List.nodup_nil
  indices := fresh.1
  withInput id := by simp [fresh.2]
  placed delta member := absurd member List.not_mem_nil
  told index id call found := by simp at found

theorem Telling.same {calls : List (String × Call)} {s next : StreamState} {deltas : List CallDelta}
    (telling : Telling calls s deltas) (indices : next.toolIndices = s.toolIndices)
    (withInput : next.toolsWithInput = s.toolsWithInput) : Telling calls next deltas where
  distinct := telling.distinct
  indices := indices.trans telling.indices
  withInput id := by rw [withInput, telling.withInput]
  placed := telling.placed
  told := telling.told

theorem Telling.spot {before after : List (String × Call)} {known : Option Call} {s : StreamState} {deltas : List CallDelta}
    {id : String} (telling : Telling (before ++ known.toList.map (id, ·) ++ after) s deltas) (last : known = none → after = [])
    (early : id ∉ before.map (·.1)) (name : String) :
    decide (id ∈ s.toolsWithInput) = (known.getD (.new id name)).settled ∧
      (s.toolIndices.lookup id).getD s.toolIndices.length = before.length ∧
      (if (s.toolIndices.lookup id).isSome then s.toolIndices else (id, s.toolIndices.length) :: s.toolIndices) =
        ((before.map (·.1)) ++ id :: after.map (·.1)).zipIdx.reverse ∧
      (known.getD (.new id name)).Told (argumentsAt deltas before.length) := by
  have keys := telling.distinct
  cases known with
  | none =>
    obtain rfl := last rfl
    simp only [Option.toList_none, List.map_nil, List.append_nil] at telling keys
    have unlisted : s.toolIndices.lookup id = none := by
      rw [telling.indices, lookup_zipIdx_none early]
    have length : s.toolIndices.length = before.length := by simp [telling.indices]
    have unsettled : id ∉ s.toolsWithInput := by
      rw [telling.withInput]
      rintro ⟨call, member, -⟩
      exact early (List.mem_map_of_mem member)
    have untold : argumentsAt deltas before.length = [] := by
      refine List.map_eq_nil_iff.2 (List.filter_eq_nil_iff.2 fun delta member same => ?_)
      obtain ⟨other, -, there⟩ := telling.placed delta member
      have inside := (List.getElem?_eq_some_iff.1 there).1
      simp at same inside
      omega
    refine ⟨by simpa [Call.new, Call.settled] using unsettled, by simp [unlisted, length], ?_, ?_⟩
    · rw [unlisted, length, telling.indices]
      simp [List.zipIdx_append]
    · rw [untold]
      exact Call.told_new id name
  | some call =>
    have here : (before ++ (some call).toList.map (id, ·) ++ after)[before.length]? = some (id, call) := by simp
    have listed : s.toolIndices.lookup id = some before.length := by
      rw [telling.indices]
      exact lookup_zipIdx keys (by simp [List.map_append])
    have settled : id ∈ s.toolsWithInput ↔ call.settled = true := by
      rw [telling.withInput]
      constructor
      · rintro ⟨other, member, settled⟩
        have same : other = call := by
          have first := lookup_of_mem keys member
          have second := lookup_of_mem keys (List.mem_of_getElem? here)
          exact Option.some.inj (first.symm.trans second)
        rwa [same] at settled
      · exact fun settled => ⟨call, List.mem_of_getElem? here, settled⟩
    have unchanged : s.toolIndices = ((before.map (·.1)) ++ id :: after.map (·.1)).zipIdx.reverse := by
      rw [telling.indices]
      simp
    refine ⟨?_, by simp [listed], by rw [listed, Option.isSome_some, if_pos rfl, unchanged],
      telling.told _ _ _ here⟩
    cases settles : call.settled with
    | false => simp [settled, settles]
    | true => simp [settled, settles]

theorem fragment_named (outside : Outside) (format : StreamFormat) (functions : Functions format.openaiTools)
    (s : StreamState) (id name inputDelta : String) (stop : Bool) :
    (callDeltas (openaiEvent outside format s (.toolUse id name inputDelta stop)).2).filterMap (·.id) = [id] := by
  simp [openaiEvent, openaiToolUse_function outside s functions, callDeltas, functionCall_deltas]

theorem Telling.fragment {calls : List (String × Call)} {s : StreamState} {deltas : List CallDelta}
    (telling : Telling calls s deltas) (outside : Outside) (format : StreamFormat) (functions : Functions format.openaiTools)
    {id : String} (running : ∀ call, (id, call) ∈ calls → call.complete = false) (name inputDelta : String) (stop : Bool) :
    Telling (SortedMap.place id (Call.absorb id name inputDelta stop) calls)
      (openaiEvent outside format s (.toolUse id name inputDelta stop)).1
      (deltas ++ callDeltas (openaiEvent outside format s (.toolUse id name inputDelta stop)).2) := by
  obtain ⟨before, known, after, rfl, last, early, grown⟩ :=
    place_split telling.distinct id (Call.absorb id name inputDelta stop)
  obtain ⟨settled, index, indices, told⟩ := telling.spot last early name
  have runs : (known.getD (.new id name)).complete = false := by
    cases known with
    | none => rfl
    | some call => exact running call (by simp)
  have absorbed : Call.absorb id name inputDelta stop known =
      Call.absorb id name inputDelta stop (some (known.getD (.new id name))) := by cases known <;> rfl
  have next := Call.told_absorb told runs id name inputDelta stop
  rw [← absorbed] at next
  simp only [openaiEvent, openaiToolUse_function outside s functions, grown, callDeltas, List.flatMap_cons,
    List.flatMap_nil, List.append_nil, functionCall_deltas, indices, index, settled]
  generalize Call.passed (known.getD (.new id name)).settled inputDelta stop = arguments at next ⊢
  generalize Call.absorb id name inputDelta stop known = call at next ⊢
  have elsewhere (position : Nat) (other : position ≠ before.length) :
      (before ++ (id, call) :: after)[position]? = (before ++ known.toList.map (id, ·) ++ after)[position]? := by
    cases known with
    | none =>
      obtain rfl := last rfl
      by_cases inside : position < before.length
      · simp [List.getElem?_append, inside]
      · have beyond : before.length < position := by omega
        rw [List.getElem?_eq_none (by simp; omega), List.getElem?_eq_none (by simp; omega)]
    | some earlier =>
      by_cases inside : position < before.length
      · simp [List.getElem?_append, inside]
      · obtain ⟨more, rfl⟩ : ∃ more, position = before.length + (more + 1) := ⟨position - before.length - 1, by omega⟩
        simp [List.getElem?_append_right]
  have keys : (before ++ (id, call) :: after).map (·.1) = before.map (·.1) ++ id :: after.map (·.1) := by simp
  have distinct : ((before ++ (id, call) :: after).map (·.1)).Nodup := by
    cases known with
    | none =>
      obtain rfl := last rfl
      have earlier := telling.distinct
      simp only [Option.toList_none, List.map_nil, List.append_nil] at earlier
      rw [keys, List.map_nil]
      exact List.nodup_append.2 ⟨earlier, List.nodup_singleton id, fun one member other same equal =>
        early (by rwa [← List.mem_singleton.1 same, ← equal])⟩
    | some _ => simpa using telling.distinct
  constructor
  · exact distinct
  · rw [keys]
  · intro other
    by_cases same : other = id
    · subst same
      have only : (∃ found, (other, found) ∈ before ++ (other, call) :: after ∧ found.settled = true) ↔ call.settled = true := by
        constructor
        · rintro ⟨found, member, holds⟩
          have one := lookup_of_mem distinct member
          have two := lookup_of_mem distinct (List.mem_append_right before List.mem_cons_self)
          rwa [Option.some.inj (one.symm.trans two)] at holds
        · exact fun holds => ⟨call, List.mem_append_right before List.mem_cons_self, holds⟩
      rw [only, next.2, ← settled]
      by_cases blank : Text.trim arguments = ""
      · simp [blank]
      · simp [blank]
    · have older : other ∈ (if Text.trim arguments = "" then s.toolsWithInput else id :: s.toolsWithInput) ↔
          other ∈ s.toolsWithInput := by
        split
        · rfl
        · simp [same]
      rw [older, telling.withInput]
      simp [same, Ne.symm same]
  · intro delta member
    rcases List.mem_append.1 member with old | new
    · obtain ⟨other, named, there⟩ := telling.placed delta old
      refine ⟨other, named, ?_⟩
      rw [keys]
      cases known with
      | none =>
        have inside := (List.getElem?_eq_some_iff.1 there).1
        obtain rfl := last rfl
        simp only [Option.toList_none, List.map_nil, List.append_nil] at there inside
        rwa [List.getElem?_append_left inside]
      | some _ => simpa using there
    · cases List.mem_singleton.1 new
      exact ⟨id, rfl, by simp [keys]⟩
  · intro position other found there
    rw [argumentsAt_append]
    by_cases here : position = before.length
    · subst here
      obtain ⟨-, rfl⟩ : other = id ∧ found = call := by simpa using there.symm
      simpa [argumentsAt] using next.1
    · rw [elsewhere position here] at there
      simpa [argumentsAt, Ne.symm here] using telling.told position other found there

structure Gathered (calls : List (String × Call)) (decoded : DecodedResponse) : Prop where
  sorted : SortedMap.Sorted decoded.tools
  tools : decoded.tools.Perm (calls.map (Prod.map id Call.buffer))
  keys : ∀ entry ∈ calls, entry.2.id = entry.1

theorem Gathered.initial {decoded : DecodedResponse} (fresh : decoded.tools = []) : Gathered [] decoded where
  sorted := by simp [fresh, SortedMap.Sorted]
  tools := by simp [fresh]
  keys entry member := absurd member List.not_mem_nil

theorem Gathered.push {calls : List (String × Call)} {outside : Outside} {decoded next : DecodedResponse}
    (gathered : Gathered calls decoded) {event : KiroEvent} (pushed : decoded.push outside event = .ok next) :
    Gathered (arrive calls event) next := by
  cases event with
  | toolUse id name inputDelta stop =>
    simp only [DecodedResponse.push] at pushed
    split at pushed
    · cases pushed
    cases pushed
    refine ⟨SortedMap.alter_sorted gathered.sorted id _, ?_, arrive_keys gathered.keys id name inputDelta stop⟩
    rw [arrive, SortedMap.map_place (Call.buffer_absorb id name inputDelta stop)]
    exact (SortedMap.alter_perm_place gathered.sorted id _).trans (SortedMap.place_perm gathered.tools id _)
  | error _ message => cases pushed
  | _ =>
    cases pushed
    exact ⟨gathered.sorted, gathered.tools, gathered.keys⟩

/-! ### Hearing a round -/

def callId : KiroEvent → Option String
  | .toolUse id _ _ _ => some id
  | _ => none

def endsCall (id : String) : KiroEvent → Prop
  | .toolUse other _ _ stop => other = id ∧ stop = true
  | _ => False

def EndsOnce (events : List KiroEvent) : Prop :=
  events.Pairwise fun earlier later => ∀ id, endsCall id earlier → callId later ≠ some id

/-- The proxy runs no tools of its own, and none takes free-form input. -/
structure StreamRequest.Plain (request : StreamRequest) : Prop where
  openAi : request.format.protocol = .openAi
  toolSearch : request.config.toolSearch = none
  webSearch : request.config.webSearchMaxRounds = 0
  functions : Functions request.format.openaiTools

/-- The events so far, the calls they make, the record, and what is before the client. -/
structure Followed (events : List KiroEvent) (calls : List (String × Call)) (decoded : DecodedResponse) (s : StreamState)
    (deltas : List CallDelta) : Prop where
  telling : Telling calls s deltas
  gathered : Gathered calls decoded
  ids : calls.map (·.1) = (events.filterMap callId).eraseDups
  named : deltas.filterMap (·.id) = events.filterMap callId
  ended : ∀ id (call : Call), (id, call) ∈ calls → call.complete = true → ∃ event ∈ events, endsCall id event

theorem openaiText_other (format : StreamFormat) (s : StreamState) (includeUsage : Bool) (text : String) :
    (openaiText s text).1.toolIndices = s.toolIndices ∧ (openaiText s text).1.toolsWithInput = s.toolsWithInput ∧
      callDeltas [openaiChunk (openaiText s text).1 format includeUsage (openaiText s text).2 .null] = [] := by
  refine ⟨rfl, rfl, ?_⟩
  rw [callDeltas, List.flatMap_singleton]
  exact chunk_text _ format includeUsage _ _ rfl

theorem openaiReasoning_other (format : StreamFormat) (s : StreamState) (thinking : ThinkingOutputFormat)
    (includeUsage : Bool) (content : String) :
    let next := openaiReasoning s thinking content
    next.1.toolIndices = s.toolIndices ∧ next.1.toolsWithInput = s.toolsWithInput ∧
      callDeltas [openaiChunk next.1 format includeUsage next.2 .null] = [] := by
  intro next
  refine ⟨?_, ?_, ?_⟩
  · cases thinking <;> rfl
  · cases thinking <;> rfl
  · rw [callDeltas, List.flatMap_singleton]
    cases thinking with
    | claude => exact chunk_text _ format includeUsage _ _ rfl
    | openai =>
      apply chunk_text
      split <;> rfl

theorem encode_other (outside : Outside) (format : StreamFormat) (openAi : format.protocol = .openAi) (s : StreamState)
    {event : KiroEvent} (other : callId event = none) :
    (encode outside format s (.event event)).1.toolIndices = s.toolIndices ∧
      (encode outside format s (.event event)).1.toolsWithInput = s.toolsWithInput ∧
      callDeltas (encode outside format s (.event event)).2 = [] := by
  simp only [encode, streamEvent, openAi]
  cases event with
  | toolUse => cases other
  | assistantResponse content => exact openaiText_other format s _ content
  | reasoning content signature redacted => exact openaiReasoning_other format s _ _ content
  | citations citations =>
    simp only [openaiEvent]
    split
    · exact ⟨rfl, rfl, rfl⟩
    · exact openaiText_other format _ _ _
  | _ => exact ⟨rfl, rfl, rfl⟩

theorem encodeAll_other (outside : Outside) (format : StreamFormat) (openAi : format.protocol = .openAi) (s : StreamState)
    {shown : List KiroEvent} (other : ∀ event ∈ shown, callId event = none) :
    (encodeAll outside format s (shown.map .event)).1.toolIndices = s.toolIndices ∧
      (encodeAll outside format s (shown.map .event)).1.toolsWithInput = s.toolsWithInput ∧
      callDeltas (encodeAll outside format s (shown.map .event)).2 = [] := by
  induction shown generalizing s with
  | nil => exact ⟨rfl, rfl, rfl⟩
  | cons event rest ih =>
    obtain ⟨indices, withInput, deltas⟩ := encode_other outside format openAi s (other event List.mem_cons_self)
    obtain ⟨later_indices, later_withInput, later_deltas⟩ := ih (encode outside format s (.event event)).1
      fun event member => other event (List.mem_cons_of_mem _ member)
    exact ⟨later_indices.trans indices, later_withInput.trans withInput, by
      rw [List.map_cons, encodeAll, callDeltas_append, deltas, later_deltas, List.nil_append]⟩

section Plain

variable {outside : Outside} {request : StreamRequest}

def Renamed (event named : KiroEvent) : Prop :=
  callId named = callId event ∧ ∀ id, endsCall id named ↔ endsCall id event

theorem renamed_restored (names webToolNames : List (String × String)) (event : KiroEvent) :
    Renamed event (restoreWebToolName webToolNames (restoreToolEventName names event).1) := by
  cases event with
  | toolUse id name inputDelta stop =>
    obtain ⟨restored, listed, restores, -⟩ := restoreToolEventName_tool names id name inputDelta stop
    rw [restores]
    exact ⟨rfl, fun _ => Iff.rfl⟩
  | _ => exact ⟨rfl, fun _ => Iff.rfl⟩

theorem visible_calls (filter : StopSequenceFilter) (event : KiroEvent) :
    (clientVisibleEvent filter event).2.toList = [event] ∨
      callId event = none ∧ ∀ shown ∈ (clientVisibleEvent filter event).2.toList, callId shown = none := by
  cases event with
  | assistantResponse content =>
    refine .inr ⟨rfl, fun shown member => ?_⟩
    simp only [clientVisibleEvent] at member
    split at member
    · cases member
    · cases List.mem_singleton.1 member
      rfl
  | _ => exact .inl rfl

theorem Hearing.push_plain (plain : request.Plain) {h next : Hearing} {event : KiroEvent} {shown : List KiroEvent}
    (pushed : h.push outside request false event = (next, shown, none)) :
    ∃ named before after, Renamed event named ∧ h.decoded.push outside named = .ok next.decoded ∧
      shown = before ++ after ∧ (∀ event ∈ before, callId event = none) ∧
      (after = [named] ∨ callId named = none ∧ ∀ event ∈ after, callId event = none) := by
  have tool_search (event : KiroEvent) : eventIsToolSearch request.config.toolSearch event = false := by
    rw [plain.toolSearch]
    cases event <;> rfl
  have web_search (event : KiroEvent) : eventIsWebSearch request.config.webSearchMaxRounds event = false := by
    rw [plain.webSearch]
    cases event <;> simp [eventIsWebSearch]
  have shows (visible : Option KiroEvent) : (visible.filter fun _ => true) = visible := by cases visible <;> rfl
  simp only [Hearing.push, tool_search, web_search, plain.functions.unbuffered, Bool.or_false, Bool.false_eq_true, if_false,
    Bool.not_false, Bool.and_true, shows] at pushed
  have renamed := renamed_restored h.upstreamToolNames request.webToolNames event
  generalize restoreWebToolName request.webToolNames (restoreToolEventName h.upstreamToolNames event).1 = named at *
  cases taken : h.decoded.push outside named with
  | error message => simp [taken] at pushed
  | ok decoded =>
    simp only [taken, Prod.mk.injEq, and_true] at pushed
    obtain ⟨rfl, rfl⟩ := pushed
    refine ⟨named, _, _, renamed, taken, rfl, fun event member => ?_, visible_calls _ named⟩
    split at member
    · cases member
    · cases List.mem_singleton.1 member
      rfl

theorem eraseDups_snoc (ids : List String) (id : String) :
    (ids ++ [id]).eraseDups = if id ∈ ids then ids.eraseDups else ids.eraseDups ++ [id] := by
  rw [List.eraseDups_append]
  by_cases known : id ∈ ids
  · simp [known, List.removeAll]
  · simp [known, List.removeAll, List.eraseDups_cons]

theorem place_keys {β : Type} (key : String) (f : Option β → β) (entries : List (String × β)) :
    (SortedMap.place key f entries).map (·.1) =
      if key ∈ entries.map (·.1) then entries.map (·.1) else entries.map (·.1) ++ [key] := by
  unfold SortedMap.place
  split
  · rw [List.map_map]
    refine List.map_congr_left fun entry _ => ?_
    simp only [Function.comp_apply]
    split <;> rfl
  · simp

theorem place_complete {calls : List (String × Call)} {id name inputDelta other : String} {stop : Bool} {call : Call}
    (member : (other, call) ∈ SortedMap.place id (Call.absorb id name inputDelta stop) calls)
    (complete : call.complete = true) :
    (∃ earlier : Call, (other, earlier) ∈ calls ∧ earlier.complete = true) ∨ other = id ∧ stop = true := by
  have absorbed (known : Option Call) : (Call.absorb id name inputDelta stop known).complete =
      ((known.getD (.new id name)).complete || stop) := by
    rw [Call.absorb, Call.add_complete]
  unfold SortedMap.place at member
  split at member
  · obtain ⟨entry, there, same⟩ := List.mem_map.1 member
    split at same
    case isTrue key =>
      cases same
      rw [absorbed, Option.getD_some, Bool.or_eq_true] at complete
      rcases complete with earlier | stops
      · exact .inl ⟨entry.2, there, earlier⟩
      · exact .inr ⟨key, stops⟩
    case isFalse =>
      subst same
      exact .inl ⟨call, there, complete⟩
  · rcases List.mem_append.1 member with there | new
    · exact .inl ⟨call, there, complete⟩
    · cases List.mem_singleton.1 new
      rw [absorbed] at complete
      exact .inr ⟨rfl, complete⟩

theorem Followed.push (plain : request.Plain) {events : List KiroEvent} {calls : List (String × Call)} {h next : Hearing}
    {s : StreamState} {deltas : List CallDelta} {event : KiroEvent} {shown : List KiroEvent}
    (followed : Followed events calls h.decoded s deltas)
    (running : ∀ earlier ∈ events, ∀ id, endsCall id earlier → callId event ≠ some id)
    (pushed : h.push outside request false event = (next, shown, none)) :
    let sent := encodeAll outside request.format s (shown.map .event)
    ∃ calls, Followed (events ++ [event]) calls next.decoded sent.1 (deltas ++ callDeltas sent.2) := by
  obtain ⟨named, before, after, renamed, taken, rfl, quiet, either⟩ := Hearing.push_plain plain pushed
  have gathered := followed.gathered.push taken
  obtain ⟨indices, withInput, silent⟩ := encodeAll_other outside request.format plain.openAi s quiet
  have telling := followed.telling.same indices withInput
  simp only [List.map_append, encodeAll_append, callDeltas_append, silent, List.nil_append]
  generalize (encodeAll outside request.format s (before.map .event)).1 = s at telling ⊢
  refine ⟨arrive calls named, ?_⟩
  cases identified : callId event with
  | none =>
    have other : ∀ event ∈ after, callId event = none := by
      rcases either with rfl | ⟨-, other⟩
      · intro shown member
        rw [List.mem_singleton.1 member, renamed.1, identified]
      · exact other
    obtain ⟨indices, withInput, silent⟩ := encodeAll_other outside request.format plain.openAi s other
    have same : arrive calls named = calls := by
      cases named with
      | toolUse => rw [← renamed.1] at identified; cases identified
      | _ => rfl
    rw [same, silent, List.append_nil]
    rw [same] at gathered
    refine ⟨telling.same indices withInput, gathered, ?_, ?_, fun id call member complete => ?_⟩
    · simp [followed.ids, identified]
    · simp [followed.named, identified]
    · obtain ⟨earlier, there, ends⟩ := followed.ended id call member complete
      exact ⟨earlier, List.mem_append_left _ there, ends⟩
  | some id =>
    obtain ⟨name, inputDelta, stop, rfl⟩ : ∃ name inputDelta stop, named = .toolUse id name inputDelta stop := by
      rw [← renamed.1] at identified
      cases named with
      | toolUse other name inputDelta stop =>
        cases identified
        exact ⟨name, inputDelta, stop, rfl⟩
      | _ => cases identified
    obtain rfl := either.resolve_right fun other => nomatch other.1
    have runs (call : Call) (member : (id, call) ∈ calls) : call.complete = false := by
      by_contra complete
      obtain ⟨earlier, there, ends⟩ := followed.ended id call member (by simpa using complete)
      exact running earlier there id ends identified
    have told := telling.fragment outside request.format plain.functions runs name inputDelta stop
    have encoded : encodeAll outside request.format s ([.toolUse id name inputDelta stop].map .event) =
        openaiEvent outside request.format s (.toolUse id name inputDelta stop) := by
      simp [encodeAll, encode, streamEvent, plain.openAi]
    rw [encoded]
    refine ⟨told, gathered, ?_, ?_, fun other call member complete => ?_⟩
    · rw [arrive, place_keys, followed.ids, List.filterMap_append, List.filterMap_cons_some identified, List.filterMap_nil,
        eraseDups_snoc]
      simp only [List.mem_eraseDups]
    · rw [List.filterMap_append, fragment_named outside request.format plain.functions, followed.named,
        List.filterMap_append, List.filterMap_cons_some identified, List.filterMap_nil]
    · rcases place_complete member complete with ⟨earlier, there, ended⟩ | ⟨rfl, rfl⟩
      · obtain ⟨event, before, ends⟩ := followed.ended other earlier there ended
        exact ⟨event, List.mem_append_left _ before, ends⟩
      · exact ⟨event, List.mem_append_right _ List.mem_cons_self, (renamed.2 other).1 ⟨rfl, rfl⟩⟩

theorem Followed.pushAll (plain : request.Plain) {done events : List KiroEvent} {calls : List (String × Call)}
    {h next : Hearing} {s : StreamState} {deltas : List CallDelta} {shown : List KiroEvent}
    (followed : Followed done calls h.decoded s deltas) (once : EndsOnce (done ++ events))
    (heard : h.pushAll outside request false events = (next, shown, none)) (unmatched : next.stopFilter.matched = none) :
    let sent := encodeAll outside request.format s (shown.map .event)
    ∃ calls, Followed (done ++ events) calls next.decoded sent.1 (deltas ++ callDeltas sent.2) := by
  induction events generalizing done calls h s deltas shown with
  | nil =>
    cases heard
    refine ⟨calls, ?_⟩
    simpa [encodeAll, callDeltas] using followed
  | cons event rest ih =>
    have running : ∀ earlier ∈ done, ∀ id, endsCall id earlier → callId event ≠ some id := by
      intro earlier there
      exact (List.pairwise_append.1 once).2.2 earlier there event List.mem_cons_self
    rw [Hearing.pushAll] at heard
    rcases pushed : h.push outside request false event with ⟨middle, first, failed⟩
    simp only [pushed] at heard
    split at heard
    case isTrue stopped =>
      cases heard
      simp [unmatched] at stopped
    case isFalse going =>
      have fine : failed = none := by
        rw [← Option.not_isSome_iff_eq_none]
        exact fun fails => going (.inl fails)
      subst fine
      rcases later : Hearing.pushAll outside request false middle rest with ⟨last, more, failed⟩
      simp only [later] at heard
      cases heard
      obtain ⟨calls, followed⟩ := followed.push plain running pushed
      rw [List.append_cons]
      have reached := ih followed (by rwa [← List.append_cons]) later
      simpa [List.map_append, encodeAll_append, List.append_assoc] using reached

theorem Followed.listen (plain : request.Plain) {attempt : Attempt} {h next : Hearing} {s : StreamState}
    {shown : List KiroEvent} (fresh : h.decoded.tools = []) (unsent : s.toolIndices = [] ∧ s.toolsWithInput = [])
    (once : EndsOnce (attempt.round.events ++ attempt.flush))
    (heard : h.listen outside request false attempt = (next, shown, none)) (unmatched : next.stopFilter.matched = none) :
    let sent := encodeAll outside request.format s (shown.map .event)
    ∃ calls, Followed (attempt.round.events ++ attempt.flush) calls next.decoded sent.1 (callDeltas sent.2) := by
  have start : Followed [] [] h.decoded s [] :=
    ⟨.initial unsent, .initial fresh, rfl, rfl, fun _ _ member => absurd member List.not_mem_nil⟩
  rcases first : h.pushAll outside request false attempt.round.events with ⟨middle, early, failed⟩
  simp only [Hearing.listen, first] at heard
  split at heard
  case isTrue matched =>
    cases heard
    simp [unmatched] at matched
  case isFalse going =>
    rcases second : middle.pushAll outside request false attempt.flush with ⟨last, late, error⟩
    simp only [second, Prod.mk.injEq, Option.or_eq_none_iff] at heard
    obtain ⟨rfl, rfl, rfl, rfl, -⟩ := heard
    have before : EndsOnce ([] ++ attempt.round.events) := (List.pairwise_append.1 once).1
    obtain ⟨calls, followed⟩ := start.pushAll plain before first (by simpa using going)
    have reached := followed.pushAll plain (by simpa using once) second unmatched
    simpa [List.map_append, encodeAll_append] using reached

end Plain

/-! ### The end of a round -/

def completion (s : StreamState) (entry : String × ToolBuffer) : Option CallDelta :=
  if entry.2.input ≠ "\x7b\x7d" ∨ entry.2.id ∈ s.toolsWithInput then none
  else (s.toolIndices.lookup entry.2.id).map fun index => ⟨index, none, "\x7b\x7d"⟩

theorem finish_deltas (format : StreamFormat) (s : StreamState) (decoded : DecodedResponse) (maxTokens : Option Nat)
    (currentRoundOutputTokens : Nat) (includeUsage : Bool) :
    callDeltas (openaiFinish format s decoded maxTokens currentRoundOutputTokens includeUsage) =
      decoded.tools.filterMap (completion s) := by
  have closing (text : String) : (openaiChunk s format includeUsage (.object [("content", .string text)]) .null).callDeltas =
      [] := chunk_text s format includeUsage _ _ rfl
  have ending (reason : Value) : (openaiChunk s format includeUsage (.object []) reason).callDeltas = [] :=
    chunk_text s format includeUsage _ _ rfl
  have calls (entry : String × ToolBuffer) : (if entry.2.input ≠ "\x7b\x7d" ∨ entry.2.id ∈ s.toolsWithInput then none
      else (s.toolIndices.lookup entry.2.id).map fun index =>
        Value.object [("function", .object [("arguments", .string "\x7b\x7d")]), ("index", natural index)]).bind
        CallDelta.read = completion s entry := by
    unfold completion
    split
    · rfl
    · cases s.toolIndices.lookup entry.2.id <;> rfl
  have none (condition : Prop) [Decidable condition] (frame : Frame) (empty : frame.callDeltas = []) :
      callDeltas (if condition then [frame] else []) = [] := by
    split
    · rw [callDeltas, List.flatMap_singleton, empty]
    · rfl
  unfold openaiFinish
  dsimp only
  rw [callDeltas_append, callDeltas_append, callDeltas_append, callDeltas_append, none _ _ (closing _),
    none _ (.chunk _) rfl]
  have tail (reason : Value) : callDeltas [openaiChunk s format includeUsage (.object []) reason] = [] := by
    rw [callDeltas, List.flatMap_singleton, ending]
  have done : callDeltas [Frame.done] = [] := rfl
  rw [tail, done, List.append_nil, List.append_nil, List.append_nil, List.append_nil]
  simp only [← calls]
  rw [← List.filterMap_filterMap]
  split
  case isTrue empty =>
    rw [List.isEmpty_iff.1 empty]
    rfl
  case isFalse =>
    rw [callDeltas, List.flatMap_singleton, chunk_calls]

theorem argumentsAt_completions {s : StreamState} {tools : List (String × ToolBuffer)} {id : String} {tool : ToolBuffer}
    {index : Nat} (distinct : (tools.map (·.1)).Nodup) (keyed : ∀ entry ∈ tools, entry.2.id = entry.1)
    (listed : s.toolIndices.lookup id = some index) (only : ∀ other, s.toolIndices.lookup other = some index → other = id)
    (member : (id, tool) ∈ tools) :
    argumentsAt (tools.filterMap (completion s)) index =
      if tool.input ≠ "\x7b\x7d" ∨ id ∈ s.toolsWithInput then [] else ["\x7b\x7d"] := by
  obtain ⟨before, after, rfl⟩ := List.append_of_mem member
  rw [List.map_append, List.map_cons, List.nodup_append] at distinct
  obtain ⟨-, rest, apart⟩ := distinct
  have elsewhere (part : List (String × ToolBuffer)) (inside : ∀ entry ∈ part, entry ∈ before ++ (id, tool) :: after)
      (absent : id ∉ part.map (·.1)) : argumentsAt (part.filterMap (completion s)) index = [] := by
    refine List.map_eq_nil_iff.2 (List.filter_eq_nil_iff.2 fun delta there same => ?_)
    obtain ⟨entry, entry_in, completes⟩ := List.mem_filterMap.1 there
    unfold completion at completes
    split at completes
    · cases completes
    · obtain ⟨found, looked, rfl⟩ := Option.map_eq_some_iff.1 completes
      obtain rfl : found = index := by simpa using same
      have key := only _ looked
      rw [keyed entry (inside entry entry_in)] at key
      exact absent (List.mem_map.2 ⟨entry, entry_in, key⟩)
  have here : tool.id = id := keyed (id, tool) member
  rw [List.filterMap_append, argumentsAt_append,
    elsewhere before (fun entry there => List.mem_append_left _ there) (fun early => apart id early id List.mem_cons_self rfl),
    List.nil_append, ← List.singleton_append, List.filterMap_append, argumentsAt_append,
    elsewhere after (fun entry there => List.mem_append_right _ (List.mem_cons_of_mem _ there)) (List.nodup_cons.1 rest).1,
    List.append_nil]
  by_cases settled : tool.input ≠ "\x7b\x7d" ∨ id ∈ s.toolsWithInput
  · have silent : completion s (id, tool) = none := by
      unfold completion
      rw [here, if_pos settled]
    rw [List.filterMap_cons_none silent, if_pos settled]
    rfl
  · have completes : completion s (id, tool) = some ⟨index, none, "\x7b\x7d"⟩ := by
      unfold completion
      rw [here, if_neg settled, listed, Option.map_some]
    rw [List.filterMap_cons_some completes, if_neg settled]
    simp [argumentsAt]

/-- The chunks of a round, and its record before and after the inputs are completed. The calls are numbered as they
first appear. -/
structure ArgumentsAgree (events : List KiroEvent) (deltas : List CallDelta) (raw decoded : DecodedResponse) : Prop where
  named : deltas.filterMap (·.id) = events.filterMap callId
  numbered : ∀ delta ∈ deltas, ∃ id, (events.filterMap callId).eraseDups[delta.index]? = some id ∧
    ∀ name ∈ delta.id, name = id
  recorded : (decoded.tools.map (·.1)).Perm (events.filterMap callId).eraseDups
  same : ∀ index id tool, (events.filterMap callId).eraseDups[index]? = some id → decoded.tools.lookup id = some tool →
    ∃ blank, Text.trim blank = "" ∧ tool.input = blank ++ String.join (argumentsAt deltas index)
  blank : ∀ index id tool, (events.filterMap callId).eraseDups[index]? = some id → raw.tools.lookup id = some tool →
    Text.trim tool.input = "" → (argumentsAt deltas index).filter (· ≠ "") = ["\x7b\x7d"]

theorem join_filter (texts : List String) : String.join (texts.filter (· ≠ "")) = String.join texts := by
  induction texts with
  | nil => rfl
  | cons text rest ih =>
    by_cases empty : text = ""
    · rw [List.filter_cons_of_neg (by simpa using empty), ih, String.join_cons, empty, String.empty_append]
    · rw [List.filter_cons_of_pos (by simpa using empty), String.join_cons, String.join_cons, ih]

theorem Call.told_finished {call : Call} {arguments : List String} (told : call.Told arguments) :
    let all := arguments ++ if (finalized call.buffer).input ≠ "\x7b\x7d" ∨ call.settled = true then [] else ["\x7b\x7d"]
    (∃ blank, Text.trim blank = "" ∧ (finalized call.buffer).input = blank ++ String.join all) ∧
      (Text.trim call.buffer.input = "" → all.filter (· ≠ "") = ["\x7b\x7d"]) := by
  intro all
  unfold Told at told
  by_cases unsent : call.sent = ""
  · have blank : Text.trim call.buffer.input = "" := by simpa [buffer, unsent] using call.blanks
    have input : (finalized call.buffer).input = "\x7b\x7d" := by rw [finalized, if_pos blank]
    rw [if_pos unsent] at told
    have whole : all.filter (· ≠ "") = ["\x7b\x7d"] := by
      simp only [all, input, List.filter_append, told]
      cases complete : call.complete with
      | false => simp [settled, unsent, complete]
      | true => simp [settled, unsent, complete]
    refine ⟨⟨"", rfl, ?_⟩, fun _ => whole⟩
    rw [← join_filter, whole, input]
    rfl
  · have solid : Text.trim call.buffer.input ≠ "" := by
      intro blank
      exact call.solid.resolve_left unsent (Text.trim_append_empty.1 blank).2
    rw [if_neg unsent] at told
    have settles : call.settled = true := by simp [settled, unsent]
    refine ⟨⟨call.blank, call.blanks, ?_⟩, fun blank => absurd blank solid⟩
    simp only [all, settles, or_true, if_true, List.append_nil, told]
    rw [finalized, if_neg solid]
    rfl

def finishedTools (tools : List (String × ToolBuffer)) : List (String × ToolBuffer) :=
  tools.map fun (key, tool) => (key, finalized tool)

theorem finishedTools_keys (tools : List (String × ToolBuffer)) :
    (finishedTools tools).map (·.1) = tools.map (·.1) := by
  rw [finishedTools, List.map_map]
  rfl

theorem Followed.agree {outside : Outside} {events : List KiroEvent} {calls : List (String × Call)}
    {raw decoded : DecodedResponse} {s : StreamState} {deltas : List CallDelta} (followed : Followed events calls raw s deltas)
    (finalizes : raw.finalizeToolInputs outside = .ok decoded) :
    ArgumentsAgree events (deltas ++ decoded.tools.filterMap (completion s)) raw decoded := by
  obtain ⟨telling, gathered, ids, named, -⟩ := followed
  obtain rfl : decoded = { raw with tools := finishedTools raw.tools } := (finalize_ok finalizes).1
  have keys : (raw.tools.map (·.1)).Perm (calls.map (·.1)) := by
    have mapped := gathered.tools.map (·.1)
    simpa [Function.comp_def] using mapped
  have raw_distinct : (raw.tools.map (·.1)).Nodup := keys.nodup_iff.2 telling.distinct
  have indexed {other : String} {index : Nat} (looked : s.toolIndices.lookup other = some index) :
      (calls.map (·.1))[index]? = some other := by
    have member := mem_of_lookup looked
    rw [telling.indices, List.mem_reverse] at member
    exact List.mem_zipIdx_iff_getElem?.1 member
  have completions {delta : CallDelta}
      (member : delta ∈ (finishedTools raw.tools).filterMap (completion s)) :
      delta.id = none ∧ ∃ id, (calls.map (·.1))[delta.index]? = some id := by
    obtain ⟨entry, -, completes⟩ := List.mem_filterMap.1 member
    unfold completion at completes
    split at completes
    · cases completes
    · obtain ⟨index, looked, rfl⟩ := Option.map_eq_some_iff.1 completes
      exact ⟨rfl, _, indexed looked⟩
  have keyed : ∀ entry ∈ finishedTools raw.tools, entry.2.id = entry.1 := by
    intro entry member
    obtain ⟨⟨key, tool⟩, there, rfl⟩ := List.mem_map.1 member
    obtain ⟨call, known, same⟩ := List.mem_map.1 (gathered.tools.mem_iff.1 there)
    cases same
    exact (finalized_id call.2.buffer).trans (gathered.keys call known)
  -- Of each call the record has what the fragments made of it, and the client what the encoder passed on.
  have each (index : Nat) (id : String) (there : (events.filterMap callId).eraseDups[index]? = some id) :
      ∃ call : Call, raw.tools.lookup id = some call.buffer ∧
        (finishedTools raw.tools).lookup id = some (finalized call.buffer) ∧
        call.Told (argumentsAt deltas index) ∧
        argumentsAt (deltas ++ (finishedTools raw.tools).filterMap (completion s)) index =
          argumentsAt deltas index ++ if (finalized call.buffer).input ≠ "\x7b\x7d" ∨ call.settled = true then [] else ["\x7b\x7d"] := by
    rw [← ids, List.getElem?_map] at there
    obtain ⟨⟨key, call⟩, here, same⟩ := Option.map_eq_some_iff.1 there
    obtain rfl : id = key := same.symm
    have known := List.mem_of_getElem? here
    have recorded := gathered.tools.mem_iff.2 (List.mem_map.2 ⟨_, known, rfl⟩)
    have finished : (id, finalized call.buffer) ∈ finishedTools raw.tools :=
      List.mem_map.2 ⟨_, recorded, rfl⟩
    have settles : id ∈ s.toolsWithInput ↔ call.settled = true := by
      rw [telling.withInput]
      constructor
      · rintro ⟨other, member, settled⟩
        have same := (lookup_of_mem telling.distinct member).symm.trans (lookup_of_mem telling.distinct known)
        rwa [Option.some.inj same] at settled
      · exact fun settled => ⟨call, known, settled⟩
    have listed : s.toolIndices.lookup id = some index := by
      rw [telling.indices]
      exact lookup_zipIdx telling.distinct (by rw [List.getElem?_map, here]; rfl)
    refine ⟨call, lookup_of_mem raw_distinct recorded, lookup_of_mem (finishedTools_keys raw.tools ▸ raw_distinct) finished,
      telling.told index id call here, ?_⟩
    rw [argumentsAt_append, argumentsAt_completions (finishedTools_keys raw.tools ▸ raw_distinct) keyed listed ?_ finished]
    · simp only [settles]
    · intro other looked
      have same := (indexed looked).symm.trans (by rw [List.getElem?_map, here]; rfl : (calls.map (·.1))[index]? = some id)
      exact Option.some.inj same
  constructor
  · rw [List.filterMap_append, named, List.filterMap_eq_nil_iff.2 fun delta member => (completions member).1, List.append_nil]
  · intro delta member
    rw [← ids]
    rcases List.mem_append.1 member with early | late
    · obtain ⟨id, named, there⟩ := telling.placed delta early
      exact ⟨id, there, fun name same => by rw [named] at same; exact (Option.some.inj same).symm⟩
    · obtain ⟨unnamed, id, there⟩ := completions late
      exact ⟨id, there, fun name same => by rw [unnamed] at same; cases same⟩
  · rw [finishedTools_keys, ← ids]
    exact keys
  · intro index id tool there looked
    obtain ⟨call, -, finished, told, all⟩ := each index id there
    obtain rfl := Option.some.inj (finished.symm.trans looked)
    rw [all]
    exact (Call.told_finished told).1
  · intro index id tool there looked blank
    obtain ⟨call, recorded, -, told, all⟩ := each index id there
    obtain rfl := Option.some.inj (recorded.symm.trans looked)
    rw [all]
    exact (Call.told_finished told).2 blank

/-! ### The loop -/

theorem done_not_encoded (outside : Outside) (format : StreamFormat) (s : StreamState) (operations : List Operation) :
    Frame.done ∉ (encodeAll outside format s operations).2 := by
  have claude (events : List SseEvent) : Frame.done ∉ events.map .claude := by simp
  have event (s : StreamState) (event : KiroEvent) : Frame.done ∉ (openaiEvent outside format s event).2 := by
    cases event with
    | citations citations =>
      simp only [openaiEvent]
      split <;> simp [openaiChunk]
    | _ => simp [openaiEvent, openaiChunk]
  induction operations generalizing s with
  | nil => exact List.not_mem_nil
  | cons operation rest ih =>
    have first : Frame.done ∉ (encode outside format s operation).2 := by
      unfold encode streamEvent
      split
      · split
        · exact claude _
        · exact event s _
      · exact claude _
      · exact List.not_mem_nil
    rw [encodeAll, List.mem_append]
    exact not_or.2 ⟨first, ih _⟩

section Loop

variable {outside : Outside} {request : StreamRequest}

theorem plain_of_unbuffered {tryEncrypt : Encrypt} (openAi : request.format.protocol = .openAi)
    (functions : Functions request.format.openaiTools)
    (unbuffered : (StreamLoop.start outside request tryEncrypt).buffers = false) : request.Plain := by
  simp only [StreamLoop.start, Bool.or_eq_false_iff, decide_eq_false_iff_not, Option.isSome_eq_false_iff,
    Option.isNone_iff_eq_none] at unbuffered
  exact ⟨openAi, unbuffered.1.1.2, by omega, functions⟩

theorem take_none (decoded : DecodedResponse) : decoded.takeToolUsesWhere outside (fun _ => false) = (decoded, []) := by
  simp [DecodedResponse.takeToolUsesWhere]

theorem stopFor_tools (decoded : DecodedResponse) (reason : Option String) : (stopFor decoded reason).tools = decoded.tools := by
  unfold stopFor
  split <;> rfl

variable (outside) in
theorem proceed_plain (plain : request.Plain) (record : StreamRecord) (attempt : Attempt) (exhausted : Bool)
    (decoded : DecodedResponse) :
    (record.proceed outside request attempt exhausted decoded).1 = [] ∧
      ∀ next final, (record.proceed outside request attempt exhausted decoded).2 = .ends next final →
        final.tools = decoded.tools := by
  have unseen (calls : List SearchCall) : callOperations request attempt.tryEncrypt calls = [] := by
    simp [callOperations, plain.openAi]
  have tools : decoded.takeToolUsesWhere outside (fun tool =>
      (request.config.toolSearch.getD []).isSearchTool tool.name) = (decoded, []) := by
    rw [plain.toolSearch]
    exact take_none decoded
  simp only [StreamRecord.proceed, unseen, List.all_nil, if_true, true_and]
  intro next final ends
  simp only [StreamRecord.conclude, tools, plain.webSearch, lt_irrefl, if_false, ne_eq, not_true_eq_false] at ends
  split at ends
  · cases ends
    exact stopFor_tools decoded _
  · split at ends <;> cases ends

variable (outside) in
theorem closing_deltas (plain : request.Plain) (claude : StreamState) (ending : StreamEnding)
    (unmatched : ending.stopFilter.matched = none) :
    callDeltas (closingFrames outside request false claude ending) = ending.decoded.tools.filterMap (completion claude) := by
  have buffered (calls : List KiroEvent) : calls.filter (shouldBufferToolEvent false request.format.openaiTools) = [] :=
    List.filter_eq_nil_iff.2 fun event _ => by simp [plain.functions.unbuffered]
  have still : ending.stopFilter.finish.1.matched = none := by rw [StopSequenceFilter.finish_matched, unmatched]
  let trailing : List KiroEvent := if ending.stopFilter.finish.2 = "" then []
    else [.assistantResponse ending.stopFilter.finish.2]
  have operations : (if ending.stopFilter.finish.2 = "" then []
      else [Operation.event (.assistantResponse ending.stopFilter.finish.2)]) = trailing.map .event := by
    unfold trailing
    split <;> rfl
  have text : ∀ event ∈ trailing, callId event = none := by
    intro event member
    unfold trailing at member
    split at member
    · cases member
    · cases List.mem_singleton.1 member
      rfl
  obtain ⟨indices, withInput, silent⟩ := encodeAll_other outside request.format plain.openAi claude text
  simp only [closingFrames, applyStreamStop, still, plain.openAi, reduceCtorEq, false_and, if_false, buffered, List.map_nil,
    operations]
  generalize encodeAll outside request.format claude (trailing.map .event) = sent at indices withInput silent
  simp only [encodeAll, finishFrames, plain.openAi, callDeltas_append, silent, finish_deltas]
  have same : completion { sent.1 with toClaudeState := sent.1.begin.state } = completion claude := by
    funext entry
    simp only [completion, ClaudeState.begin, indices, withInput]
  rw [same]
  rfl

theorem recover_sent (loop : StreamLoop) (attempt : Attempt) :
    (loop.recover outside request attempt).channel.sent = loop.channel.sent := by
  unfold StreamLoop.recover
  split
  · rfl
  · dsimp only
    split
    · rfl
    · rfl
    · split <;> rfl
    · rfl

variable (outside request) in
theorem start_plain (tryEncrypt : Encrypt) (openAi : request.format.protocol = .openAi) :
    (StreamLoop.start outside request tryEncrypt).channel = ⟨buildState request request.context.inputTokens, [], [], false, []⟩ ∧
      (StreamLoop.start outside request tryEncrypt).decoded = {} ∧
      (StreamLoop.start outside request tryEncrypt).ended = false := by
  simp [StreamLoop.start, initialOperations, openAi, encodeAll]

theorem perform_nil (channel : Channel) : channel.perform outside request [] = channel := by
  simp [Channel.perform, encodeAll, Channel.send]

theorem complete_sent (plain : request.Plain) {checkpoint : Channel} {attempt : Attempt} {loop : StreamLoop}
    {claude : StreamState} {frames : List Frame}
    (started : loop.channel = ({ claude := claude, pendingInitial := [] } : Channel).put attempt.round.toolResults frames)
    (unbuffered : loop.buffers = false) (unmatched : loop.stopFilter.matched = none) (unfinished : .done ∉ frames)
    (finished : .done ∈ (loop.complete outside request checkpoint attempt).channel.sent) :
    callDeltas (loop.complete outside request checkpoint attempt).channel.sent =
      callDeltas frames ++ loop.decoded.tools.filterMap (completion claude) := by
  obtain ⟨encoder, -, -, sent⟩ :=
    Channel.flushed ({ claude := claude, pendingInitial := [] } : Channel) rfl attempt.round.toolResults frames
  rw [← started] at encoder sent
  rw [List.nil_append, List.nil_append] at sent
  have kept : .done ∉ (loop.channel.flushInitial attempt.round.toolResults).sent := fun there =>
    unfinished (by rw [← sent]; exact List.mem_append_left _ there)
  simp only [StreamLoop.complete, unmatched, Option.isSome_none, Bool.false_eq_true, if_false] at finished ⊢
  generalize disposed : emptyToolResultDisposition _ _ _ _ = disposition at finished ⊢
  cases disposition with
  | accept =>
    simp only [StreamLoop.accept] at finished ⊢
    generalize proceeded : StreamRecord.proceed outside request loop.record attempt _ _ = next at finished ⊢
    obtain ⟨nothing, tools⟩ := proceed_plain outside plain loop.record attempt
      (StreamLoop.outputExhausted request loop.record (fillMissingUsage outside attempt.round.tokenizer loop.decoded))
      (fillMissingUsage outside attempt.round.tokenizer loop.decoded)
    rw [proceeded] at nothing tools
    obtain ⟨operations, conclusion⟩ := next
    obtain rfl : operations = [] := nothing
    simp only [perform_nil] at finished ⊢
    cases conclusion with
    | another record decoded => exact absurd (sent ▸ finished) unfinished
    | fails => exact absurd (sent ▸ finished) unfinished
    | ends record decoded =>
      have closing := closing_deltas outside plain claude
        ⟨loop.stopFilter, record, decoded, attempt.tryEncrypt, attempt.commit⟩ unmatched
      simp only [StreamLoop.finish, Channel.send, callDeltas_append, sent, encoder, unbuffered, closing]
      rw [tools record decoded rfl]
      rfl
  | retry =>
    simp only at finished
    split at finished <;> exact absurd finished kept
  | fail => exact absurd finished kept

theorem put_sent {claude : StreamState} {guards : Bool} {frames : List Frame} {frame : Frame}
    (sent : frame ∈ (({ claude := claude, pendingInitial := [] } : Channel).put guards frames).sent) : frame ∈ frames := by
  cases guards with
  | true => simp [Channel.put] at sent
  | false =>
    cases frames with
    | nil => exact sent
    | cons _ _ => exact sent

theorem read_finalized {buffers : Bool} {h next : Hearing} {attempt : Attempt} {shown : List KiroEvent}
    (heard : h.read outside request buffers attempt = (next, shown, none)) (unmatched : next.stopFilter.matched = none) :
    ∃ raw, h.listen outside request buffers attempt = (raw, shown, none) ∧ raw.stopFilter.matched = none ∧
      raw.decoded.finalizeToolInputs outside = .ok next.decoded := by
  rcases listened : h.listen outside request buffers attempt with ⟨raw, early, failed⟩
  simp only [Hearing.read, listened] at heard
  split at heard
  case isTrue fine =>
    split at heard
    case h_1 decoded finalizes =>
      cases heard
      obtain rfl := Option.isNone_iff_eq_none.1 fine.1
      exact ⟨raw, rfl, unmatched, finalizes⟩
    case h_2 => cases heard
  case isFalse other =>
    cases heard
    exact absurd ⟨rfl, Option.isNone_iff_eq_none.2 unmatched⟩ other

/-- The arguments of every call that an unbuffered round sends are those of the record, up to blanks ahead of them. -/
theorem streamed_arguments_agree (outside : Outside) (request : StreamRequest) (tryEncrypt : Encrypt) (attempt : Attempt)
    (openAi : request.format.protocol = .openAi) (functions : Functions request.format.openaiTools)
    (unbuffered : (StreamLoop.start outside request tryEncrypt).buffers = false)
    (once : EndsOnce (attempt.round.events ++ attempt.flush))
    (unmatched : ((StreamLoop.start outside request tryEncrypt).heard outside request attempt).1.stopFilter.matched = none)
    (finished : .done ∈ ((StreamLoop.start outside request tryEncrypt).step outside request attempt).channel.sent) :
    let loop := StreamLoop.start outside request tryEncrypt
    ArgumentsAgree (attempt.round.events ++ attempt.flush)
      (callDeltas (loop.step outside request attempt).channel.sent)
      (Hearing.listen outside request false { stopFilter := loop.stopFilter } attempt).1.decoded
      (loop.heard outside request attempt).1.decoded := by
  intro loop
  have plain := plain_of_unbuffered openAi functions unbuffered
  obtain ⟨channel, decoded, running⟩ := start_plain outside request tryEncrypt openAi
  have heard : loop.heard outside request attempt =
      Hearing.read outside request false { stopFilter := loop.stopFilter } attempt := by
    simp only [StreamLoop.heard, loop, decoded, unbuffered]
  rcases read : Hearing.read outside request false { stopFilter := loop.stopFilter } attempt with ⟨hearing, shown, failed⟩
  rw [heard, read] at unmatched
  simp only [StreamLoop.step, heard, read, loop, running, channel, Channel.emits, Bool.false_eq_true, if_false] at finished ⊢
  have unfinished := done_not_encoded outside request.format (buildState request request.context.inputTokens)
    (shown.map .event)
  have fine : failed = none := by
    by_contra fails
    rw [if_pos (Option.isSome_iff_ne_none.2 fails), recover_sent] at finished
    split at finished <;> exact unfinished (put_sent finished)
  subst fine
  obtain ⟨raw, listened, still, finalizes⟩ := read_finalized read unmatched
  obtain ⟨calls, followed⟩ := Followed.listen (s := buildState request request.context.inputTokens) plain rfl ⟨rfl, rfl⟩ once
    listened still
  have agree := followed.agree finalizes
  simp only [Option.isSome_none, Bool.false_eq_true, if_false] at finished ⊢
  rw [complete_sent plain (by exact rfl) (by exact unbuffered) (by exact unmatched) unfinished finished, listened]
  exact agree

end Loop

def chatRequest : StreamRequest where
  context := { requestId := "chatcmpl", model := "gpt", inputTokens := 1 }
  format := ⟨.openAi, 0, "gpt", .openai, [("count", ⟨"function", "count"⟩)]⟩
  config := { clientHasTools := true }

/-- Three calls whose fragments take turns: one is given arguments, one ends without any, and one does not end. -/
def takingTurns : List KiroEvent :=
  [.toolUse "c" "count" " " false, .toolUse "a" "count" "\x7b\"n\":" false, .toolUse "b" "count" "" true,
    .toolUse "a" "" "1\x7d" false, .toolUse "c" "" "" false, .toolUse "a" "" " " true]

theorem streamed_arguments_agree_turns :
    let loop := StreamLoop.start lenientOutside chatRequest fun _ => none
    ArgumentsAgree (takingTurns ++ [])
      (callDeltas (loop.step lenientOutside chatRequest (answered takingTurns false)).channel.sent)
      (Hearing.listen lenientOutside chatRequest false { stopFilter := loop.stopFilter }
        (answered takingTurns false)).1.decoded
      (loop.heard lenientOutside chatRequest (answered takingTurns false)).1.decoded := by
  have functions : Functions chatRequest.format.openaiTools := by
    intro entry member
    cases List.mem_singleton.1 member
    decide
  have once : EndsOnce (takingTurns ++ []) := by
    simp [EndsOnce, takingTurns, endsCall, callId]
  have finished : (((StreamLoop.start lenientOutside chatRequest fun _ => none).step lenientOutside chatRequest
      (answered takingTurns false)).channel.sent.any fun | .done => true | _ => false) = true := by
    set_option maxRecDepth 4000 in decide
  obtain ⟨frame, sent, last⟩ := List.any_eq_true.1 finished
  obtain rfl : frame = .done := by
    cases frame with
    | done => rfl
    | _ => cases last
  exact streamed_arguments_agree lenientOutside chatRequest (fun _ => none) (answered takingTurns false) rfl functions rfl
    once rfl sent

end KiroProxy.Http

import KiroProxy.Lib.Bytes
import KiroProxy.Lib.Overlap
import KiroProxy.Lib.Utf8Cut

/-! The stop filter over the bytes of the text, as the code runs it, and why it is a search for the
sequence that ends first. A string is its bytes; a cut inside a character is a panic. -/
namespace KiroProxy.Http.StopBytes

open Bytes Overlap

structure CompiledStopSequence where
  value : String
  failure : List Nat
  state : Nat := 0

def entryAt (table : List Nat) (i : Nat) : Except Stop Nat :=
  match table[i]? with
  | some n => .ok n
  | none => .error .panic

/-- `while state > 0 && byte != bytes[state]`; a loop that did not end would be a panic, too. -/
def fallBack (bytes : List UInt8) (failure : List Nat) (byte : UInt8) : Nat → Nat → Except Stop Nat
  | _, 0 => .ok 0
  | 0, _ + 1 => .error .panic
  | fuel + 1, state + 1 => do
    if byte = (← byteAt bytes (state + 1)) then return state + 1
    else fallBack bytes failure byte fuel (← entryAt failure state)

def extend (bytes : List UInt8) (failure : List Nat) (byte : UInt8) (state : Nat) : Except Stop Nat := do
  let state ← fallBack bytes failure byte state state
  return if byte = (← byteAt bytes state) then state + 1 else state

def CompiledStopSequence.new (value : String) : Except Stop CompiledStopSequence := do
  let bytes := utf8 value
  let (failure, _) ← (List.range' 1 (bytes.length - 1)).foldlM (fun (failure, border) index => do
    let border ← extend bytes failure (← byteAt bytes index) border
    return (failure.set index border, border)) (List.replicate bytes.length 0, 0)
  return { value := value, failure := failure }

def CompiledStopSequence.advance (sequence : CompiledStopSequence) (byte : UInt8) :
    Except Stop (CompiledStopSequence × Bool) := do
  let bytes := utf8 sequence.value
  let state ← extend bytes sequence.failure byte sequence.state
  return ({ sequence with state := state }, state = bytes.length)

/-- `str::is_char_boundary` -/
def isCharBoundary (text : List UInt8) (index : Nat) : Bool :=
  index = 0 || match text[index]? with
    | none => index = text.length
    | some byte => byte.toNat < 128 || 192 ≤ byte.toNat

def cut (text : List UInt8) (first last : Nat) : Except Stop (List UInt8) :=
  if first ≤ last ∧ isCharBoundary text first ∧ isCharBoundary text last then .ok ((text.take last).drop first)
  else .error .panic

structure StopSequenceFilter where
  sequences : List CompiledStopSequence
  pending : List UInt8 := []
  matched : Option String := none
  visibleBytes : Nat := 0

namespace StopSequenceFilter

def new (sequences : List String) : Except Stop StopSequenceFilter := do
  let compiled ← (sequences.filter (· ≠ "")).foldlM (fun compiled sequence => do
    if compiled.any (·.value = sequence) then return compiled
    return compiled ++ [← CompiledStopSequence.new sequence]) []
  return { sequences := compiled }

/-- `find_map`: the sequences after the first that is complete are not advanced. -/
def advanceAll : List CompiledStopSequence → UInt8 → Except Stop (List CompiledStopSequence × Option String)
  | [], _ => .ok ([], none)
  | sequence :: rest, byte => do
    let (sequence, complete) ← sequence.advance byte
    if complete then return (sequence :: rest, some sequence.value)
    else
      let (rest, found) ← advanceAll rest byte
      return (sequence :: rest, found)

/-- The match in a chunk, with the number of the chunk's bytes up to its end. -/
def scan (offset : Nat) : List CompiledStopSequence → List UInt8 →
    Except Stop (List CompiledStopSequence × Option (String × Nat))
  | sequences, [] => .ok (sequences, none)
  | sequences, byte :: rest => do
    match ← advanceAll sequences byte with
    | (sequences, some value) => return (sequences, some (value, offset + 1))
    | (sequences, none) => scan (offset + 1) sequences rest

def push (filter : StopSequenceFilter) (text : String) : Except Stop (StopSequenceFilter × List UInt8) := do
  if filter.matched.isSome then return (filter, [])
  if filter.sequences.isEmpty then
    return ({ filter with visibleBytes := filter.visibleBytes + (utf8 text).length }, utf8 text)
  let pending := filter.pending ++ utf8 text
  match ← scan filter.pending.length filter.sequences (utf8 text) with
  | (sequences, some (value, matchEnd)) =>
    let visible ← cut pending 0 (matchEnd - (utf8 value).length)
    return ({ sequences := sequences, pending := [], matched := some value,
              visibleBytes := filter.visibleBytes + visible.length }, visible)
  | (sequences, none) =>
    let retained := (sequences.map (·.state)).foldl max 0
    let split := pending.length - retained
    let visible ← cut pending 0 split
    let pending ← cut pending split pending.length
    return ({ filter with
      sequences := sequences, pending := pending, visibleBytes := filter.visibleBytes + visible.length }, visible)

def finish (filter : StopSequenceFilter) : StopSequenceFilter × List UInt8 :=
  let sequences := filter.sequences.map fun sequence => { sequence with state := 0 }
  if filter.matched.isSome then ({ filter with sequences := sequences, pending := [] }, [])
  else
    ({ filter with
       sequences := sequences, pending := [],
       visibleBytes := filter.visibleBytes + filter.pending.length }, filter.pending)

def pushAll (filter : StopSequenceFilter) : List String → Except Stop (StopSequenceFilter × List UInt8)
  | [] => .ok (filter, [])
  | text :: rest => do
    let (filter, visible) ← filter.push text
    let (filter, later) ← pushAll filter rest
    return (filter, visible ++ later)

end StopSequenceFilter
/-! ### One automaton -/

section Automaton

variable {bytes text : List UInt8} {failure : List Nat} {byte : UInt8} {state : Nat}

/-- The table up to an entry: how much of the sequence's beginning each part of it ends with. -/
def Tabulated (bytes : List UInt8) (failure : List Nat) (limit : Nat) : Prop :=
  ∀ k, 0 < k → k ≤ limit → ∃ border, failure[k - 1]? = some border ∧ Longest bytes (bytes.take k).tail border

theorem byteAt_some {i : Nat} (inside : i < bytes.length) : byteAt bytes i = .ok bytes[i] := by
  rw [byteAt, List.getElem?_eq_getElem inside]

theorem fallBack_ok {fuel : Nat} (enough : state ≤ fuel) (inside : state < bytes.length)
    (table : Tabulated bytes failure state) (trying : Trying bytes text byte state) :
    ∃ next, fallBack bytes failure byte fuel state = .ok next ∧ next < bytes.length ∧ Trying bytes text byte next ∧
      (next = 0 ∨ bytes[next]? = some byte) := by
  induction fuel generalizing state with
  | zero =>
    obtain rfl : state = 0 := by omega
    exact ⟨0, rfl, inside, trying, .inl rfl⟩
  | succ fuel ih =>
    cases state with
    | zero => exact ⟨0, rfl, inside, trying, .inl rfl⟩
    | succ state =>
      rw [fallBack, byteAt_some inside]
      dsimp only [bind, Except.bind]
      by_cases same : byte = bytes[state + 1]
      · rw [if_pos same]
        exact ⟨state + 1, rfl, inside, trying, .inr (by rw [List.getElem?_eq_getElem inside, same])⟩
      · rw [if_neg same]
        have other : bytes[state + 1]? ≠ some byte := by
          rw [List.getElem?_eq_getElem inside]
          exact fun here => same (Option.some.inj here).symm
        obtain ⟨border, entry, longest⟩ := table (state + 1) (by omega) (Nat.le_refl _)
        have shorter := border_lt (by omega) (Nat.succ_pos state) longest
        rw [entryAt, show failure[state]? = some border from entry]
        apply ih
        · omega
        · omega
        · intro k positive small
          exact table k positive (by omega)
        · exact trying.back (by omega) (Nat.succ_pos state) other longest

theorem extend_ok (inside : state < bytes.length) (table : Tabulated bytes failure state)
    (longest : Longest bytes text state) (byte : UInt8) :
    ∃ next, extend bytes failure byte state = .ok next ∧ Longest bytes (text ++ [byte]) next := by
  obtain ⟨back, fell, within, trying, stopped⟩ :=
    fallBack_ok (Nat.le_refl state) inside table (longest.trying byte)
  unfold extend
  rw [fell]
  dsimp only [bind, Except.bind]
  rw [byteAt_some within]
  by_cases same : byte = bytes[back]
  · refine ⟨back + 1, by simp [same, pure, Except.pure], trying.found ?_⟩
    rw [List.getElem?_eq_getElem within, same]
  · refine ⟨back, by simp [same, pure, Except.pure], ?_⟩
    have other : bytes[back]? ≠ some byte := by
      rw [List.getElem?_eq_getElem within]
      exact fun here => same (Option.some.inj here).symm
    obtain rfl := stopped.resolve_right other
    exact trying.none other

theorem table_ok (index count border : Nat) (some_done : 0 < index) (all : index + count = bytes.length)
    (size : failure.length = bytes.length) (table : Tabulated bytes failure index)
    (longest : Longest bytes (bytes.take index).tail border) :
    ∃ filled last, (List.range' index count).foldlM (fun (failure, border) index => do
        let border ← extend bytes failure (← byteAt bytes index) border
        return (failure.set index border, border)) (failure, border) = .ok (filled, last) ∧
      Tabulated bytes filled bytes.length := by
  induction count generalizing index failure border with
  | zero => exact ⟨failure, border, rfl, by rwa [← all, Nat.add_zero]⟩
  | succ count ih =>
    have inside : index < bytes.length := by omega
    have shorter := border_lt (Nat.le_of_lt inside) some_done longest
    obtain ⟨next, extended, further⟩ := extend_ok (show border < bytes.length by omega)
      (fun k positive small => table k positive (by omega)) longest bytes[index]
    rw [← tail_take_succ some_done (List.getElem?_eq_getElem inside)] at further
    have tabulated : Tabulated bytes (failure.set index next) (index + 1) := by
      intro k positive small
      by_cases last : k = index + 1
      · subst last
        refine ⟨next, ?_, further⟩
        rw [Nat.add_sub_cancel, List.getElem?_set_self (by omega)]
      · obtain ⟨entry, here, fits⟩ := table k positive (by omega)
        refine ⟨entry, ?_, fits⟩
        rw [List.getElem?_set_ne (by omega), here]
    obtain ⟨filled, last, built, done⟩ :=
      ih (index + 1) next (Nat.succ_pos index) (by omega) (by rw [List.length_set, size]) tabulated further
    refine ⟨filled, last, ?_, done⟩
    rw [List.range'_succ, List.foldlM_cons]
    dsimp only [bind, Except.bind]
    rw [byteAt_some inside]
    dsimp only
    rw [extended]
    exact built

end Automaton

/-- A compiled sequence that has read a text, and not found itself at its end. -/
structure Reads (text : List UInt8) (sequence : CompiledStopSequence) : Prop where
  filled : utf8 sequence.value ≠ []
  table : Tabulated (utf8 sequence.value) sequence.failure (utf8 sequence.value).length
  longest : Longest (utf8 sequence.value) text sequence.state
  incomplete : sequence.state < (utf8 sequence.value).length

variable {value : String} {back front : List UInt8}

theorem new_ok (filled : utf8 value ≠ []) :
    ∃ sequence, CompiledStopSequence.new value = .ok sequence ∧ sequence.value = value ∧ Reads [] sequence := by
  have positive : 0 < (utf8 value).length := List.length_pos_iff.2 filled
  have alone : ((utf8 value).take 1).tail = [] := by
    apply List.eq_nil_of_length_eq_zero
    rw [List.length_tail, List.length_take]
    omega
  have first : Tabulated (utf8 value) (List.replicate (utf8 value).length 0) 1 := by
    intro k some_done small
    obtain rfl : k = 1 := by omega
    refine ⟨0, ?_, ?_⟩
    · rw [List.getElem?_replicate, if_pos positive]
    · rw [alone]
      exact longest_nil
  obtain ⟨filled_table, last, built, done⟩ := table_ok 1 ((utf8 value).length - 1) 0
    (by omega) (by omega) (by rw [List.length_replicate]) first (by rw [alone]; exact longest_nil)
  unfold CompiledStopSequence.new
  dsimp only
  rw [built]
  exact ⟨_, rfl, rfl, filled, done, longest_nil, positive⟩

/-! ### Cuts -/

theorem firstByte_outside (b : UInt8) (first : b.IsUTF8FirstByte) : b.toNat < 128 ∨ 192 ≤ b.toNat := by
  obtain ⟨⟨b⟩⟩ := b
  revert first
  revert b
  decide +kernel

theorem utf8_starts {first : UInt8} {rest : List UInt8} (starts : utf8 value = first :: rest) :
    first.toNat < 128 ∨ 192 ≤ first.toNat :=
  firstByte_outside first (firstByte_of_utf8 starts)

theorem boundary_of_sequence {text : List UInt8} {n : Nat} (positive : 0 < n) (inside : n ≤ (utf8 value).length)
    (same : text = front ++ ((utf8 value).take n ++ back)) :
    isCharBoundary text front.length = true := by
  cases starts : utf8 value with
  | nil =>
    rw [starts] at inside
    simp at inside
    omega
  | cons first rest =>
    have here : text[front.length]? = some first := by
      rw [same, List.getElem?_append_right (Nat.le_refl _), Nat.sub_self, starts]
      cases n with
      | zero => omega
      | succ n => rfl
    have outside := utf8_starts starts
    unfold isCharBoundary
    rw [here]
    rcases outside with low | high
    · simp [low]
    · simp [high]

theorem boundary_zero (text : List UInt8) : isCharBoundary text 0 = true := rfl

theorem boundary_length (text : List UInt8) : isCharBoundary text text.length = true := by
  unfold isCharBoundary
  rw [List.getElem?_eq_none (Nat.le_refl _)]
  simp

theorem cut_front {text : List UInt8} (same : text = front ++ back)
    (boundary : isCharBoundary text front.length = true) : cut text 0 front.length = .ok front := by
  rw [cut, if_pos ⟨Nat.zero_le _, boundary_zero text, boundary⟩, same]
  simp

theorem cut_back {text : List UInt8} (same : text = front ++ back)
    (boundary : isCharBoundary text front.length = true) : cut text front.length text.length = .ok back := by
  have ordered : front.length ≤ text.length := by
    rw [same, List.length_append]
    omega
  rw [cut, if_pos ⟨ordered, boundary, boundary_length text⟩, List.take_length, same, List.drop_left]

/-! ### All automata -/

def ending (sequences : List String) (text : List UInt8) : Option String :=
  sequences.find? fun sequence => sequence ≠ "" ∧ utf8 sequence <:+ text

theorem ending_some {sequences : List String} {text : List UInt8} (here : ending sequences text = some value) :
    value ∈ sequences ∧ value ≠ "" ∧ utf8 value <:+ text := by
  unfold ending at here
  have ends := List.find?_some here
  exact ⟨List.mem_of_find?_eq_some here, of_decide_eq_true ends⟩

theorem utf8_empty : utf8 value = [] ↔ value = "" := by
  constructor
  · intro empty
    have bytes : value.toByteArray.data = #[] := Array.toList_eq_nil_iff.1 empty
    have same : value.toByteArray = "".toByteArray := by
      ext1
      rw [bytes]
      rfl
    exact String.toByteArray_inj.1 same
  · rintro rfl
    rfl

section Scan

open StopSequenceFilter

variable {text : List UInt8} {sequences : List CompiledStopSequence}

theorem advance_ok {sequence : CompiledStopSequence} (reads : Reads text sequence) (byte : UInt8) :
    ∃ next complete, sequence.advance byte = .ok (next, complete) ∧ next.value = sequence.value ∧
      (complete = true ↔ utf8 sequence.value <:+ text ++ [byte]) ∧ (complete = false → Reads (text ++ [byte]) next) := by
  obtain ⟨state, extended, longest⟩ := extend_ok reads.incomplete
    (fun k positive small => reads.table k positive (by have := reads.incomplete; omega)) reads.longest byte
  unfold CompiledStopSequence.advance
  dsimp only
  rw [extended]
  refine ⟨{ sequence with state := state }, _, rfl, rfl, ?_, ?_⟩
  · rw [decide_eq_true_iff]
    exact longest.full_iff
  · intro incomplete
    rw [decide_eq_false_iff_not] at incomplete
    exact ⟨reads.filled, reads.table, longest, Nat.lt_of_le_of_ne longest.le incomplete⟩

/-- One byte for all automata: the first that is complete is the first of the sequences that the text now ends with. -/
theorem advanceAll_ok (reads : ∀ sequence ∈ sequences, Reads text sequence) (byte : UInt8) :
    ∃ next, advanceAll sequences byte = .ok (next, ending (sequences.map (·.value)) (text ++ [byte])) ∧
      (ending (sequences.map (·.value)) (text ++ [byte]) = none →
        next.map (·.value) = sequences.map (·.value) ∧ ∀ sequence ∈ next, Reads (text ++ [byte]) sequence) := by
  induction sequences with
  | nil =>
    refine ⟨[], rfl, fun _ => ⟨rfl, ?_⟩⟩
    intro sequence member
    cases member
  | cons sequence rest ih =>
    have filled : sequence.value ≠ "" := fun empty => (reads sequence List.mem_cons_self).filled (utf8_empty.2 empty)
    obtain ⟨moved, complete, advanced, same, found, further⟩ := advance_ok (reads sequence List.mem_cons_self) byte
    rw [advanceAll, advanced]
    dsimp only [bind, Except.bind]
    cases complete with
    | true =>
      have here : ending ((sequence :: rest).map (·.value)) (text ++ [byte]) = some moved.value := by
        rw [same]
        exact List.find?_cons_of_pos (by simpa using ⟨filled, found.1 rfl⟩)
      rw [here]
      exact ⟨moved :: rest, rfl, fun absent => by cases absent⟩
    | false =>
      obtain ⟨next, scanned, kept⟩ := ih fun other member => reads other (List.mem_cons_of_mem sequence member)
      have later : ending ((sequence :: rest).map (·.value)) (text ++ [byte]) =
          ending (rest.map (·.value)) (text ++ [byte]) := by
        apply List.find?_cons_of_neg
        have absent := mt found.2 Bool.false_ne_true
        simp [absent]
      rw [later, scanned]
      refine ⟨moved :: next, rfl, fun none => ?_⟩
      obtain ⟨values, reading⟩ := kept none
      constructor
      · rw [List.map_cons, List.map_cons, values, same]
      · intro other member
        rcases List.mem_cons.1 member with rfl | later
        · exact further rfl
        · exact reading other later

theorem scan_ok (offset : Nat) (reads : ∀ sequence ∈ sequences, Reads text sequence) (chunk : List UInt8) :
    ∃ next result, scan offset sequences chunk = .ok (next, result) ∧
      (result = none →
        next.map (·.value) = sequences.map (·.value) ∧ (∀ sequence ∈ next, Reads (text ++ chunk) sequence) ∧
        ∀ k, 0 < k → k ≤ chunk.length → ending (sequences.map (·.value)) (text ++ chunk.take k) = none) ∧
      ∀ value stop, result = some (value, stop) →
        ∃ k, 0 < k ∧ k ≤ chunk.length ∧ stop = offset + k ∧
          ending (sequences.map (·.value)) (text ++ chunk.take k) = some value ∧
          ∀ j, 0 < j → j < k → ending (sequences.map (·.value)) (text ++ chunk.take j) = none := by
  induction chunk generalizing offset text sequences with
  | nil =>
    refine ⟨sequences, none, rfl, fun _ => ⟨rfl, by rwa [List.append_nil], ?_⟩, fun value stop same => by cases same⟩
    intro k positive inside
    rw [List.length_nil] at inside
    omega
  | cons byte chunk ih =>
    obtain ⟨next, advanced, kept⟩ := advanceAll_ok reads byte
    rw [scan, advanced]
    dsimp only [bind, Except.bind]
    cases found : ending (sequences.map (·.value)) (text ++ [byte]) with
    | some value =>
      refine ⟨next, some (value, offset + 1), rfl, (fun absent => by cases absent), ?_⟩
      intro value' stop same
      cases same
      refine ⟨1, Nat.one_pos, by simp, rfl, found, ?_⟩
      intro j positive small
      omega
    | none =>
      obtain ⟨values, reading⟩ := kept found
      obtain ⟨last, result, scanned, quiet, hit⟩ := ih (offset + 1) reading
      have shift : ∀ k, text ++ (byte :: chunk).take (k + 1) = text ++ [byte] ++ chunk.take k := by
        intro k
        simp
      rw [values] at quiet hit
      refine ⟨last, result, scanned, ?_, ?_⟩
      · intro none
        obtain ⟨same, reads', clear⟩ := quiet none
        refine ⟨same, ?_, ?_⟩
        · rwa [List.append_assoc, List.singleton_append] at reads'
        · intro k positive inside
          cases k with
          | zero => omega
          | succ k =>
            rw [shift]
            cases k with
            | zero => rwa [List.take_zero, List.append_nil]
            | succ k => exact clear (k + 1) (Nat.succ_pos k) (by simpa using inside)
      · intro value stop same
        obtain ⟨k, positive, inside, place, here, before⟩ := hit value stop same
        refine ⟨k + 1, Nat.succ_pos k, by simpa using inside, by omega, by rwa [shift], ?_⟩
        intro j some_read small
        cases j with
        | zero => omega
        | succ j =>
          rw [shift]
          cases j with
          | zero => rwa [List.take_zero, List.append_nil]
          | succ j => exact before (j + 1) (Nat.succ_pos j) (by omega)

end Scan

/-! ### Compiling the sequences -/

theorem ending_repeated {front back : List String} {sequence : String} (listed : sequence ∈ front)
    (text : List UInt8) : ending (front ++ sequence :: back) text = ending (front ++ back) text := by
  unfold ending
  rw [List.find?_append, List.find?_append]
  by_cases fits : sequence ≠ "" ∧ utf8 sequence <:+ text
  · have found : (front.find? fun value => decide (value ≠ "" ∧ utf8 value <:+ text)).isSome := by
      rw [List.find?_isSome]
      exact ⟨sequence, listed, decide_eq_true fits⟩
    obtain ⟨value, here⟩ := Option.isSome_iff_exists.1 found
    rw [here, Option.some_or, Option.some_or]
  · rw [List.find?_cons_of_neg (by simpa using fits)]

theorem ending_filter (sequences : List String) (text : List UInt8) :
    ending (sequences.filter (· ≠ "")) text = ending sequences text := by
  unfold ending
  rw [List.find?_filter]
  congr 1
  funext value
  by_cases empty : value = ""
  · simp [empty]
  · simp [empty]

theorem compile_ok {sequences : List String} (filled : ∀ value ∈ sequences, value ≠ "")
    {compiled : List CompiledStopSequence} (reads : ∀ sequence ∈ compiled, Reads [] sequence) :
    ∃ next, sequences.foldlM (fun compiled sequence => do
        if compiled.any (·.value = sequence) then return compiled
        return compiled ++ [← CompiledStopSequence.new sequence]) compiled = .ok next ∧
      (∀ sequence ∈ next, Reads [] sequence) ∧
      ∀ text, ending (next.map (·.value)) text = ending (compiled.map (·.value) ++ sequences) text := by
  induction sequences generalizing compiled with
  | nil => exact ⟨compiled, rfl, reads, fun text => by rw [List.append_nil]⟩
  | cons value rest ih =>
    have others : ∀ value ∈ rest, value ≠ "" := fun other member => filled other (List.mem_cons_of_mem value member)
    rw [List.foldlM_cons]
    by_cases listed : compiled.any (·.value = value) = true
    · obtain ⟨next, folded, reading, same⟩ := ih others reads
      refine ⟨next, ?_, reading, fun text => ?_⟩
      · rw [if_pos listed]
        exact folded
      · have member : value ∈ compiled.map (·.value) := by
          simpa using listed
        rw [same, ending_repeated member]
    · obtain ⟨sequence, made, same, fresh⟩ := new_ok (mt utf8_empty.1 (filled value List.mem_cons_self))
      have grown : ∀ other ∈ compiled ++ [sequence], Reads [] other := by
        intro other member
        rcases List.mem_append.1 member with old | last
        · exact reads other old
        · rw [List.mem_singleton.1 last]
          exact fresh
      obtain ⟨next, folded, reading, values⟩ := ih others grown
      refine ⟨next, ?_, reading, fun text => ?_⟩
      · rw [if_neg listed, made]
        exact folded
      · rw [values, List.map_append, List.map_singleton, same, List.append_assoc, List.singleton_append]

/-! ### The filter over a run -/

/-- No sequence has ended yet, and what is held back contains every beginning that the text ends with. -/
structure Waits (sequences : List String) (text shown : List UInt8) (filter : StopSequenceFilter) : Prop where
  unmatched : filter.matched = none
  values : ∀ text, ending (filter.sequences.map (·.value)) text = ending sequences text
  reads : ∀ sequence ∈ filter.sequences, Reads text sequence
  same : text = shown ++ filter.pending
  held : ∀ sequence ∈ filter.sequences, sequence.state ≤ filter.pending.length
  tidy : filter.sequences = [] → filter.pending = []
  counted : filter.visibleBytes = shown.length
  clear : ∀ stop ≤ text.length, ending sequences (text.take stop) = none

/-- The sequence that ended first: its place, and that all before it has been shown. -/
structure Stopped (sequences : List String) (text shown : List UInt8) (filter : StopSequenceFilter) : Prop where
  matched : ∃ stop value, stop ≤ text.length ∧ ending sequences (text.take stop) = some value ∧
    (∀ earlier < stop, ending sequences (text.take earlier) = none) ∧ filter.matched = some value ∧
    shown = text.take (stop - (utf8 value).length)
  counted : filter.visibleBytes = shown.length

theorem ending_nil (sequences : List String) : ending sequences [] = none := by
  unfold ending
  rw [List.find?_eq_none]
  intro value _
  simp [utf8_empty]

theorem new_waits (sequences : List String) :
    ∃ filter, StopSequenceFilter.new sequences = .ok filter ∧ Waits sequences [] [] filter := by
  have filled : ∀ value ∈ sequences.filter (· ≠ ""), value ≠ "" := fun value member =>
    of_decide_eq_true (List.mem_filter.1 member).2
  obtain ⟨compiled, folded, reads, same⟩ := compile_ok filled (List.forall_mem_nil _)
  unfold StopSequenceFilter.new
  rw [folded]
  refine ⟨{ sequences := compiled }, rfl, rfl, ?_, reads, rfl, ?_, fun _ => rfl, rfl, ?_⟩
  · intro text
    rw [same, List.map_nil, List.nil_append, ending_filter]
  · intro sequence member
    exact (reads sequence member).longest.le_text
  · intro stop inside
    rw [List.take_nil, ending_nil]

section Push

variable {sequences : List String} {text shown : List UInt8} {filter : StopSequenceFilter}

theorem clear_append {more : List UInt8} (before : ∀ stop ≤ text.length, ending sequences (text.take stop) = none)
    {last : Nat}
    (after : ∀ k, 0 < k → k < last → ending sequences (text ++ more.take k) = none) :
    ∀ stop < text.length + last, ending sequences ((text ++ more).take stop) = none := by
  intro stop small
  by_cases old : stop ≤ text.length
  · rw [List.take_append_of_le_length old]
    exact before stop old
  · obtain ⟨k, rfl⟩ := Nat.exists_eq_add_of_le (Nat.le_of_not_le old)
    rw [List.take_length_add_append]
    exact after k (by omega) (by omega)

theorem retained_boundary {pending : List UInt8} {compiled : List CompiledStopSequence}
    (reads : ∀ sequence ∈ compiled, Reads text sequence) (ends : pending <:+ text)
    (held : ∀ sequence ∈ compiled, sequence.state ≤ pending.length) :
    isCharBoundary pending (pending.length - (compiled.map (·.state)).foldl max 0) = true := by
  rcases (Overlap.le_foldl_max (compiled.map (·.state)) 0).2.2 with none_held | member
  · rw [none_held]
    exact boundary_length pending
  · obtain ⟨sequence, listed, largest⟩ := List.mem_map.1 member
    rw [← largest]
    have read := reads sequence listed
    by_cases empty : sequence.state = 0
    · rw [empty]
      exact boundary_length pending
    · have size : ((utf8 sequence.value).take sequence.state).length = sequence.state := by
        rw [List.length_take, Nat.min_eq_left read.longest.le]
      have inside := held sequence listed
      obtain ⟨front, same⟩ : (utf8 sequence.value).take sequence.state <:+ pending :=
        List.suffix_of_suffix_length_le read.longest.suffix ends (by rw [size]; exact inside)
      have place : pending.length - sequence.state = front.length := by
        rw [← same, List.length_append, size]
        omega
      rw [place]
      apply boundary_of_sequence (Nat.pos_of_ne_zero empty) read.longest.le
      rw [List.append_nil, same]

theorem push_waits (waits : Waits sequences text shown filter) (chunk : String)
    {next : List CompiledStopSequence} (filled : filter.sequences ≠ [])
    (scanned : StopSequenceFilter.scan filter.pending.length filter.sequences (utf8 chunk) = .ok (next, none))
    (values : next.map (·.value) = filter.sequences.map (·.value))
    (reads : ∀ sequence ∈ next, Reads (text ++ utf8 chunk) sequence)
    (quiet : ∀ k, 0 < k → k ≤ (utf8 chunk).length → ending sequences (text ++ (utf8 chunk).take k) = none) :
    ∃ later visible, filter.push chunk = .ok (later, visible) ∧
      Waits sequences (text ++ utf8 chunk) (shown ++ visible) later := by
  have held : ∀ sequence ∈ next, sequence.state ≤ (filter.pending ++ utf8 chunk).length := by
    intro sequence member
    have listed : sequence.value ∈ filter.sequences.map (·.value) := by
      rw [← values]
      exact List.mem_map_of_mem member
    obtain ⟨old, kept, same⟩ := List.mem_map.1 listed
    have longest := (waits.reads old kept).longest
    rw [same] at longest
    have reach := longest.reach (reads sequence member).longest.le (reads sequence member).longest.suffix
    have := waits.held old kept
    rw [List.length_append]
    omega
  have ends : filter.pending ++ utf8 chunk <:+ text ++ utf8 chunk :=
    ⟨shown, by rw [← List.append_assoc, ← waits.same]⟩
  have boundary := retained_boundary reads ends held
  generalize hpending : filter.pending ++ utf8 chunk = pending at held ends boundary
  generalize hsplit : pending.length - (next.map (·.state)).foldl max 0 = split at boundary
  have halves : pending = pending.take split ++ pending.drop split := (List.take_append_drop split pending).symm
  have place : (pending.take split).length = split := by
    rw [List.length_take]
    omega
  have front := cut_front halves (by rwa [place])
  have back := cut_back halves (by rwa [place])
  rw [place] at front back
  refine ⟨{ filter with
    sequences := next, pending := pending.drop split,
    visibleBytes := filter.visibleBytes + (pending.take split).length }, pending.take split, ?_, ?_⟩
  · unfold StopSequenceFilter.push
    rw [waits.unmatched, if_neg (by simp), if_neg (by simpa using filled), scanned]
    dsimp only [bind, Except.bind]
    rw [hpending, hsplit, front]
    dsimp only
    rw [back]
    rfl
  · refine ⟨waits.unmatched, ?_, reads, ?_, ?_, ?_, ?_, ?_⟩
    · intro text
      rw [values, waits.values]
    · rw [List.append_assoc, ← halves, ← hpending, ← List.append_assoc, ← waits.same]
    · intro sequence member
      have bound := (Overlap.le_foldl_max (next.map (·.state)) 0).2.1 sequence.state (List.mem_map_of_mem member)
      have := held sequence member
      rw [List.length_drop]
      omega
    · intro none_left
      have none_before : filter.sequences = [] := by
        rw [show next = [] from none_left] at values
        exact List.map_eq_nil_iff.1 values.symm
      exact absurd none_before filled
    · rw [List.length_append, waits.counted]
    · intro stop inside
      rw [List.length_append] at inside
      by_cases last : stop = text.length + (utf8 chunk).length
      · rw [last, List.take_length_add_append, List.take_length]
        cases size : (utf8 chunk).length with
        | zero =>
          rw [List.eq_nil_of_length_eq_zero size, List.append_nil]
          simpa using waits.clear text.length (Nat.le_refl _)
        | succ n =>
          have whole := quiet (utf8 chunk).length (by omega) (Nat.le_refl _)
          rwa [List.take_length] at whole
      · have short : ∀ k, 0 < k → k < (utf8 chunk).length → ending sequences (text ++ (utf8 chunk).take k) = none :=
          fun k positive small => quiet k positive (Nat.le_of_lt small)
        exact clear_append waits.clear short stop (by omega)

theorem push_stops (waits : Waits sequences text shown filter) (chunk : String) {next : List CompiledStopSequence}
    {k : Nat} (filled : filter.sequences ≠ [])
    (scanned : StopSequenceFilter.scan filter.pending.length filter.sequences (utf8 chunk) =
      .ok (next, some (value, filter.pending.length + k))) (inside : k ≤ (utf8 chunk).length)
    (here : ending sequences (text ++ (utf8 chunk).take k) = some value)
    (before : ∀ j, 0 < j → j < k → ending sequences (text ++ (utf8 chunk).take j) = none) :
    ∃ later visible, filter.push chunk = .ok (later, visible) ∧
      Stopped sequences (text ++ utf8 chunk) (shown ++ visible) later := by
  obtain ⟨_, named, ends⟩ := ending_some here
  obtain ⟨sequence, kept, same⟩ : ∃ sequence ∈ filter.sequences, sequence.value = value := by
    rw [← waits.values] at here
    exact List.mem_map.1 (ending_some here).1
  have read := waits.reads sequence kept
  have fits : (utf8 value).length ≤ filter.pending.length + k := by
    have reach := read.longest.reach (Nat.le_refl _) (by rwa [List.take_length, same])
    rw [List.length_take, same, Nat.min_eq_left inside] at reach
    have := waits.held sequence kept
    omega
  have pendingEnds : filter.pending ++ (utf8 chunk).take k <:+ text ++ (utf8 chunk).take k :=
    ⟨shown, by rw [← List.append_assoc, ← waits.same]⟩
  obtain ⟨front, whole⟩ : utf8 value <:+ filter.pending ++ (utf8 chunk).take k := by
    apply List.suffix_of_suffix_length_le ends pendingEnds
    rw [List.length_append, List.length_take, Nat.min_eq_left inside]
    exact fits
  have size : front.length + (utf8 value).length = filter.pending.length + k := by
    have lengths := congrArg List.length whole
    rwa [List.length_append, List.length_append, List.length_take, Nat.min_eq_left inside] at lengths
  have place : filter.pending.length + k - (utf8 value).length = front.length := by omega
  have split : filter.pending ++ utf8 chunk = front ++ (utf8 value ++ (utf8 chunk).drop k) := by
    rw [← List.append_assoc, whole, List.append_assoc, List.take_append_drop]
  have boundary : isCharBoundary (filter.pending ++ utf8 chunk) front.length = true := by
    apply boundary_of_sequence (List.length_pos_iff.2 (mt utf8_empty.1 named)) (Nat.le_refl _)
    rw [List.take_length, split]
  refine ⟨{ filter with
    sequences := next, pending := [], matched := some value, visibleBytes := filter.visibleBytes + front.length },
    front, ?_, ?_, ?_⟩
  · unfold StopSequenceFilter.push
    rw [waits.unmatched, if_neg (by simp), if_neg (by simpa using filled), scanned]
    dsimp only [bind, Except.bind]
    rw [place, cut_front split boundary]
    rfl
  · have reached : (text ++ utf8 chunk).take (text.length + k) = text ++ (utf8 chunk).take k :=
      List.take_length_add_append k
    refine ⟨text.length + k, value, ?_, ?_, ?_, rfl, ?_⟩
    · rw [List.length_append]
      omega
    · rw [reached, here]
    · exact clear_append waits.clear before
    · have cutAt : text.length + k - (utf8 value).length = (shown ++ front).length := by
        have lengths := congrArg List.length waits.same
        rw [List.length_append] at lengths ⊢
        omega
      rw [cutAt, waits.same, List.append_assoc, split, ← List.append_assoc, List.take_left]
  · rw [List.length_append, waits.counted]

theorem push_ok (waits : Waits sequences text shown filter) (chunk : String) :
    ∃ later visible, filter.push chunk = .ok (later, visible) ∧
      (Waits sequences (text ++ utf8 chunk) (shown ++ visible) later ∨
       Stopped sequences (text ++ utf8 chunk) (shown ++ visible) later) := by
  by_cases none_kept : filter.sequences = []
  · refine ⟨{ filter with visibleBytes := filter.visibleBytes + (utf8 chunk).length }, utf8 chunk, ?_, .inl ?_⟩
    · unfold StopSequenceFilter.push
      rw [waits.unmatched, if_neg (by simp), if_pos (by simp [none_kept])]
      rfl
    · have never : ∀ text, ending sequences text = none := by
        intro text
        rw [← waits.values, none_kept]
        rfl
      refine ⟨waits.unmatched, waits.values, ?_, ?_, waits.held, waits.tidy, ?_, fun stop _ => never _⟩
      · intro sequence member
        rw [show filter.sequences = [] from none_kept] at member
        cases member
      · have whole := waits.same
        rw [waits.tidy none_kept, List.append_nil] at whole ⊢
        rw [whole]
      · rw [List.length_append, waits.counted]
  · obtain ⟨next, result, scanned, quiet, hit⟩ := scan_ok filter.pending.length waits.reads (utf8 chunk)
    cases result with
    | none =>
      obtain ⟨values, reads, clear⟩ := quiet rfl
      obtain ⟨later, visible, pushed, still⟩ :=
        push_waits waits chunk none_kept scanned values reads fun k positive inside => by
          rw [← waits.values]
          exact clear k positive inside
      exact ⟨later, visible, pushed, .inl still⟩
    | some found =>
      obtain ⟨value, stop⟩ := found
      obtain ⟨k, _, inside, rfl, here, before⟩ := hit value stop rfl
      obtain ⟨later, visible, pushed, done⟩ := push_stops waits chunk none_kept scanned inside
        (by rwa [← waits.values]) fun j some_read small => by
          rw [← waits.values]
          exact before j some_read small
      exact ⟨later, visible, pushed, .inr done⟩

theorem push_stopped (stopped : Stopped sequences text shown filter) (chunk : String) :
    filter.push chunk = .ok (filter, []) ∧ Stopped sequences (text ++ utf8 chunk) shown filter := by
  obtain ⟨stop, value, inside, here, before, found, visible⟩ := stopped.matched
  constructor
  · unfold StopSequenceFilter.push
    rw [found, if_pos (by simp)]
    rfl
  · refine ⟨⟨stop, value, ?_, ?_, ?_, found, ?_⟩, stopped.counted⟩
    · rw [List.length_append]
      omega
    · rw [List.take_append_of_le_length inside, here]
    · intro earlier small
      rw [List.take_append_of_le_length (by omega)]
      exact before earlier small
    · rw [List.take_append_of_le_length (by omega), visible]

theorem pushAll_ok (state : Waits sequences text shown filter ∨ Stopped sequences text shown filter)
    (chunks : List String) :
    ∃ later visible, filter.pushAll chunks = .ok (later, visible) ∧
      (Waits sequences (text ++ chunks.flatMap utf8) (shown ++ visible) later ∨
       Stopped sequences (text ++ chunks.flatMap utf8) (shown ++ visible) later) := by
  induction chunks generalizing text shown filter with
  | nil => exact ⟨filter, [], rfl, by rwa [List.flatMap_nil, List.append_nil, List.append_nil]⟩
  | cons chunk rest ih =>
    obtain ⟨next, visible, pushed, kept⟩ : ∃ next visible, filter.push chunk = .ok (next, visible) ∧
        (Waits sequences (text ++ utf8 chunk) (shown ++ visible) next ∨
         Stopped sequences (text ++ utf8 chunk) (shown ++ visible) next) := by
      rcases state with waits | stopped
      · exact push_ok waits chunk
      · obtain ⟨silent, still⟩ := push_stopped stopped chunk
        exact ⟨filter, [], silent, .inr (by rwa [List.append_nil])⟩
    obtain ⟨last, later, followed, done⟩ := ih kept
    refine ⟨last, visible ++ later, ?_, ?_⟩
    · rw [StopSequenceFilter.pushAll, pushed]
      dsimp only [bind, Except.bind]
      rw [followed]
      rfl
    · rwa [List.flatMap_cons, ← List.append_assoc, ← List.append_assoc]

end Push

/-! ### The search -/

/-- The filter neither panics nor shows anything but the text before the sequence that ends first, however the text
is split: the first of the sequences where several end there, and the whole text where none occurs. -/
theorem stop_exact (sequences chunks : List String) :
    ∃ filter shown,
      (StopSequenceFilter.new sequences >>= fun filter => filter.pushAll chunks) = .ok (filter, shown) ∧
      let text := chunks.flatMap utf8
      let finished := filter.finish
      ((∀ sequence ∈ sequences, sequence ≠ "" → ¬ utf8 sequence <:+: text) →
        shown ++ finished.2 = text ∧ finished.1.matched = none ∧ finished.1.visibleBytes = text.length) ∧
      ∀ stop ≤ text.length, ∀ value, ending sequences (text.take stop) = some value →
        (∀ earlier < stop, ending sequences (text.take earlier) = none) →
        finished.1.matched = some value ∧ shown ++ finished.2 = text.take (stop - (utf8 value).length) ∧
        finished.1.visibleBytes = (shown ++ finished.2).length := by
  obtain ⟨fresh, made, begun⟩ := new_waits sequences
  obtain ⟨filter, shown, pushed, reached⟩ := pushAll_ok (.inl begun) chunks
  rw [List.nil_append, List.nil_append] at reached
  refine ⟨filter, shown, by rw [made]; exact pushed, ?_⟩
  dsimp only
  rcases reached with waits | stopped
  · have finished : filter.finish = ({ filter with
        sequences := filter.sequences.map fun sequence => { sequence with state := 0 }, pending := [],
        visibleBytes := filter.visibleBytes + filter.pending.length }, filter.pending) := by
      unfold StopSequenceFilter.finish
      rw [waits.unmatched, if_neg (by simp)]
    rw [finished]
    constructor
    · intro _
      refine ⟨waits.same.symm, waits.unmatched, ?_⟩
      rw [waits.counted, waits.same, List.length_append]
    · intro stop inside value here
      rw [waits.clear stop inside] at here
      cases here
  · obtain ⟨first, sequence, inside, here, before, found, visible⟩ := stopped.matched
    have finished : filter.finish = ({ filter with
        sequences := filter.sequences.map fun sequence => { sequence with state := 0 }, pending := [] }, []) := by
      unfold StopSequenceFilter.finish
      rw [found, if_pos (by simp)]
    rw [finished, List.append_nil]
    constructor
    · intro absent
      obtain ⟨member, filled, ends⟩ := ending_some here
      have occurs := ends.isInfix.trans (List.take_prefix first (chunks.flatMap utf8)).isInfix
      exact absurd occurs (absent sequence member filled)
    · intro stop reach value there earliest
      have same : stop = first := by
        rcases Nat.lt_trichotomy stop first with small | same | large
        · rw [before stop small] at there
          cases there
        · exact same
        · rw [earliest first large] at here
          cases here
      subst same
      rw [here] at there
      cases there
      exact ⟨found, visible, stopped.counted⟩

end KiroProxy.Http.StopBytes

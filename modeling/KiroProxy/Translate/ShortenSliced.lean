import KiroProxy.Lib.Utf8Cut
import KiroProxy.Translate.Tokenizer

/-! `compact_text_to_tokens` with its slices checked: the loop ends, no slice is out of range, and what comes back is the
text or its beginning and its end. -/
namespace KiroProxy.Tokens

open Bytes (utf8 fromUtf8)

/-! ### Checked slices -/

inductive Outcome where
  | returns (result : Except String String)
  | panics
  deriving DecidableEq

/-- `&tokens[..count]` -/
def sliceTo (tokens : List Nat) (count : Nat) : Option (List Nat) :=
  if count ≤ tokens.length then some (tokens.take count) else none

/-- `&tokens[tokens.len() - count..]` -/
def sliceFrom (tokens : List Nat) (count : Nat) : Option (List Nat) :=
  if count ≤ tokens.length then some (tokens.drop (tokens.length - count)) else none

section Shorten

variable (tokenizer : Tokenizer)

def decodeSpan (span : Nat → Option (List Nat)) : Nat → Option (Except String (Nat × String))
  | 0 => (span 0).map fun tokens => (tokenizer.decode tokens).map fun text => (0, text)
  | count + 1 => (span (count + 1)).bind fun tokens =>
    match tokenizer.decode tokens with
    | .ok text => some (.ok (count + 1, text))
    | .error _ => decodeSpan span count

def shortenSliced (tokens : List Nat) (marker : String) (maximum : Nat) : Nat → Nat → Nat → Option Outcome
  | 0, _, _ => none
  | rounds + 1, head, tail =>
    match decodeSpan tokenizer (sliceTo tokens) head with
    | none => some .panics
    | some (.error message) => some (.returns (.error message))
    | some (.ok (head, output)) =>
      match decodeSpan tokenizer (sliceFrom tokens) tail with
      | none => some .panics
      | some (.error message) => some (.returns (.error message))
      | some (.ok (tail, suffix)) =>
        let output := output ++ marker ++ suffix
        if tokenizer.count output ≤ maximum then some (.returns (.ok output))
        else if tail ≤ head ∧ 0 < head then shortenSliced tokens marker maximum rounds (head - 1) tail
        else shortenSliced tokens marker maximum rounds head (tail - 1)

def fittingMarker (maximum : Nat) : String :=
  if tokenizer.count shortenedMarker ≤ maximum then shortenedMarker else ""

def compactTextSliced (rounds : Nat) (text : String) (maximum : Nat) : Option Outcome :=
  let tokens := tokenizer.encodeOrdinary text
  if tokens.length ≤ maximum then some (.returns (.ok text))
  else
    let marker := fittingMarker tokenizer maximum
    let available := maximum - tokenizer.count marker
    let head := saturatingMul available 2 / 3
    shortenSliced tokenizer tokens marker maximum rounds head (available - head)

end Shorten

/-! ### What the packages promise -/

/-- A token stands for bytes, and tokens decode to the text of their bytes, where these are one. -/
structure Decoding (tokenizer : Tokenizer) where
  bytes : Nat → List UInt8
  decodes : ∀ tokens, (tokenizer.decode tokens).toOption = fromUtf8 (tokens.flatMap bytes)
  inverts : ∀ text, tokenizer.decode (tokenizer.encodeOrdinary text) = .ok text

namespace Decoding

variable {tokenizer : Tokenizer}

theorem bytes_of_decode (decoding : Decoding tokenizer) {tokens : List Nat} {text : String}
    (decoded : tokenizer.decode tokens = .ok text) : utf8 text = tokens.flatMap decoding.bytes := by
  have read := decoding.decodes tokens
  rw [decoded] at read
  exact Bytes.utf8_of_fromUtf8 read.symm

theorem decode_nil (decoding : Decoding tokenizer) : tokenizer.decode [] = .ok "" := by
  have read : (tokenizer.decode []).toOption = some "" := (decoding.decodes []).trans (by rw [List.flatMap_nil]; decide)
  cases decoded : tokenizer.decode [] with
  | error message =>
    rw [decoded] at read
    cases read
  | ok text =>
    rw [decoded] at read
    exact congrArg Except.ok (Option.some.inj read)

end Decoding

/-! ### The loop -/

section Loop

variable {tokenizer : Tokenizer} {tokens : List Nat}

theorem decodeSpan_ok (decoding : Decoding tokenizer) {span : Nat → Option (List Nat)} (empty : span 0 = some [])
    (start : Nat) (inside : ∀ count ≤ start, (span count).isSome) :
    ∃ count text part, decodeSpan tokenizer span start = some (.ok (count, text)) ∧ count ≤ start ∧
      span count = some part ∧ tokenizer.decode part = .ok text := by
  induction start with
  | zero =>
    refine ⟨0, "", [], ?_, Nat.le_refl 0, empty, decoding.decode_nil⟩
    rw [decodeSpan, empty, Option.map_some, decoding.decode_nil]
    rfl
  | succ start ih =>
    obtain ⟨part, found⟩ := Option.isSome_iff_exists.1 (inside (start + 1) (Nat.le_refl _))
    cases decoded : tokenizer.decode part with
    | ok text =>
      refine ⟨start + 1, text, part, ?_, Nat.le_refl _, found, decoded⟩
      rw [decodeSpan, found, Option.bind_some, decoded]
    | error message =>
      obtain ⟨count, text, shorter, result, less, rest⟩ := ih fun count less => inside count (Nat.le_succ_of_le less)
      refine ⟨count, text, shorter, ?_, Nat.le_succ_of_le less, rest⟩
      rw [decodeSpan, found, Option.bind_some, decoded]
      exact result

theorem sliceTo_inside {count : Nat} (inside : count ≤ tokens.length) : sliceTo tokens count = some (tokens.take count) :=
  if_pos inside

theorem sliceFrom_inside {count : Nat} (inside : count ≤ tokens.length) :
    sliceFrom tokens count = some (tokens.drop (tokens.length - count)) := if_pos inside

variable {head tail : Nat} {marker : String}

theorem head_ok (decoding : Decoding tokenizer) (inside : head ≤ tokens.length) :
    ∃ kept front, decodeSpan tokenizer (sliceTo tokens) head = some (.ok (kept, front)) ∧ kept ≤ head ∧
      tokenizer.decode (tokens.take kept) = .ok front := by
  obtain ⟨kept, front, part, result, less, found, decoded⟩ := decodeSpan_ok decoding (sliceTo_inside (Nat.zero_le _)) head
    fun count less => by rw [sliceTo_inside (Nat.le_trans less inside)]; rfl
  rw [sliceTo_inside (Nat.le_trans less inside)] at found
  cases found
  exact ⟨kept, front, result, less, decoded⟩

theorem tail_ok (decoding : Decoding tokenizer) (inside : tail ≤ tokens.length) :
    ∃ kept suffix, decodeSpan tokenizer (sliceFrom tokens) tail = some (.ok (kept, suffix)) ∧ kept ≤ tail ∧
      tokenizer.decode (tokens.drop (tokens.length - kept)) = .ok suffix := by
  have empty : sliceFrom tokens 0 = some [] := by
    rw [sliceFrom_inside (Nat.zero_le _), Nat.sub_zero, List.drop_length]
  obtain ⟨kept, suffix, part, result, less, found, decoded⟩ := decodeSpan_ok decoding empty tail
    fun count less => by rw [sliceFrom_inside (Nat.le_trans less inside)]; rfl
  rw [sliceFrom_inside (Nat.le_trans less inside)] at found
  cases found
  exact ⟨kept, suffix, result, less, decoded⟩

def Spliced (tokenizer : Tokenizer) (tokens : List Nat) (marker output : String) : Prop :=
  ∃ head tail front suffix, head + tail ≤ tokens.length ∧ tokenizer.decode (tokens.take head) = .ok front ∧
    tokenizer.decode (tokens.drop (tokens.length - tail)) = .ok suffix ∧ output = front ++ marker ++ suffix

variable (tokens) in
theorem shortenSliced_ok (decoding : Decoding tokenizer) {maximum : Nat} (fits : tokenizer.count marker ≤ maximum)
    (rounds head tail : Nat) (enough : head + tail < rounds) (inside : head + tail ≤ tokens.length) :
    ∃ output, shortenSliced tokenizer tokens marker maximum rounds head tail = some (.returns (.ok output)) ∧
      tokenizer.count output ≤ maximum ∧ Spliced tokenizer tokens marker output := by
  induction rounds generalizing head tail with
  | zero => omega
  | succ rounds ih =>
    obtain ⟨kept, front, first, fewer, front_decoded⟩ := head_ok decoding (show head ≤ tokens.length by omega)
    obtain ⟨left, suffix, second, less, suffix_decoded⟩ := tail_ok decoding (show tail ≤ tokens.length by omega)
    rw [shortenSliced, first]
    dsimp only
    rw [second]
    dsimp only
    by_cases small : tokenizer.count (front ++ marker ++ suffix) ≤ maximum
    · rw [if_pos small]
      exact ⟨_, rfl, small, kept, left, front, suffix, by omega, front_decoded, suffix_decoded, rfl⟩
    · rw [if_neg small]
      split
      · exact ih (kept - 1) left (by omega) (by omega)
      · rename_i stays
        have some : 0 < left := by
          by_contra none
          obtain rfl : left = 0 := by omega
          obtain rfl : kept = 0 := by omega
          rw [List.take_zero, decoding.decode_nil] at front_decoded
          rw [Nat.sub_zero, List.drop_length, decoding.decode_nil] at suffix_decoded
          cases front_decoded
          cases suffix_decoded
          rw [String.empty_append, String.append_empty] at small
          exact small fits
        exact ih kept (left - 1) (by omega) (by omega)

theorem shortenSliced_more {maximum rounds more : Nat} {outcome : Outcome}
    (ends : shortenSliced tokenizer tokens marker maximum rounds head tail = some outcome) (larger : rounds ≤ more) :
    shortenSliced tokenizer tokens marker maximum more head tail = some outcome := by
  induction rounds generalizing more head tail with
  | zero => cases ends
  | succ rounds ih =>
    obtain ⟨more, rfl⟩ := Nat.exists_eq_add_of_le' (Nat.le_trans (Nat.succ_pos rounds) larger)
    have fewer : rounds ≤ more := Nat.le_of_succ_le_succ larger
    rw [shortenSliced] at ends ⊢
    split
    · rename_i first
      rwa [first] at ends
    · rename_i first
      rwa [first] at ends
    · rename_i first
      rw [first] at ends
      dsimp only at ends
      split
      · rename_i second
        rwa [second] at ends
      · rename_i second
        rwa [second] at ends
      · rename_i second
        rw [second] at ends
        dsimp only at ends ⊢
        split
        · rename_i small
          rwa [if_pos small] at ends
        · rename_i large
          rw [if_neg large] at ends
          split
          · rename_i here
            rw [if_pos here] at ends
            exact ih ends fewer
          · rename_i there
            rw [if_neg there] at ends
            exact ih ends fewer

theorem Spliced.parts (decoding : Decoding tokenizer) {text output : String}
    (spliced : Spliced tokenizer (tokenizer.encodeOrdinary text) marker output) :
    ∃ front middle suffix, text = front ++ middle ++ suffix ∧ output = front ++ marker ++ suffix := by
  obtain ⟨head, tail, front, suffix, inside, front_decoded, suffix_decoded, rfl⟩ := spliced
  have whole := decoding.bytes_of_decode (decoding.inverts text)
  generalize tokenizer.encodeOrdinary text = tokens at *
  have front_bytes := decoding.bytes_of_decode front_decoded
  have suffix_bytes := decoding.bytes_of_decode suffix_decoded
  have cut : tokens = tokens.take head ++ ((tokens.drop head).take (tokens.length - tail - head) ++
      tokens.drop (tokens.length - tail)) := by
    have rest : tokens.drop (tokens.length - tail) = (tokens.drop head).drop (tokens.length - tail - head) := by
      rw [List.drop_drop]
      congr 1
      omega
    rw [rest, List.take_append_drop, List.take_append_drop]
  rw [cut, List.flatMap_append, List.flatMap_append, ← front_bytes, ← suffix_bytes] at whole
  obtain ⟨rest, rfl, rest_bytes⟩ := Bytes.split_front whole
  obtain ⟨middle, rfl, -⟩ := Bytes.split_back rest_bytes
  exact ⟨front, middle, suffix, (String.append_assoc ..).symm, rfl⟩

/-! ### The slices are in range -/

theorem decodeSpan_front (inside : head ≤ tokens.length) :
    decodeSpan tokenizer (sliceTo tokens) head = some (decodeFront tokenizer tokens head) := by
  induction head with
  | zero => rw [decodeSpan, sliceTo_inside inside, decodeFront, Option.map_some]
  | succ head ih =>
    rw [decodeSpan, sliceTo_inside inside, decodeFront, Option.bind_some]
    cases tokenizer.decode (tokens.take (head + 1)) with
    | ok text => rfl
    | error message => exact ih (Nat.le_of_succ_le inside)

theorem decodeSpan_back (inside : tail ≤ tokens.length) :
    decodeSpan tokenizer (sliceFrom tokens) tail = some (decodeBack tokenizer tokens tail) := by
  induction tail with
  | zero => rw [decodeSpan, sliceFrom_inside inside, decodeBack, Option.map_some, Nat.sub_zero]
  | succ tail ih =>
    rw [decodeSpan, sliceFrom_inside inside, decodeBack, Option.bind_some]
    cases tokenizer.decode (tokens.drop (tokens.length - (tail + 1))) with
    | ok text => rfl
    | error message => exact ih (Nat.le_of_succ_le inside)

theorem decodeFront_le {kept : Nat} {front : String} (found : decodeFront tokenizer tokens head = .ok (kept, front)) :
    kept ≤ head := by
  induction head with
  | zero =>
    unfold decodeFront at found
    cases decoded : tokenizer.decode (tokens.take 0) with
    | ok text =>
      rw [decoded] at found
      cases found
      exact Nat.le_refl 0
    | error message =>
      rw [decoded] at found
      cases found
  | succ head ih =>
    unfold decodeFront at found
    split at found
    · cases found
      exact Nat.le_refl _
    · exact Nat.le_succ_of_le (ih found)

theorem decodeBack_le {kept : Nat} {suffix : String} (found : decodeBack tokenizer tokens tail = .ok (kept, suffix)) :
    kept ≤ tail := by
  induction tail with
  | zero =>
    unfold decodeBack at found
    cases decoded : tokenizer.decode (tokens.drop tokens.length) with
    | ok text =>
      rw [decoded] at found
      cases found
      exact Nat.le_refl 0
    | error message =>
      rw [decoded] at found
      cases found
  | succ tail ih =>
    unfold decodeBack at found
    split at found
    · cases found
      exact Nat.le_refl _
    · exact Nat.le_succ_of_le (ih found)

theorem shortenSliced_eq (marker : String) (maximum rounds head tail : Nat) (front_inside : head ≤ tokens.length)
    (back_inside : tail ≤ tokens.length) :
    shortenSliced tokenizer tokens marker maximum rounds head tail =
      (shorten tokenizer tokens marker maximum rounds head tail).map .returns := by
  induction rounds generalizing head tail with
  | zero => rfl
  | succ rounds ih =>
    rw [shortenSliced, shorten, decodeSpan_front front_inside]
    cases first : decodeFront tokenizer tokens head with
    | error message => rfl
    | ok found =>
      obtain ⟨kept, front⟩ := found
      have fewer := decodeFront_le first
      dsimp only
      rw [decodeSpan_back back_inside]
      cases second : decodeBack tokenizer tokens tail with
      | error message => rfl
      | ok found =>
        obtain ⟨left, suffix⟩ := found
        have less := decodeBack_le second
        dsimp only
        split
        · rfl
        · split
          · exact ih (kept - 1) left (by omega) (by omega)
          · exact ih kept (left - 1) (by omega) (by omega)

end Loop

/-! ### The whole function -/

section Compact

variable {tokenizer : Tokenizer}

theorem head_le (available : Nat) : saturatingMul available 2 / 3 ≤ available := by
  unfold saturatingMul
  omega

theorem compactTextSliced_eq (text : String) (maximum : Nat) :
    compactTextSliced tokenizer (maximum - tokenizer.count (fittingMarker tokenizer maximum) + 1) text maximum =
      (compactTextToTokens tokenizer text maximum).map .returns := by
  unfold compactTextSliced compactTextToTokens
  dsimp only
  split
  · rfl
  · have head := head_le (maximum - tokenizer.count (fittingMarker tokenizer maximum))
    exact shortenSliced_eq _ maximum _ _ _ (by omega) (by omega)

/-- The function ends within as many rounds as there may be tokens, and gives the text or its beginning and its end. -/
theorem compact_text_bounded (decoding : Decoding tokenizer) (text : String) (maximum : Nat)
    (room : tokenizer.count shortenedMarker ≤ maximum ∨ tokenizer.count "" ≤ maximum) :
    ∃ output, (∀ rounds, maximum < rounds →
        compactTextSliced tokenizer rounds text maximum = some (.returns (.ok output))) ∧
      tokenizer.count output ≤ maximum ∧
      (output = text ∨ ∃ front middle suffix marker, text = front ++ middle ++ suffix ∧
        output = front ++ marker ++ suffix ∧ (marker = shortenedMarker ∨ marker = "")) := by
  unfold compactTextSliced
  dsimp only
  split
  · rename_i small
    exact ⟨text, fun _ _ => rfl, small, .inl rfl⟩
  · have fits : tokenizer.count (fittingMarker tokenizer maximum) ≤ maximum := by
      unfold fittingMarker
      split
      · assumption
      · rename_i large
        exact room.resolve_left large
    have head := head_le (maximum - tokenizer.count (fittingMarker tokenizer maximum))
    obtain ⟨output, ends, bounded, spliced⟩ := shortenSliced_ok (tokenizer.encodeOrdinary text) decoding fits
      (maximum + 1) (saturatingMul (maximum - tokenizer.count (fittingMarker tokenizer maximum)) 2 / 3)
      (maximum - tokenizer.count (fittingMarker tokenizer maximum) -
        saturatingMul (maximum - tokenizer.count (fittingMarker tokenizer maximum)) 2 / 3) (by omega) (by omega)
    obtain ⟨front, middle, suffix, whole, parts⟩ := spliced.parts decoding
    refine ⟨output, fun rounds enough => shortenSliced_more ends enough, bounded, .inr ?_⟩
    refine ⟨front, middle, suffix, _, whole, parts, ?_⟩
    unfold fittingMarker
    split
    · exact .inl rfl
    · exact .inr rfl

/-- A token for each byte, with some tokens in front that stand for nothing. -/
def padded (padding : Nat) : Tokenizer where
  encodeOrdinary text := List.replicate padding 0 ++ (utf8 text).map fun byte => byte.toNat + 1
  decode tokens := match fromUtf8 (tokens.flatMap fun token => if token = 0 then [] else [UInt8.ofNat (token - 1)]) with
    | some text => .ok text
    | none => .error "invalid UTF-8"
  decodeBase64Text _ := none
  scaledSquareRoot := id

def padded_decoding (padding : Nat) : Decoding (padded padding) where
  bytes token := if token = 0 then [] else [UInt8.ofNat (token - 1)]
  decodes tokens := by
    unfold padded
    dsimp only
    split <;> rename_i read <;> rw [read] <;> rfl
  inverts text := by
    have pads : (List.replicate padding 0).flatMap (fun token => if token = 0 then [] else [UInt8.ofNat (token - 1)]) =
        [] := by simp
    have bytes : ((utf8 text).map fun byte => byte.toNat + 1).flatMap
        (fun token => if token = 0 then [] else [UInt8.ofNat (token - 1)]) = utf8 text := by
      rw [List.flatMap_map]
      simp
    unfold padded
    dsimp only
    rw [List.flatMap_append, pads, bytes, List.nil_append, Bytes.fromUtf8_utf8]

theorem compact_text_bounded_bytes :
    ∃ output, (∀ rounds, 10 < rounds → compactTextSliced (padded 0) rounds "hello, world" 10 = some (.returns (.ok output))) ∧
      (padded 0).count output ≤ 10 ∧
      (output = "hello, world" ∨ ∃ front middle suffix marker, "hello, world" = front ++ middle ++ suffix ∧
        output = front ++ marker ++ suffix ∧ (marker = shortenedMarker ∨ marker = "")) :=
  compact_text_bounded (padded_decoding 0) "hello, world" 10 (.inr (by decide))

/-- With two tokens for the empty text and room for one there is no end. -/
theorem compact_text_endless : Nonempty (Decoding (padded 2)) ∧ ∀ rounds, compactTextSliced (padded 2) rounds "a" 1 = none := by
  refine ⟨⟨padded_decoding 2⟩, fun rounds => ?_⟩
  have stays : ∀ rounds, shortenSliced (padded 2) ((padded 2).encodeOrdinary "a") "" 1 rounds 0 0 = none := by
    intro rounds
    induction rounds with
    | zero => rfl
    | succ rounds ih => exact ih
  exact stays rounds

end Compact

end KiroProxy.Tokens

import KiroProxy.Lib.Chunks
import KiroProxy.Kiro.EventStream

/-! The decoder on a stream that arrives in pieces: a decision once taken is not changed by
what arrives later, and frames that follow the format come out as their events. -/
namespace KiroProxy.Kiro

open Bytes Chunks

variable (crates : Crates)

/-! ### Calls on a growing buffer -/

variable {rest source : List UInt8} {n : Nat}

theorem takeFrame_append {totalLength headersLength : Nat} (more : List UInt8) (fits : totalLength ≤ source.length)
    (headersFit : 12 + headersLength ≤ source.length) :
    takeFrame crates (source ++ more) totalLength headersLength =
      (takeFrame crates source totalLength headersLength).map fun found => (found.1, found.2 ++ more) := by
  have longer : totalLength ≤ (source ++ more).length := by
    simp only [List.length_append]
    omega
  unfold takeFrame
  rw [slice_append fits, slice_append headersFit, slice_append (by omega)]
  simp only [advance, fits, longer, if_true, List.drop_append_of_le_length fits]
  cases slice source 0 totalLength with
  | error e => rfl
  | ok frame =>
    simp only [bind, Except.bind]
    cases validateCrc crates frame with
    | error e => rfl
    | ok _ =>
      cases slice source 12 (12 + headersLength) with
      | error e => rfl
      | ok block =>
        cases parsed : parseHeaders block with
        | error e => simp only [parsed, Except.map]
        | ok headers =>
          simp only [parsed]
          cases slice source (12 + headersLength) (totalLength - 4) with
          | error e => rfl
          | ok payload =>
            cases json : crates.fromSlice payload with
            | error e => simp only [json, invalid, Except.map]
            | ok value => simp only [json, pure, Except.pure, Except.map]

theorem takeFrame_rest {totalLength headersLength : Nat} {event : KiroEvent}
    (taken : takeFrame crates source totalLength headersLength = .ok (event, rest)) :
    totalLength ≤ source.length ∧ rest = source.drop totalLength := by
  obtain ⟨frame, -, taken⟩ := bind_ok.mp taken
  obtain ⟨_, -, taken⟩ := bind_ok.mp taken
  obtain ⟨block, -, taken⟩ := bind_ok.mp taken
  obtain ⟨headers, -, taken⟩ := bind_ok.mp taken
  obtain ⟨payload, -, taken⟩ := bind_ok.mp taken
  split at taken
  · cases taken
  · obtain ⟨left, advanced, done⟩ := bind_ok.mp taken
    cases done
    unfold advance at advanced
    split at advanced
    case isTrue fits =>
      cases advanced
      exact ⟨fits, rfl⟩
    case isFalse => cases advanced

theorem nextEvent_append (more : List UInt8) (decided : nextEvent crates source ≠ .ok none) :
    nextEvent crates (source ++ more) =
      (nextEvent crates source).map (Option.map fun found => (found.1, found.2 ++ more)) := by
  unfold nextEvent at decided ⊢
  split at decided
  case isTrue => exact absurd rfl decided
  case isFalse long =>
    have prelude : 16 ≤ source.length := by
      simp only [minFrameLength] at long
      omega
    have longer : ¬(source ++ more).length < minFrameLength := by
      simp only [List.length_append, minFrameLength]
      omega
    rw [if_neg longer, if_neg long, u32At_append (by omega), u32At_append (by omega)]
    cases total : u32At source 0 with
    | error e => rfl
    | ok totalLength =>
      cases headers : u32At source 4 with
      | error e => rfl
      | ok headersLength =>
        simp only [total, headers, bind, Except.bind] at decided ⊢
        split
        case isTrue => rfl
        case isFalse bounds =>
          simp only [minFrameLength, maxFrameLength] at bounds
          split
          case isTrue => rfl
          case isFalse headersFit =>
            simp only [minFrameLength] at headersFit
            have full : totalLength ≤ source.length := by
              by_contra short
              simp_all [minFrameLength, maxFrameLength]
            have fuller : ¬(source ++ more).length < totalLength := by
              simp only [List.length_append]
              omega
            rw [if_neg fuller, if_neg (by omega), takeFrame_append crates more full (by omega)]
            cases takeFrame crates source totalLength headersLength with
            | error e => rfl
            | ok found => rfl

theorem nextEvent_consumes {event : KiroEvent} (found : nextEvent crates source = .ok (some (event, rest))) :
    rest.length < source.length := by
  unfold nextEvent at found
  split at found
  · cases found
  · obtain ⟨totalLength, -, found⟩ := bind_ok.mp found
    obtain ⟨headersLength, -, found⟩ := bind_ok.mp found
    split at found
    case isTrue => cases found
    case isFalse bounds =>
      simp only [minFrameLength] at bounds
      split at found
      · cases found
      · split at found
        · cases found
        · obtain ⟨⟨first, left⟩, taken, done⟩ := bind_ok.mp found
          cases done
          obtain ⟨fits, rfl⟩ := takeFrame_rest crates taken
          rw [List.length_drop]
          omega

/-! ### The two decoders -/

theorem decode_some {event : KiroEvent} :
    decode crates source = (.ok (some event), rest) ↔ nextEvent crates source = .ok (some (event, rest)) := by
  unfold decode
  rcases nextEvent crates source with e | (_ | ⟨found, left⟩) <;> simp

theorem decode_none :
    decode crates source = (.ok none, rest) ↔ nextEvent crates source = .ok none ∧ source = rest := by
  unfold decode
  rcases nextEvent crates source with e | (_ | ⟨found, left⟩) <;> simp

theorem decode_error {e : Stop} :
    decode crates source = (.error e, rest) ↔ nextEvent crates source = .error e ∧ source = rest := by
  unfold decode
  rcases nextEvent crates source with e | (_ | ⟨found, left⟩) <;> simp

theorem decodeEof_some {event : KiroEvent} (found : decodeEof crates source = (.ok (some event), rest)) :
    decode crates source = (.ok (some event), rest) := by
  unfold decodeEof at found
  split at found
  · split at found <;> cases found
  · exact found

def decoder : Decoder UInt8 KiroEvent Stop where
  call := decode crates
  consumes _ _ _ found := nextEvent_consumes crates ((decode_some crates).mp found)

def eofDecoder : Decoder UInt8 KiroEvent Stop where
  call := decodeEof crates
  consumes _ _ _ found := nextEvent_consumes crates ((decode_some crates).mp (decodeEof_some crates found))

theorem decoder_stable : (decoder crates).Stable where
  yields buffer more event rest found := by
    have seen := (decode_some crates).mp found
    apply (decode_some crates).mpr
    rw [nextEvent_append crates more (by simp [seen]), seen]
    rfl
  fails buffer more e rest failed := by
    obtain ⟨seen, -⟩ := (decode_error crates).mp failed
    have again : nextEvent crates (buffer ++ more) = .error e := by
      rw [nextEvent_append crates more (by simp [seen]), seen]
      rfl
    simp [decoder, decode, again]
  waits buffer rest waiting := ((decode_none crates).mp waiting).2.symm

/-! ### The format -/

inductive FixedType where
  | boolTrue | boolFalse | byte | short | integer | long | timestamp | uuid

def FixedType.kind : FixedType → UInt8
  | boolTrue => 0
  | boolFalse => 1
  | byte => 2
  | short => 3
  | integer => 4
  | long => 5
  | timestamp => 8
  | uuid => 9

def FixedType.size : FixedType → Nat
  | boolTrue | boolFalse => 0
  | byte => 1
  | short => 2
  | integer => 4
  | long | timestamp => 8
  | uuid => 16

inductive HeaderValue where
  | fixed (type : FixedType) (raw : List UInt8) (sized : raw.length = type.size)
  | byteArray (raw : List UInt8) (short : raw.length < 256 ^ 2)
  | text (value : String) (short : (utf8 value).length < 256 ^ 2)

def HeaderValue.kind : HeaderValue → UInt8
  | fixed type _ _ => type.kind
  | byteArray _ _ => 6
  | text _ _ => 7

def HeaderValue.encode : HeaderValue → List UInt8
  | fixed _ raw _ => raw
  | byteArray raw _ => toBeBytes 2 raw.length ++ raw
  | text value _ => toBeBytes 2 (utf8 value).length ++ utf8 value

structure Header where
  name : String
  value : HeaderValue
  short : (utf8 name).length < 256

def Header.encode (h : Header) : List UInt8 :=
  UInt8.ofNat (utf8 h.name).length :: utf8 h.name ++ h.value.kind :: h.value.encode

def Header.entry (h : Header) : Option (String × String) :=
  match h.value with
  | .text value _ => some (h.name, value)
  | _ => none

theorem utf8Slice_middle (front : List UInt8) (text : String) (back : List UInt8) {first last : Nat} (message : String)
    (start : first = front.length) (stop : last = front.length + (utf8 text).length) :
    utf8Slice (front ++ (utf8 text ++ back)) first last message = .ok text := by
  simp [utf8Slice, slice_middle front (utf8 text) back start stop, bind, Except.bind]

theorem parseValue_encode (h : Header) (front back : List UInt8) :
    parseValue (front ++ (h.value.encode ++ back)) h.name h.value.kind front.length =
      .ok (h.entry, front.length + h.value.encode.length) := by
  obtain ⟨name, value, short⟩ := h
  cases value with
  | fixed type raw sized => cases type <;> simp [parseValue, HeaderValue.kind, FixedType.kind, FixedType.size,
      Header.entry, HeaderValue.encode, sized]
  | byteArray raw small =>
    have layout : front ++ (HeaderValue.encode (.byteArray raw small) ++ back) =
        front ++ (toBeBytes 2 raw.length ++ (raw ++ back)) := by
      simp [HeaderValue.encode]
    have room : ¬front.length + 2 > (front ++ (toBeBytes 2 raw.length ++ (raw ++ back))).length := by
      simp only [List.length_append, length_toBeBytes]
      omega
    rw [layout]
    simp only [parseValue, HeaderValue.kind, UInt8.reduceToNat, if_neg room]
    rw [u16At_middle front _ (raw ++ back) rfl (length_toBeBytes 2 _), fromBeBytes_toBeBytes small]
    simp [bind, Except.bind, pure, Except.pure, Header.entry, HeaderValue.encode]
  | text value small =>
    have layout : front ++ (HeaderValue.encode (.text value small) ++ back) =
        front ++ (toBeBytes 2 (utf8 value).length ++ (utf8 value ++ back)) := by
      simp [HeaderValue.encode]
    have room : ¬front.length + 2 > (front ++ (toBeBytes 2 (utf8 value).length ++ (utf8 value ++ back))).length := by
      simp only [List.length_append, length_toBeBytes]
      omega
    have content : ¬front.length + 2 + (utf8 value).length >
        (front ++ (toBeBytes 2 (utf8 value).length ++ (utf8 value ++ back))).length := by
      simp only [List.length_append, length_toBeBytes]
      omega
    have inner : utf8Slice (front ++ (toBeBytes 2 (utf8 value).length ++ (utf8 value ++ back))) (front.length + 2)
        (front.length + 2 + (utf8 value).length) "event stream header is not UTF-8" = .ok value := by
      rw [← List.append_assoc]
      exact utf8Slice_middle _ value back _ (by simp) (by simp)
    rw [layout]
    simp only [parseValue, HeaderValue.kind, UInt8.reduceToNat, if_neg room]
    rw [u16At_middle front _ (utf8 value ++ back) rfl (length_toBeBytes 2 _), fromBeBytes_toBeBytes small]
    simp only [bind, Except.bind, if_neg content, inner]
    simp [pure, Except.pure, Header.entry, HeaderValue.encode, Nat.add_assoc]

theorem parseHeader_encode (h : Header) (front back : List UInt8) :
    parseHeader (front ++ (h.encode ++ back)) front.length = .ok (h.entry, front.length + h.encode.length) := by
  have size : (UInt8.ofNat (utf8 h.name).length).toNat = (utf8 h.name).length := by
    have := h.short
    rw [UInt8.toNat_ofNat']
    omega
  have nameAt : byteAt (front ++ (h.encode ++ back)) front.length = .ok (UInt8.ofNat (utf8 h.name).length) :=
    byteAt_middle front _ _ rfl
  have room : ¬front.length + 1 + (utf8 h.name).length + 1 > (front ++ (h.encode ++ back)).length := by
    simp only [Header.encode, List.length_append, List.length_cons]
    omega
  have name : utf8Slice (front ++ (h.encode ++ back)) (front.length + 1) (front.length + 1 + (utf8 h.name).length)
      "event stream header name is not UTF-8" = .ok h.name := by
    rw [show front ++ (h.encode ++ back) = (front ++ [UInt8.ofNat (utf8 h.name).length]) ++
      (utf8 h.name ++ (h.value.kind :: h.value.encode ++ back)) by simp [Header.encode]]
    exact utf8Slice_middle _ h.name _ _ (by simp) (by simp)
  have kind : byteAt (front ++ (h.encode ++ back)) (front.length + 1 + (utf8 h.name).length) = .ok h.value.kind := by
    rw [show front ++ (h.encode ++ back) = (front ++ UInt8.ofNat (utf8 h.name).length :: utf8 h.name) ++
      h.value.kind :: (h.value.encode ++ back) by simp [Header.encode]]
    exact byteAt_middle _ _ _ (by simp only [List.length_append, List.length_cons]; omega)
  have value : parseValue (front ++ (h.encode ++ back)) h.name h.value.kind
      (front.length + 1 + (utf8 h.name).length + 1) = .ok (h.entry, front.length + h.encode.length) := by
    have inner := parseValue_encode h (front ++ UInt8.ofNat (utf8 h.name).length :: utf8 h.name ++ [h.value.kind]) back
    simp only [Header.encode, List.length_append, List.length_cons, List.length_nil, List.append_assoc,
      List.cons_append, List.nil_append, Nat.zero_add] at inner ⊢
    rw [show front.length + 1 + (utf8 h.name).length + 1 = front.length + ((utf8 h.name).length + 1 + 1) by omega]
    rw [inner]
    congr 2
    omega
  have inside : ¬front.length + h.encode.length > (front ++ (h.encode ++ back)).length := by
    simp only [List.length_append]
    omega
  unfold parseHeader
  simp only [nameAt, bind, Except.bind, size, if_neg room, name, kind, value, if_neg inside, pure, Except.pure]

theorem parseHeadersFrom_encode (headers : List Header) (front : List UInt8) (found : Headers) :
    parseHeadersFrom (front ++ headers.flatMap Header.encode) front.length found =
      .ok ((headers.map Header.entry).foldl addHeader found) := by
  induction headers generalizing front found with
  | nil =>
    rw [parseHeadersFrom]
    simp
  | cons h headers ih =>
    have more : front.length < (front ++ (h.encode ++ headers.flatMap Header.encode)).length := by
      simp only [List.length_append, Header.encode, List.length_cons]
      omega
    have next := ih (front ++ h.encode) (addHeader found h.entry)
    rw [List.flatMap_cons, parseHeadersFrom, if_pos more]
    rw [List.append_assoc, List.length_append] at next
    split
    case h_1 e failed =>
      rw [parseHeader_encode] at failed
      cases failed
    case h_2 entry after parsed =>
      rw [parseHeader_encode] at parsed
      cases parsed
      simpa using next

theorem parseHeaders_encode (headers : List Header) :
    parseHeaders (headers.flatMap Header.encode) = .ok ((headers.map Header.entry).foldl addHeader ∅) :=
  parseHeadersFrom_encode headers [] ∅

structure Message where
  headers : List Header
  preludeCrc : UInt32
  payload : List UInt8
  messageCrc : UInt32

namespace Message

def headerBlock (m : Message) : List UInt8 := m.headers.flatMap Header.encode

def totalLength (m : Message) : Nat := 16 + m.headerBlock.length + m.payload.length

def prelude (m : Message) : List UInt8 := toBeBytes 4 m.totalLength ++ toBeBytes 4 m.headerBlock.length

def body (m : Message) : List UInt8 :=
  m.prelude ++ (toBeBytes 4 m.preludeCrc.toNat ++ (m.headerBlock ++ m.payload))

def encode (m : Message) : List UInt8 := m.body ++ toBeBytes 4 m.messageCrc.toNat

@[simp] theorem length_prelude (m : Message) : m.prelude.length = 8 := by
  simp [prelude]

theorem length_body (m : Message) : m.body.length + 4 = m.totalLength := by
  simp only [body, totalLength, List.length_append, length_prelude, length_toBeBytes]
  omega

@[simp] theorem length_encode (m : Message) : m.encode.length = m.totalLength := by
  rw [encode, List.length_append, length_toBeBytes, length_body]

end Message

/-- A message that follows the format: it is not too long, each checksum is right or left at
zero, and the payload is JSON. -/
structure Frame extends Message where
  value : Value
  json : crates.fromSlice payload = .ok value
  bounded : toMessage.totalLength ≤ maxFrameLength
  preludeValid : preludeCrc = 0 ∨ preludeCrc = crates.hash toMessage.prelude
  messageValid : messageCrc = 0 ∨ messageCrc = crates.hash toMessage.body

variable {crates}

def Frame.event (f : Frame crates) : KiroEvent :=
  toEvent ((f.headers.map Header.entry).foldl addHeader ∅) f.value

theorem fromBeBytes_uint32 (n : UInt32) : fromBeBytes (toBeBytes 4 n.toNat) = n.toNat :=
  fromBeBytes_toBeBytes (by have := n.toNat_lt; omega)

theorem validateCrc_encode (f : Frame crates) : validateCrc crates f.encode = .ok () := by
  have prelude : u32At f.encode 8 = .ok f.preludeCrc.toNat := by
    rw [← fromBeBytes_uint32 f.preludeCrc, Message.encode, Message.body, List.append_assoc, List.append_assoc]
    exact u32At_middle f.prelude _ _ (by simp) (by simp)
  have covered : slice f.encode 0 8 = .ok f.prelude := by
    rw [Message.encode, Message.body, List.append_assoc]
    exact slice_middle [] f.prelude _ rfl (by simp)
  have offset : f.encode.length - 4 = f.body.length := by
    have := f.length_body
    rw [f.length_encode]
    omega
  have message : u32At f.encode f.body.length = .ok f.messageCrc.toNat := by
    rw [← fromBeBytes_uint32 f.messageCrc, Message.encode, ← List.append_nil (toBeBytes 4 f.messageCrc.toNat)]
    exact u32At_middle f.body _ [] rfl (by simp)
  have all : slice f.encode 0 f.body.length = .ok f.body := slice_middle [] f.body _ rfl (by simp)
  have first : ¬(f.preludeCrc.toNat ≠ 0 ∧ (crates.hash f.prelude).toNat ≠ f.preludeCrc.toNat) := by
    rcases f.preludeValid with zero | right
    · simp [zero]
    · simp [← right]
  have second : ¬(f.messageCrc.toNat ≠ 0 ∧ (crates.hash f.body).toNat ≠ f.messageCrc.toNat) := by
    rcases f.messageValid with zero | right
    · simp [zero]
    · simp [← right]
  unfold validateCrc
  simp only [offset, prelude, covered, message, all, bind, Except.bind, if_neg first, if_neg second, pure, Except.pure]

theorem takeFrame_encode (f : Frame crates) :
    takeFrame crates f.encode f.totalLength f.headerBlock.length = .ok (f.event, []) := by
  have size := f.length_encode
  have frame : slice f.encode 0 f.totalLength = .ok f.encode := by
    rw [slice, if_pos ⟨Nat.zero_le _, Nat.le_of_eq size.symm⟩, List.take_of_length_le (Nat.le_of_eq size),
      List.drop_zero]
  have block : slice f.encode 12 (12 + f.headerBlock.length) = .ok f.headerBlock := by
    rw [show f.encode = (f.prelude ++ toBeBytes 4 f.preludeCrc.toNat) ++
      (f.headerBlock ++ (f.payload ++ toBeBytes 4 f.messageCrc.toNat)) by simp [Message.encode, Message.body]]
    exact slice_middle _ f.headerBlock _ (by simp) (by simp)
  have payload : slice f.encode (12 + f.headerBlock.length) (f.totalLength - 4) = .ok f.payload := by
    rw [show f.encode = (f.prelude ++ (toBeBytes 4 f.preludeCrc.toNat ++ f.headerBlock)) ++
      (f.payload ++ toBeBytes 4 f.messageCrc.toNat) by simp [Message.encode, Message.body]]
    apply slice_middle
    · simp only [List.length_append, Message.length_prelude, length_toBeBytes]
      omega
    · simp only [List.length_append, Message.length_prelude, length_toBeBytes, Message.totalLength]
      omega
  have headers : parseHeaders f.headerBlock = .ok ((f.headers.map Header.entry).foldl addHeader ∅) :=
    parseHeaders_encode f.headers
  have rest : advance f.encode f.totalLength = .ok [] := by
    simp [advance, size]
  unfold takeFrame
  simp only [frame, block, payload, rest, validateCrc_encode f, headers, f.json, bind, Except.bind, pure, Except.pure]
  rfl

theorem lengths_encode (f : Frame crates) (arrived : 8 ≤ n) (part : n ≤ f.encode.length) :
    u32At (f.encode.take n) 0 = .ok f.totalLength ∧ u32At (f.encode.take n) 4 = .ok f.headerBlock.length := by
  have bounded := f.bounded
  simp only [maxFrameLength] at bounded
  have block : f.headerBlock.length ≤ f.totalLength := by
    simp only [Message.totalLength]
    omega
  have size : (f.encode.take n).length = n := by
    rw [List.length_take]
    omega
  have front : u32At f.encode 0 = .ok f.totalLength := by
    rw [show f.encode = [] ++ (toBeBytes 4 f.totalLength ++ (toBeBytes 4 f.headerBlock.length ++
      (toBeBytes 4 f.preludeCrc.toNat ++ (f.headerBlock ++ (f.payload ++ toBeBytes 4 f.messageCrc.toNat))))) by
        simp [Message.encode, Message.body, Message.prelude]]
    rw [u32At_middle (i := 0) [] _ _ rfl (by simp), fromBeBytes_toBeBytes (by omega)]
  have second : u32At f.encode 4 = .ok f.headerBlock.length := by
    rw [show f.encode = toBeBytes 4 f.totalLength ++ (toBeBytes 4 f.headerBlock.length ++
      (toBeBytes 4 f.preludeCrc.toNat ++ (f.headerBlock ++ (f.payload ++ toBeBytes 4 f.messageCrc.toNat)))) by
        simp [Message.encode, Message.body, Message.prelude]]
    rw [u32At_middle _ _ _ (by simp) (by simp), fromBeBytes_toBeBytes (by omega)]
  rw [← List.take_append_drop n f.encode, u32At_append (by omega)] at front second
  exact ⟨front, second⟩

theorem nextEvent_take (f : Frame crates) (arrived : 16 ≤ n) (part : n ≤ f.encode.length) :
    nextEvent crates (f.encode.take n) =
      if n < f.totalLength then .ok none
      else do return some (← takeFrame crates (f.encode.take n) f.totalLength f.headerBlock.length) := by
  obtain ⟨total, headers⟩ := lengths_encode f (by omega) part
  have size : (f.encode.take n).length = n := by
    rw [List.length_take]
    omega
  have bounds : ¬¬(minFrameLength ≤ f.totalLength ∧ f.totalLength ≤ maxFrameLength) := by
    have least : minFrameLength ≤ f.totalLength := by
      simp only [minFrameLength, Message.totalLength]
      omega
    exact not_not.mpr ⟨least, f.bounded⟩
  have block : ¬f.headerBlock.length > f.totalLength - minFrameLength := by
    simp only [minFrameLength, Message.totalLength]
    omega
  unfold nextEvent
  rw [size, if_neg (by simp only [minFrameLength]; omega), total, headers]
  simp only [bind, Except.bind, if_neg bounds, if_neg block]

theorem nextEvent_encode (f : Frame crates) (rest : List UInt8) :
    nextEvent crates (f.encode ++ rest) = .ok (some (f.event, rest)) := by
  have whole : nextEvent crates f.encode = .ok (some (f.event, [])) := by
    have sixteen : 16 ≤ f.encode.length := by
      rw [f.length_encode, Message.totalLength]
      omega
    have taken := nextEvent_take f sixteen (le_refl f.encode.length)
    rw [List.take_length, f.length_encode, if_neg (Nat.lt_irrefl _), takeFrame_encode] at taken
    exact taken
  rw [nextEvent_append crates rest (by simp [whole]), whole]
  rfl

theorem nextEvent_incomplete (f : Frame crates) (part : n < f.encode.length) :
    nextEvent crates (f.encode.take n) = .ok none := by
  rcases Nat.lt_or_ge n 16 with short | long
  · unfold nextEvent
    rw [if_pos]
    rw [List.length_take]
    simp only [minFrameLength]
    omega
  · rw [nextEvent_take f long (Nat.le_of_lt part), if_pos (f.length_encode ▸ part)]

/-! ### Whole streams -/

theorem drain_encode (frames : List (Frame crates)) (rest : List UInt8) :
    (decoder crates).drain (frames.flatMap (fun f => f.encode) ++ rest) =
      (frames.map Frame.event ++ ((decoder crates).drain rest).1, ((decoder crates).drain rest).2) := by
  induction frames with
  | nil => rfl
  | cons f frames ih =>
    have called : (decoder crates).call (f.encode ++ (frames.flatMap (fun f => f.encode) ++ rest)) =
        (.ok (some f.event), frames.flatMap (fun f => f.encode) ++ rest) :=
      (decode_some crates).mpr (nextEvent_encode f _)
    rw [List.flatMap_cons, List.append_assoc, drain_some called, ih]
    rfl

theorem eof_empty : (eofDecoder crates).drain [] = ([], .ok []) :=
  drain_none (by rfl)

theorem eof_incomplete (f : Frame crates) (some : 0 < n) (part : n < f.encode.length) :
    (eofDecoder crates).drain (f.encode.take n) =
      ([], .error (.invalid ("stream ended with incomplete event message (" ++ toString n ++ " bytes remaining)"))) := by
  have waiting : decode crates (f.encode.take n) = (.ok none, f.encode.take n) :=
    (decode_none crates).mpr ⟨nextEvent_incomplete f part, rfl⟩
  have size : (f.encode.take n).length = n := by
    rw [List.length_take]
    omega
  have left : (f.encode.take n).isEmpty = false := by
    rw [List.isEmpty_eq_false_iff]
    apply List.ne_nil_of_length_pos
    omega
  apply drain_error
  simp only [eofDecoder, decodeEof, waiting, left, size, invalid, Bool.false_eq_true, if_false]

theorem decoder_waits_empty : (decoder crates).call [] = (.ok none, []) := rfl

/-- However the bytes of a stream are cut into chunks, the events and the end are those of the
whole; a sequence of frames yields its events and ends cleanly with an empty buffer, and a
part of a frame at the end is an error of `decode_eof`. -/
theorem decoding_ignores_chunks (crates : Crates) :
    (∀ chunks : List (List UInt8), feed (decoder crates) (eofDecoder crates) [] chunks =
      feed (decoder crates) (eofDecoder crates) [] [chunks.flatten]) ∧
    (∀ (frames : List (Frame crates)) (chunks : List (List UInt8)),
      chunks.flatten = frames.flatMap (fun f => f.encode) →
      feed (decoder crates) (eofDecoder crates) [] chunks = (frames.map Frame.event, .ok [])) ∧
    ∀ (frames : List (Frame crates)) (last : Frame crates) (n : Nat) (chunks : List (List UInt8)),
      0 < n → n < last.encode.length →
      chunks.flatten = frames.flatMap (fun f => f.encode) ++ last.encode.take n →
      feed (decoder crates) (eofDecoder crates) [] chunks = (frames.map Frame.event,
        .error (.invalid ("stream ended with incomplete event message (" ++ toString n ++ " bytes remaining)"))) := by
  have stable := decoder_stable crates
  refine ⟨feed_flatten stable decoder_waits_empty, ?_, ?_⟩
  · intro frames chunks whole
    have drained := drain_encode frames []
    rw [List.append_nil, drain_none decoder_waits_empty, List.append_nil] at drained
    rw [feed_waiting stable chunks [] decoder_waits_empty, whole, List.nil_append, drained]
    simp [followedBy, eof_empty]
  · intro frames last n chunks some part whole
    have waiting : (decoder crates).call (last.encode.take n) = (.ok none, last.encode.take n) :=
      (decode_none crates).mpr ⟨nextEvent_incomplete last part, rfl⟩
    have drained := drain_encode frames (last.encode.take n)
    rw [drain_none waiting, List.append_nil] at drained
    rw [feed_waiting stable chunks [] decoder_waits_empty, whole, List.nil_append, drained]
    simp [followedBy, eof_incomplete last some part]

def crc32 (bytes : List UInt8) : UInt32 :=
  let shift (crc : UInt32) (_ : Nat) : UInt32 := if crc &&& 1 = 1 then (crc >>> 1) ^^^ 0xEDB88320 else crc >>> 1
  bytes.foldl (fun crc b => (List.range 8).foldl shift (crc ^^^ b.toUInt32)) 0xFFFFFFFF ^^^ 0xFFFFFFFF

def emptyObjects : Crates where
  hash := crc32
  fromSlice bytes := if bytes = [0x7b, 0x7d] then .ok (.object []) else .error "expected value at line 1 column 1"

/-- An event without fields, with its first checksum given and its second left out. -/
def usageFrame : Frame emptyObjects where
  headers := [{ name := ":event-type", value := .text "usageEvent" (by decide), short := by decide }]
  preludeCrc := 3076024764
  payload := [0x7b, 0x7d]
  messageCrc := 0
  value := .object []
  json := rfl
  bounded := by decide
  preludeValid := .inr (by decide +kernel)
  messageValid := .inl rfl

theorem decoding_ignores_chunks_split :
    feed (decoder emptyObjects) (eofDecoder emptyObjects) []
        [usageFrame.encode.take 9, usageFrame.encode.drop 9 ++ usageFrame.encode.take 7] =
      ([usageFrame.event], .error (.invalid "stream ended with incomplete event message (7 bytes remaining)")) := by
  have part : 7 < usageFrame.encode.length := by decide
  refine (decoding_ignores_chunks emptyObjects).2.2 [usageFrame] usageFrame 7 _ (by decide) part ?_
  simp [← List.append_assoc]

end KiroProxy.Kiro

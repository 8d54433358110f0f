import KiroProxy.Lib.Bytes
import KiroProxy.Kiro.Event

/-! The event-stream decoder: length and CRC checks, the header block, the JSON payload.
The checksum and the JSON parser come from outside. -/
namespace KiroProxy.Kiro

open Bytes

def minFrameLength : Nat := 16

def maxFrameLength : Nat := 50 * 1024 * 1024

def invalid {α : Type} (message : String) : Except Stop α := .error (.invalid message)

section Headers

variable (bytes : List UInt8)

def utf8Slice (first last : Nat) (message : String) : Except Stop String := do
  match fromUtf8 (← slice bytes first last) with
  | some text => .ok text
  | none => invalid message

/-- The value of one header, by its type byte: the entry it makes, and where it ends. Only
the string headers are kept. -/
def parseValue (name : String) (kind : UInt8) (offset : Nat) : Except Stop (Option (String × String) × Nat) :=
  match kind.toNat with
  | 7 =>
    if offset + 2 > bytes.length then invalid "truncated event stream string header"
    else do
      let length ← u16At bytes offset
      let offset := offset + 2
      if offset + length > bytes.length then invalid "truncated event stream string value"
      else do
        let value ← utf8Slice bytes offset (offset + length) "event stream header is not UTF-8"
        return (some (name, value), offset + length)
  | 0 | 1 => .ok (none, offset)
  | 2 => .ok (none, offset + 1)
  | 3 => .ok (none, offset + 2)
  | 4 => .ok (none, offset + 4)
  | 5 | 8 => .ok (none, offset + 8)
  | 6 =>
    if offset + 2 > bytes.length then invalid "truncated byte-array header"
    else do
      let length ← u16At bytes offset
      return (none, offset + (2 + length))
  | 9 => .ok (none, offset + 16)
  | unknown => invalid ("unknown event stream header type " ++ toString unknown)

def parseHeader (start : Nat) : Except Stop (Option (String × String) × Nat) := do
  let nameLen := (← byteAt bytes start).toNat
  let offset := start + 1
  if offset + nameLen + 1 > bytes.length then invalid "truncated event stream header name"
  else do
    let name ← utf8Slice bytes offset (offset + nameLen) "event stream header name is not UTF-8"
    let offset := offset + nameLen
    let kind ← byteAt bytes offset
    let (entry, offset) ← parseValue bytes name kind (offset + 1)
    if offset > bytes.length then invalid "truncated event stream header value" else return (entry, offset)

theorem parseValue_advances {name : String} {kind : UInt8} {offset next : Nat} {entry : Option (String × String)}
    (parsed : parseValue bytes name kind offset = .ok (entry, next)) : offset ≤ next := by
  unfold parseValue at parsed
  split at parsed
  case h_1 =>
    split at parsed
    · cases parsed
    · obtain ⟨length, -, rest⟩ := bind_ok.mp parsed
      dsimp only at rest
      split at rest
      · cases rest
      · obtain ⟨value, -, done⟩ := bind_ok.mp rest
        cases done
        omega
  case h_9 =>
    split at parsed
    · cases parsed
    · obtain ⟨length, -, done⟩ := bind_ok.mp parsed
      cases done
      omega
  all_goals cases parsed <;> omega

theorem parseHeader_advances {start next : Nat} {entry : Option (String × String)}
    (parsed : parseHeader bytes start = .ok (entry, next)) : start < next := by
  obtain ⟨nameLen, -, rest⟩ := bind_ok.mp parsed
  dsimp only at rest
  split at rest
  · cases rest
  · obtain ⟨name, -, rest⟩ := bind_ok.mp rest
    obtain ⟨kind, -, rest⟩ := bind_ok.mp rest
    obtain ⟨⟨found, offset⟩, value, rest⟩ := bind_ok.mp rest
    have := parseValue_advances bytes value
    dsimp only at rest
    split at rest
    · cases rest
    · cases rest
      omega

def addHeader (headers : Headers) : Option (String × String) → Headers
  | some (name, value) => headers.insert name value
  | none => headers

def parseHeadersFrom (offset : Nat) (headers : Headers) : Except Stop Headers :=
  if offset < bytes.length then
    match _parsed : parseHeader bytes offset with
    | .error e => .error e
    | .ok (entry, next) => parseHeadersFrom next (addHeader headers entry)
  else .ok headers
termination_by bytes.length - offset
decreasing_by
  have := parseHeader_advances bytes _parsed
  omega

def parseHeaders : Except Stop Headers := parseHeadersFrom bytes 0 ∅

end Headers

/-- What the decoder takes from other crates: `crc32fast::hash` and `serde_json::from_slice`. -/
structure Crates where
  hash : List UInt8 → UInt32
  fromSlice : List UInt8 → Except String Value

variable (crates : Crates)

def validateCrc (frame : List UInt8) : Except Stop Unit := do
  let preludeExpected ← u32At frame 8
  if preludeExpected ≠ 0 ∧ (crates.hash (← slice frame 0 8)).toNat ≠ preludeExpected then
    invalid "event stream prelude CRC mismatch"
  else do
    let messageExpected ← u32At frame (frame.length - 4)
    if messageExpected ≠ 0 ∧ (crates.hash (← slice frame 0 (frame.length - 4))).toNat ≠ messageExpected then
      invalid "event stream message CRC mismatch"
    else return ()

/-- `Buf::advance` -/
def advance (source : List UInt8) (count : Nat) : Except Stop (List UInt8) :=
  if count ≤ source.length then .ok (source.drop count) else .error .panic

/-- The frame at the front of the buffer, which is complete: its event, and the buffer after it. -/
def takeFrame (source : List UInt8) (totalLength headersLength : Nat) : Except Stop (KiroEvent × List UInt8) := do
  validateCrc crates (← slice source 0 totalLength)
  let headers ← parseHeaders (← slice source 12 (12 + headersLength))
  let payload ← slice source (12 + headersLength) (totalLength - 4)
  match crates.fromSlice payload with
  | .error error => invalid ("invalid Kiro event JSON: " ++ error)
  | .ok value => do
    let rest ← advance source totalLength
    return (toEvent headers value, rest)

def nextEvent (source : List UInt8) : Except Stop (Option (KiroEvent × List UInt8)) :=
  if source.length < minFrameLength then .ok none
  else do
    let totalLength ← u32At source 0
    let headersLength ← u32At source 4
    if ¬(minFrameLength ≤ totalLength ∧ totalLength ≤ maxFrameLength) then
      invalid ("invalid event stream length " ++ toString totalLength)
    else if headersLength > totalLength - minFrameLength then
      invalid ("invalid headers length " ++ toString headersLength ++ " for frame " ++ toString totalLength)
    else if source.length < totalLength then .ok none
    else do return some (← takeFrame crates source totalLength headersLength)

def decode (source : List UInt8) : Except Stop (Option KiroEvent) × List UInt8 :=
  match nextEvent crates source with
  | .error e => (.error e, source)
  | .ok none => (.ok none, source)
  | .ok (some (event, rest)) => (.ok (some event), rest)

def decodeEof (source : List UInt8) : Except Stop (Option KiroEvent) × List UInt8 :=
  match decode crates source with
  | (.ok none, rest) =>
    if rest.isEmpty then (.ok none, rest)
    else (invalid ("stream ended with incomplete event message (" ++ toString rest.length ++ " bytes remaining)"), rest)
  | done => done

end KiroProxy.Kiro

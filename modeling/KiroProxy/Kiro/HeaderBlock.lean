import KiroProxy.Kiro.EventStreamChunks
import KiroProxy.Lib.Lookup
import KiroProxy.Lib.Utf8Cut

/-! Which byte sequences are header blocks, and what the decoder takes from a buffer. -/
namespace KiroProxy.Kiro

open Bytes

/-! ### Access -/

variable {bytes : List UInt8} {first i last offset : Nat}

theorem byteAt_inside (inside : i < bytes.length) :
    ∃ b, byteAt bytes i = .ok b ∧ bytes.drop i = b :: bytes.drop (i + 1) := by
  refine ⟨bytes[i], ?_, List.drop_eq_getElem_cons inside⟩
  rw [byteAt, List.getElem?_eq_getElem inside]

theorem byteAt_ok {b : UInt8} (read : byteAt bytes i = .ok b) :
    bytes.drop i = b :: bytes.drop (i + 1) := by
  have inside : i < bytes.length := by
    by_contra outside
    rw [byteAt, List.getElem?_eq_none (Nat.le_of_not_lt outside)] at read
    cases read
  obtain ⟨c, same, split⟩ := byteAt_inside inside
  rw [read] at same
  cases same
  exact split

theorem slice_inside (ordered : first ≤ last) (inside : last ≤ bytes.length) :
    ∃ part, slice bytes first last = .ok part ∧ bytes.drop first = part ++ bytes.drop last ∧
      part.length = last - first := by
  refine ⟨(bytes.take last).drop first, if_pos ⟨ordered, inside⟩, ?_, ?_⟩
  · rw [← List.drop_append_of_le_length (by rw [List.length_take]; omega), List.take_append_drop]
  · rw [List.length_drop, List.length_take]
    omega

theorem toBeBytes_two (high low : UInt8) : toBeBytes 2 (fromBeBytes [high, low]) = [high, low] := by
  have := high.toNat_lt
  have := low.toNat_lt
  have top : UInt8.ofNat ((high.toNat * 256 + low.toNat) / 256) = high := by
    apply UInt8.toNat_inj.1
    rw [UInt8.toNat_ofNat']
    omega
  have bottom : UInt8.ofNat (high.toNat * 256 + low.toNat) = low := by
    apply UInt8.toNat_inj.1
    rw [UInt8.toNat_ofNat']
    omega
  simp [fromBeBytes, toBeBytes, top, bottom]

theorem u16At_inside (inside : i + 2 ≤ bytes.length) :
    ∃ n, u16At bytes i = .ok n ∧ n < 256 ^ 2 ∧ bytes.drop i = toBeBytes 2 n ++ bytes.drop (i + 2) := by
  obtain ⟨high, first, front⟩ := byteAt_inside (show i < bytes.length by omega)
  obtain ⟨low, second, back⟩ := byteAt_inside (show i + 1 < bytes.length by omega)
  refine ⟨fromBeBytes [high, low], ?_, ?_, ?_⟩
  · simp [u16At, first, second, bind, Except.bind, pure, Except.pure]
  · have := high.toNat_lt
    have := low.toNat_lt
    simp [fromBeBytes]
    omega
  · rw [toBeBytes_two, front, back]
    rfl

theorem utf8Slice_ok {message text : String} (read : utf8Slice bytes first last message = .ok text) :
    last ≤ bytes.length ∧ bytes.drop first = utf8 text ++ bytes.drop last ∧ (utf8 text).length = last - first := by
  unfold utf8Slice at read
  obtain ⟨part, cut, decoded⟩ := bind_ok.mp read
  have inside : first ≤ last ∧ last ≤ bytes.length := by
    by_contra outside
    rw [slice, if_neg outside] at cut
    cases cut
  obtain ⟨same, found, split, size⟩ := slice_inside inside.1 inside.2
  rw [cut] at found
  cases found
  cases text_here : fromUtf8 part with
  | none => rw [text_here] at decoded; cases decoded
  | some other =>
    rw [text_here] at decoded
    cases decoded
    rw [utf8_of_fromUtf8 text_here]
    exact ⟨inside.2, split, size⟩

theorem utf8Slice_inside (message : String) (ordered : first ≤ last) (inside : last ≤ bytes.length) :
    utf8Slice bytes first last message ≠ .error .panic := by
  obtain ⟨part, cut, -⟩ := slice_inside ordered inside
  unfold utf8Slice
  rw [cut]
  dsimp only [bind, Except.bind]
  split
  · exact nofun
  · exact nofun

/-! ### Headers -/

def HeaderValue.entry (name : String) : HeaderValue → Option (String × String)
  | .text value _ => some (name, value)
  | _ => none

theorem fixed_ok (name : String) (type : FixedType) {kind : UInt8} (named : kind.toNat = type.kind.toNat)
    (inside : offset + type.size ≤ bytes.length) :
    ∃ value : HeaderValue, value.kind = kind ∧ bytes.drop offset = value.encode ++ bytes.drop (offset + type.size) ∧
      value.entry name = none := by
  obtain ⟨raw, -, split, size⟩ := slice_inside (Nat.le_add_right offset type.size) inside
  exact ⟨.fixed type raw (by omega), (UInt8.toNat_inj.1 named).symm, split, rfl⟩

theorem parseValue_ok {name : String} {kind : UInt8} {next : Nat} {entry : Option (String × String)}
    (parsed : parseValue bytes name kind offset = .ok (entry, next)) (inside : next ≤ bytes.length) :
    ∃ value : HeaderValue, value.kind = kind ∧ bytes.drop offset = value.encode ++ bytes.drop next ∧
      value.entry name = entry := by
  unfold parseValue at parsed
  split at parsed
  case h_1 text =>
    split at parsed
    · cases parsed
    · obtain ⟨length, counted, parsed⟩ := bind_ok.mp parsed
      dsimp only at parsed
      split at parsed
      · cases parsed
      · obtain ⟨value, read, parsed⟩ := bind_ok.mp parsed
        cases parsed
        obtain ⟨-, split, size⟩ := utf8Slice_ok read
        obtain ⟨same, found, short, front⟩ := u16At_inside (show offset + 2 ≤ bytes.length by omega)
        rw [counted] at found
        cases found
        have length_eq : (utf8 value).length = length := by omega
        refine ⟨.text value (by omega), (UInt8.toNat_inj.1 text).symm, ?_, rfl⟩
        rw [front, split, HeaderValue.encode, length_eq, List.append_assoc]
  case h_2 kind_zero => cases parsed; exact fixed_ok name .boolTrue kind_zero inside
  case h_3 kind_one => cases parsed; exact fixed_ok name .boolFalse kind_one inside
  case h_4 kind_two => cases parsed; exact fixed_ok name .byte kind_two inside
  case h_5 kind_three => cases parsed; exact fixed_ok name .short kind_three inside
  case h_6 kind_four => cases parsed; exact fixed_ok name .integer kind_four inside
  case h_7 kind_five => cases parsed; exact fixed_ok name .long kind_five inside
  case h_8 kind_eight => cases parsed; exact fixed_ok name .timestamp kind_eight inside
  case h_9 array =>
    split at parsed
    · cases parsed
    · obtain ⟨length, counted, parsed⟩ := bind_ok.mp parsed
      cases parsed
      obtain ⟨same, found, short, front⟩ := u16At_inside (show offset + 2 ≤ bytes.length by omega)
      rw [counted] at found
      cases found
      obtain ⟨raw, -, split, size⟩ := slice_inside (show offset + 2 ≤ offset + (2 + length) by omega) inside
      have length_eq : raw.length = length := by omega
      refine ⟨.byteArray raw (by omega), (UInt8.toNat_inj.1 array).symm, ?_, rfl⟩
      rw [front, split, HeaderValue.encode, length_eq, List.append_assoc]
  case h_10 kind_nine => cases parsed; exact fixed_ok name .uuid kind_nine inside
  case h_11 => cases parsed

theorem parseHeader_ok {start next : Nat} {entry : Option (String × String)}
    (parsed : parseHeader bytes start = .ok (entry, next)) :
    next ≤ bytes.length ∧ ∃ h : Header, bytes.drop start = h.encode ++ bytes.drop next ∧ h.entry = entry := by
  obtain ⟨nameLen, counted, parsed⟩ := bind_ok.mp parsed
  dsimp only at parsed
  split at parsed
  · cases parsed
  · obtain ⟨name, named, parsed⟩ := bind_ok.mp parsed
    obtain ⟨kind, kinded, parsed⟩ := bind_ok.mp parsed
    obtain ⟨⟨found, offset⟩, valued, parsed⟩ := bind_ok.mp parsed
    dsimp only at parsed
    split at parsed
    · cases parsed
    · cases parsed
      have inside : next ≤ bytes.length := by omega
      obtain ⟨value, kind_eq, value_split, entry_eq⟩ := parseValue_ok valued inside
      obtain ⟨-, name_split, size⟩ := utf8Slice_ok named
      have size_eq : (utf8 name).length = nameLen.toNat := by omega
      have short : (utf8 name).length < 256 := by
        rw [size_eq]
        exact nameLen.toNat_lt
      have length_byte : UInt8.ofNat (utf8 name).length = nameLen := by
        apply UInt8.toNat_inj.1
        rw [UInt8.toNat_ofNat', size_eq]
        have := nameLen.toNat_lt
        omega
      refine ⟨inside, ⟨name, value, short⟩, ?_, ?_⟩
      · rw [byteAt_ok counted, name_split, byteAt_ok kinded, value_split, Header.encode, length_byte, kind_eq]
        simp [List.append_assoc]
      · rw [← entry_eq]
        cases value <;> rfl

theorem parseValue_inside (bytes : List UInt8) (name : String) (kind : UInt8) (offset : Nat) :
    parseValue bytes name kind offset ≠ .error .panic := by
  unfold parseValue
  split
  case h_1 =>
    split
    · exact nofun
    · obtain ⟨length, counted, -, -⟩ := u16At_inside (show offset + 2 ≤ bytes.length by omega)
      rw [counted]
      dsimp only [bind, Except.bind]
      split
      · exact nofun
      · intro panics
        have safe := utf8Slice_inside "event stream header is not UTF-8"
          (show offset + 2 ≤ offset + 2 + length by omega) (show offset + 2 + length ≤ bytes.length by omega)
        split at panics
        · rename_i failed
          cases panics
          exact safe failed
        · cases panics
  case h_9 =>
    split
    · exact nofun
    · obtain ⟨length, counted, -, -⟩ := u16At_inside (show offset + 2 ≤ bytes.length by omega)
      rw [counted]
      exact nofun
  all_goals exact nofun

theorem parseHeader_inside {start : Nat} (inside : start < bytes.length) :
    parseHeader bytes start ≠ .error .panic := by
  obtain ⟨nameLen, counted, -⟩ := byteAt_inside inside
  unfold parseHeader
  rw [counted]
  dsimp only [bind, Except.bind]
  split
  · exact nofun
  · have safe := utf8Slice_inside "event stream header name is not UTF-8"
      (show start + 1 ≤ start + 1 + nameLen.toNat by omega) (show start + 1 + nameLen.toNat ≤ bytes.length by omega)
    obtain ⟨kind, kinded, -⟩ := byteAt_inside (show start + 1 + nameLen.toNat < bytes.length by omega)
    rw [kinded]
    intro panics
    split at panics
    · rename_i failed
      cases panics
      exact safe failed
    · rename_i name _
      have sound := parseValue_inside bytes name kind (start + 1 + nameLen.toNat + 1)
      dsimp only at panics
      split at panics
      · rename_i failed
        cases panics
        exact sound failed
      · split at panics
        · cases panics
        · cases panics

theorem parseHeadersFrom_ok {before found : Headers} (inside : offset ≤ bytes.length)
    (parsed : parseHeadersFrom bytes offset before = .ok found) :
    ∃ headers : List Header, bytes.drop offset = headers.flatMap Header.encode ∧
      found = (headers.map Header.entry).foldl addHeader before := by
  induction offset, before using parseHeadersFrom.induct bytes with
  | case1 offset before more e failed =>
    rw [parseHeadersFrom, if_pos more] at parsed
    split at parsed
    · cases parsed
    · rename_i here
      rw [failed] at here
      cases here
  | case2 offset before more entry next read ih =>
    rw [parseHeadersFrom, if_pos more] at parsed
    split at parsed
    · cases parsed
    · rename_i other_entry other_next here
      rw [read] at here
      cases here
      obtain ⟨within, h, split, kept⟩ := parseHeader_ok read
      obtain ⟨rest, blocks, same⟩ := ih within parsed
      refine ⟨h :: rest, ?_, ?_⟩
      · rw [split, blocks]
        rfl
      · rw [same, List.map_cons, List.foldl_cons, kept]
  | case3 offset before done =>
    rw [parseHeadersFrom, if_neg done] at parsed
    cases parsed
    exact ⟨[], List.drop_eq_nil_of_le (Nat.le_of_not_lt done), rfl⟩

theorem parseHeadersFrom_inside (bytes : List UInt8) (offset : Nat) (before : Headers) :
    parseHeadersFrom bytes offset before ≠ .error .panic := by
  induction offset, before using parseHeadersFrom.induct bytes with
  | case1 offset before more e failed =>
    intro panics
    rw [parseHeadersFrom, if_pos more] at panics
    split at panics
    · rename_i here
      cases panics
      exact parseHeader_inside more here
    · rename_i here
      rw [failed] at here
      cases here
  | case2 offset before more entry next read ih =>
    intro panics
    rw [parseHeadersFrom, if_pos more] at panics
    split at panics
    · rename_i here
      rw [read] at here
      cases here
    · rename_i here
      rw [read] at here
      cases here
      exact ih panics
  | case3 offset before done =>
    intro panics
    rw [parseHeadersFrom, if_neg done] at panics
    cases panics

theorem lookup_headers (headers : List Header) (before : Headers) (name : String) :
    ((headers.map Header.entry).foldl addHeader before).lookup name =
      ((headers.reverse.filterMap Header.entry).lookup name).or (before.lookup name) := by
  induction headers generalizing before with
  | nil => rfl
  | cons h rest ih =>
    rw [List.map_cons, List.foldl_cons, ih, List.reverse_cons, List.filterMap_append]
    cases kept : h.entry with
    | none => simp [addHeader, kept]
    | some entry =>
      obtain ⟨other, value⟩ := entry
      have single : [h].filterMap Header.entry = [(other, value)] := by simp [kept]
      rw [single, List.lookup_append, Option.or_assoc]
      congr 1
      rw [addHeader, lookup_cons_if]
      by_cases same : name = other
      · rw [if_pos same, same, Finmap.lookup_insert]
        rfl
      · rw [if_neg same, Finmap.lookup_insert_of_ne _ same]
        rfl

/-! ### Buffers -/

section Buffers

variable (crates : Crates) {source : List UInt8}

theorem u32At_inside (inside : i + 4 ≤ bytes.length) : ∃ n, u32At bytes i = .ok n := by
  obtain ⟨first, one, -⟩ := byteAt_inside (show i < bytes.length by omega)
  obtain ⟨second, two, -⟩ := byteAt_inside (show i + 1 < bytes.length by omega)
  obtain ⟨third, three, -⟩ := byteAt_inside (show i + 2 < bytes.length by omega)
  obtain ⟨fourth, four, -⟩ := byteAt_inside (show i + 3 < bytes.length by omega)
  refine ⟨fromBeBytes [first, second, third, fourth], ?_⟩
  simp [u32At, one, two, three, four, bind, Except.bind, pure, Except.pure]

theorem validateCrc_inside {frame : List UInt8} (long : 16 ≤ frame.length) : validateCrc crates frame ≠ .error .panic := by
  obtain ⟨preludeCrc, first⟩ := u32At_inside (show 8 + 4 ≤ frame.length by omega)
  obtain ⟨messageCrc, second⟩ := u32At_inside (show frame.length - 4 + 4 ≤ frame.length by omega)
  obtain ⟨prelude, third, -⟩ := slice_inside (Nat.zero_le 8) (show 8 ≤ frame.length by omega)
  obtain ⟨message, fourth, -⟩ := slice_inside (Nat.zero_le (frame.length - 4)) (Nat.sub_le frame.length 4)
  unfold validateCrc
  rw [first, third]
  dsimp only [bind, Except.bind]
  split
  · exact nofun
  · rw [second, fourth]
    dsimp only
    split
    · exact nofun
    · exact nofun

theorem takeFrame_inside {totalLength headersLength : Nat} (long : 16 ≤ totalLength)
    (fits : headersLength ≤ totalLength - 16) (inside : totalLength ≤ source.length) :
    takeFrame crates source totalLength headersLength ≠ .error .panic := by
  obtain ⟨frame, framed, -, size⟩ := slice_inside (Nat.zero_le totalLength) inside
  obtain ⟨block, blocked, -⟩ :=
    slice_inside (show 12 ≤ 12 + headersLength by omega) (show 12 + headersLength ≤ source.length by omega)
  obtain ⟨payload, loaded, -⟩ :=
    slice_inside (show 12 + headersLength ≤ totalLength - 4 by omega) (show totalLength - 4 ≤ source.length by omega)
  have checked := validateCrc_inside crates (show 16 ≤ frame.length by omega)
  have parsed := parseHeadersFrom_inside block 0 ∅
  unfold takeFrame
  rw [framed, blocked, loaded]
  dsimp only [bind, Except.bind]
  intro panics
  split at panics
  · rename_i failed
    cases panics
    exact checked failed
  · split at panics
    · rename_i failed
      cases panics
      exact parsed failed
    · split at panics
      · cases panics
      · rw [advance, if_pos inside] at panics
        cases panics

theorem nextEvent_inside : nextEvent crates source ≠ .error .panic := by
  unfold nextEvent
  split
  · exact nofun
  case isFalse long =>
    have sixteen : 16 ≤ source.length := Nat.le_of_not_lt long
    obtain ⟨totalLength, total⟩ := u32At_inside (show 0 + 4 ≤ source.length by omega)
    obtain ⟨headersLength, headers⟩ := u32At_inside (show 4 + 4 ≤ source.length by omega)
    rw [total, headers]
    dsimp only [bind, Except.bind]
    split
    · exact nofun
    case isFalse bounded =>
      rw [not_not] at bounded
      split
      · exact nofun
      · split
        · exact nofun
        · have safe := takeFrame_inside crates bounded.1 (show headersLength ≤ totalLength - 16 by
            rename_i fits _
            exact Nat.le_of_not_lt fits) (show totalLength ≤ source.length by omega)
          intro panics
          split at panics
          · rename_i failed
            cases panics
            exact safe failed
          · cases panics

theorem nextEvent_removes {event : KiroEvent} {rest : List UInt8}
    (found : nextEvent crates source = .ok (some (event, rest))) :
    ∃ totalLength, u32At source 0 = .ok totalLength ∧ totalLength ≤ source.length ∧ rest = source.drop totalLength := by
  unfold nextEvent at found
  split at found
  · cases found
  · obtain ⟨totalLength, total, found⟩ := bind_ok.mp found
    obtain ⟨headersLength, -, found⟩ := bind_ok.mp found
    split at found
    · cases found
    · split at found
      · cases found
      · split at found
        · cases found
        · obtain ⟨⟨other, left⟩, taken, found⟩ := bind_ok.mp found
          cases found
          obtain ⟨inside, same⟩ := takeFrame_rest crates taken
          exact ⟨totalLength, total, inside, same⟩

end Buffers

/-- A block is accepted exactly when it is a sequence of headers, and its text headers are kept, the last
of each name; no access is outside; a buffer loses the frame of its event and nothing else. -/
theorem headers_exact :
    (∀ bytes, parseHeaders bytes ≠ .error .panic) ∧
    (∀ bytes, (∃ found, parseHeaders bytes = .ok found) ↔
      ∃ headers : List Header, bytes = headers.flatMap Header.encode) ∧
    (∀ bytes found, parseHeaders bytes = .ok found → ∃ headers : List Header, bytes = headers.flatMap Header.encode ∧
      ∀ name, found.lookup name = (headers.reverse.filterMap Header.entry).lookup name) ∧
    ∀ (crates : Crates) (source : List UInt8),
      (decode crates source).1 ≠ .error .panic ∧
      (∀ event, (decode crates source).1 = .ok (some event) → ∃ totalLength, u32At source 0 = .ok totalLength ∧
        totalLength ≤ source.length ∧ (decode crates source).2 = source.drop totalLength) ∧
      ((decode crates source).1 = .ok none → (decode crates source).2 = source) ∧
      ∀ e, (decode crates source).1 = .error e → (decode crates source).2 = source := by
  have sound : ∀ bytes found, parseHeaders bytes = .ok found →
      ∃ headers : List Header, bytes = headers.flatMap Header.encode ∧
        found = (headers.map Header.entry).foldl addHeader ∅ :=
    fun bytes found parsed => parseHeadersFrom_ok (Nat.zero_le bytes.length) parsed
  refine ⟨fun bytes => parseHeadersFrom_inside bytes 0 ∅, ?_, ?_, ?_⟩
  · intro bytes
    constructor
    · rintro ⟨found, parsed⟩
      obtain ⟨headers, blocks, -⟩ := sound bytes found parsed
      exact ⟨headers, blocks⟩
    · rintro ⟨headers, rfl⟩
      exact ⟨_, parseHeaders_encode headers⟩
  · intro bytes found parsed
    obtain ⟨headers, blocks, same⟩ := sound bytes found parsed
    refine ⟨headers, blocks, fun name => ?_⟩
    rw [same, lookup_headers, Finmap.lookup_empty, Option.or_none]
  · intro crates source
    have safe : nextEvent crates source ≠ .error .panic := nextEvent_inside crates
    unfold decode
    cases found : nextEvent crates source with
    | error e =>
      rw [found] at safe
      refine ⟨fun panics => safe ?_, nofun, nofun, fun _ _ => rfl⟩
      cases panics
      rfl
    | ok next =>
      cases next with
      | none => exact ⟨nofun, nofun, fun _ => rfl, nofun⟩
      | some both =>
        obtain ⟨event, rest⟩ := both
        refine ⟨nofun, fun _ _ => ?_, nofun, nofun⟩
        exact nextEvent_removes crates found

end KiroProxy.Kiro

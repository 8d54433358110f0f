import KiroProxy.Lib.Bytes

/-! Cuts in the bytes of a string: what begins or ends it as bytes, and is itself a string, begins or ends it as text. -/
namespace KiroProxy.Bytes

@[simp] theorem utf8_append (front back : String) : utf8 (front ++ back) = utf8 front ++ utf8 back := by
  simp [utf8]

variable {text : String}

theorem utf8_inj {other : String} (same : utf8 text = utf8 other) : text = other := by
  apply String.toByteArray_inj.1
  ext1
  exact Array.toList_inj.1 same

theorem utf8_of_fromUtf8 {bytes : List UInt8} (read : fromUtf8 bytes = some text) : utf8 text = bytes := by
  unfold fromUtf8 String.fromUTF8? at read
  split at read
  · cases read
    simp [utf8, String.fromUTF8]
  · cases read

theorem utf8_length (text : String) : (utf8 text).length = text.toByteArray.size := by simp [utf8]

theorem split_valid {front back : List UInt8} (same : utf8 text = front ++ back)
    (valid : String.Pos.Raw.IsValid text ⟨front.length⟩) :
    ∃ first second, text = first ++ second ∧ utf8 first = front ∧ utf8 second = back := by
  obtain ⟨first, second, rfl, place⟩ := String.Pos.Raw.isValid_iff_exists_append.1 valid
  have length : front.length = (utf8 first).length := by
    rw [utf8_length]
    exact congrArg String.Pos.Raw.byteIdx place
  rw [utf8_append] at same
  obtain ⟨front_same, back_same⟩ := List.append_inj same length.symm
  exact ⟨first, second, rfl, front_same, back_same⟩

theorem byte_of_utf8 {i : Nat} {byte : UInt8} (found : (utf8 text)[i]? = some byte)
    (inside : i < text.toByteArray.size) : text.toByteArray[i] = byte := by
  have same : text.toByteArray.data[i] = byte := by
    rw [utf8, List.getElem?_eq_getElem (by simpa using inside)] at found
    simpa using found
  exact same

theorem firstByte_of_utf8 {first : UInt8} {rest : List UInt8} (starts : utf8 text = first :: rest) :
    first.IsUTF8FirstByte := by
  have size : 0 < text.toByteArray.size := by
    rw [← utf8_length, starts]
    exact Nat.succ_pos _
  have here := text.isValidUTF8.isUTF8FirstByte_getElem_zero size
  rwa [byte_of_utf8 (by rw [starts]; rfl) size] at here

theorem split_back {back : String} {front : List UInt8} (same : utf8 text = front ++ utf8 back) :
    ∃ start, text = start ++ back ∧ utf8 start = front := by
  have size : text.toByteArray.size = front.length + (utf8 back).length := by
    rw [← utf8_length, same, List.length_append]
  have valid : String.Pos.Raw.IsValid text ⟨front.length⟩ := by
    rw [String.Pos.Raw.isValid_iff_isUTF8FirstByte]
    cases bytes : utf8 back with
    | nil =>
      left
      rw [bytes] at size
      exact String.Pos.Raw.ext size.symm
    | cons first rest =>
      right
      have inside : front.length < text.toByteArray.size := by
        rw [size, bytes, List.length_cons]
        omega
      refine ⟨inside, ?_⟩
      have found : (utf8 text)[front.length]? = some first := by rw [same, bytes]; simp
      rw [String.getUTF8Byte_eq_getElem]
      dsimp only
      rw [byte_of_utf8 found inside]
      exact firstByte_of_utf8 bytes
  obtain ⟨first, second, rfl, front_same, back_same⟩ := split_valid same valid
  rw [utf8_inj back_same]
  exact ⟨first, rfl, front_same⟩

theorem split_front {front : String} {back : List UInt8} (same : utf8 text = utf8 front ++ back) :
    ∃ rest, text = front ++ rest ∧ utf8 rest = back := by
  have valid : String.Pos.Raw.IsValid text ⟨(utf8 front).length⟩ := by
    have bytes : text.toByteArray = front.toByteArray ++ back.toByteArray := by
      ext1
      apply Array.toList_inj.1
      simpa [utf8] using same
    rw [String.Pos.Raw.isValid_iff_isValidUTF8_extract_zero, utf8_length, bytes]
    refine ⟨?_, ?_⟩
    · rw [String.Pos.Raw.le_iff]
      show front.toByteArray.size ≤ text.utf8ByteSize
      rw [← String.size_toByteArray, bytes, ByteArray.size_append]
      exact Nat.le_add_right ..
    · rw [ByteArray.extract_append_eq_left rfl]
      exact front.isValidUTF8
  obtain ⟨first, second, rfl, front_same, back_same⟩ := split_valid same valid
  rw [← utf8_inj front_same]
  exact ⟨second, rfl, back_same⟩

end KiroProxy.Bytes

import Mathlib.Algebra.Group.Nat.Defs
import Mathlib.Data.List.Basic

/-! Byte slices with checked access, big-endian numbers and UTF-8. An index or a range
outside of the slice is a panic, not an error that the caller can see. -/
namespace KiroProxy.Bytes

inductive Stop where
  | panic
  | invalid (message : String)
  deriving DecidableEq, Repr

def byteAt (bytes : List UInt8) (i : Nat) : Except Stop UInt8 :=
  match bytes[i]? with
  | some b => .ok b
  | none => .error .panic

/-- `&bytes[first..last]` -/
def slice (bytes : List UInt8) (first last : Nat) : Except Stop (List UInt8) :=
  if first ≤ last ∧ last ≤ bytes.length then .ok ((bytes.take last).drop first) else .error .panic

def fromBeBytes (bytes : List UInt8) : Nat := bytes.foldl (fun n b => n * 256 + b.toNat) 0

def u16At (bytes : List UInt8) (i : Nat) : Except Stop Nat := do
  return fromBeBytes [← byteAt bytes i, ← byteAt bytes (i + 1)]

def u32At (bytes : List UInt8) (i : Nat) : Except Stop Nat := do
  return fromBeBytes [← byteAt bytes i, ← byteAt bytes (i + 1), ← byteAt bytes (i + 2), ← byteAt bytes (i + 3)]

/-- The last `width` bytes of the number, most significant first. -/
def toBeBytes : Nat → Nat → List UInt8
  | 0, _ => []
  | width + 1, n => toBeBytes width (n / 256) ++ [UInt8.ofNat n]

def fromUtf8 (bytes : List UInt8) : Option String := String.fromUTF8? bytes.toByteArray

def utf8 (s : String) : List UInt8 := s.toByteArray.data.toList

variable {α β ε : Type} {bytes : List UInt8} {i : Nat}

theorem bind_ok {x : Except ε α} {f : α → Except ε β} {b : β} :
    (x >>= f) = .ok b ↔ ∃ a, x = .ok a ∧ f a = .ok b := by
  cases x with
  | error e => simp [bind, Except.bind]
  | ok a => simp [bind, Except.bind]

theorem mapM_ok {f : α → Except ε β} {xs : List α} {ys : List β} :
    xs.mapM f = .ok ys ↔ List.Forall₂ (fun x y => f x = .ok y) xs ys := by
  induction xs generalizing ys with
  | nil =>
    cases ys with
    | nil => simp [pure, Except.pure]
    | cons y ys =>
      constructor
      · intro same
        cases same
      · intro each
        cases each
  | cons x xs ih =>
    rw [List.mapM_cons, bind_ok]
    constructor
    · rintro ⟨y, first, more⟩
      obtain ⟨rest, later, same⟩ := bind_ok.1 more
      cases same
      exact .cons first (ih.1 later)
    · intro each
      cases each with
      | cons first later => exact ⟨_, first, bind_ok.2 ⟨_, ih.2 later, rfl⟩⟩

theorem mapM_of_each {f : α → Except ε β} {xs : List α} (each : ∀ x ∈ xs, ∃ y, f x = .ok y) :
    ∃ ys, xs.mapM f = .ok ys := by
  simp only [mapM_ok]
  induction xs with
  | nil => exact ⟨[], .nil⟩
  | cons x xs ih =>
    obtain ⟨y, first⟩ := each x List.mem_cons_self
    obtain ⟨ys, later⟩ := ih fun z inside => each z (List.mem_cons_of_mem x inside)
    exact ⟨y :: ys, .cons first later⟩

theorem mem_of_mapM {f : α → Except ε β} {xs : List α} {ys : List β} (read : xs.mapM f = .ok ys) :
    (∀ x ∈ xs, ∃ y ∈ ys, f x = .ok y) ∧ ∀ y ∈ ys, ∃ x ∈ xs, f x = .ok y := by
  rw [mapM_ok] at read
  induction read with
  | nil => exact ⟨by simp, by simp⟩
  | @cons x y xs ys first later ih =>
    constructor
    · intro z inside
      rcases List.mem_cons.1 inside with rfl | rest
      · exact ⟨y, List.mem_cons_self, first⟩
      · obtain ⟨w, member, same⟩ := ih.1 z rest
        exact ⟨w, List.mem_cons_of_mem y member, same⟩
    · intro w inside
      rcases List.mem_cons.1 inside with rfl | rest
      · exact ⟨x, List.mem_cons_self, first⟩
      · obtain ⟨z, member, same⟩ := ih.2 w rest
        exact ⟨z, List.mem_cons_of_mem x member, same⟩

@[simp] theorem length_toBeBytes (width n : Nat) : (toBeBytes width n).length = width := by
  induction width generalizing n with
  | zero => rfl
  | succ width ih => simp [toBeBytes, ih]

theorem fromBeBytes_toBeBytes {width n : Nat} (fits : n < 256 ^ width) : fromBeBytes (toBeBytes width n) = n := by
  induction width generalizing n with
  | zero =>
    have : n = 0 := by simpa using fits
    rw [this]
    rfl
  | succ width ih =>
    have high : n / 256 < 256 ^ width := by
      apply Nat.div_lt_of_lt_mul
      rw [Nat.pow_succ] at fits
      omega
    have front : (toBeBytes width (n / 256)).foldl (fun n b => n * 256 + b.toNat) 0 = n / 256 := ih high
    simp only [toBeBytes, fromBeBytes, List.foldl_append, List.foldl_cons, List.foldl_nil, front,
      UInt8.toNat_ofNat']
    omega

@[simp] theorem fromUtf8_utf8 (s : String) : fromUtf8 (utf8 s) = some s := by
  have same : (utf8 s).toByteArray = s.toByteArray := by
    ext1
    simp [utf8]
  simp [fromUtf8, String.fromUTF8?, same, s.isValidUTF8, String.fromUTF8]

theorem byteAt_append (inside : i < bytes.length) (more : List UInt8) :
    byteAt (bytes ++ more) i = byteAt bytes i := by
  simp [byteAt, List.getElem?_append_left inside]

theorem slice_append {first last : Nat} (inside : last ≤ bytes.length) (more : List UInt8) :
    slice (bytes ++ more) first last = slice bytes first last := by
  have longer : last ≤ (bytes ++ more).length := by
    simp only [List.length_append]
    omega
  simp only [slice, inside, longer, List.take_append_of_le_length inside]

theorem u32At_append (inside : i + 4 ≤ bytes.length) (more : List UInt8) :
    u32At (bytes ++ more) i = u32At bytes i := by
  simp only [u32At]
  rw [byteAt_append (by omega), byteAt_append (by omega), byteAt_append (by omega), byteAt_append (by omega)]

theorem slice_middle (front middle back : List UInt8) {first last : Nat} (start : first = front.length)
    (stop : last = front.length + middle.length) : slice (front ++ (middle ++ back)) first last = .ok middle := by
  subst start stop
  have inside : front.length ≤ front.length + middle.length ∧
      front.length + middle.length ≤ (front ++ (middle ++ back)).length := by
    simp only [List.length_append]
    omega
  simp [slice, inside, List.take_append]

theorem byteAt_middle (front : List UInt8) (b : UInt8) (back : List UInt8) (start : i = front.length) :
    byteAt (front ++ b :: back) i = .ok b := by
  subst start
  simp [byteAt]

theorem u16At_middle (front number back : List UInt8) (start : i = front.length) (two : number.length = 2) :
    u16At (front ++ (number ++ back)) i = .ok (fromBeBytes number) := by
  subst start
  obtain ⟨a, b, rfl⟩ := List.length_eq_two.mp two
  simp [u16At, byteAt]
  rfl

theorem u32At_middle (front number back : List UInt8) (start : i = front.length) (four : number.length = 4) :
    u32At (front ++ (number ++ back)) i = .ok (fromBeBytes number) := by
  subst start
  obtain ⟨a, b, c, d, rfl⟩ : ∃ a b c d, number = [a, b, c, d] := by
    match number, four with
    | [a, b, c, d], _ => exact ⟨a, b, c, d, rfl⟩
  simp [u32At, byteAt]
  rfl

end KiroProxy.Bytes

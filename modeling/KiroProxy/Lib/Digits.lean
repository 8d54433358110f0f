import KiroProxy.Lib.Text
import Mathlib.Data.List.Lex
import Mathlib.Data.String.Basic

/-! Numbers written in a fixed number of decimal digits: among texts of one length the order of characters is the
order of the numbers. -/
namespace KiroProxy.Digits

def IsNumeral (cs : List Char) : Prop := ∀ c ∈ cs, c.isDigit = true

def value (cs : List Char) : Nat := Nat.ofDigitChars 10 cs 0

def fixed (width n : Nat) : List Char :=
  List.replicate (width - (Nat.toDigits 10 n).length) '0' ++ Nat.toDigits 10 n

theorem char_lt {c d : Char} : c < d ↔ c.toNat < d.toNat := Iff.rfl

theorem char_eq {c d : Char} : c = d ↔ c.toNat = d.toNat := ⟨fun same => same ▸ rfl, Char.toNat_inj.mp⟩

theorem value_cons (c : Char) (cs : List Char) : value (c :: cs) = 10 ^ cs.length * (c.toNat - 48) + value cs := by
  unfold value
  rw [Nat.ofDigitChars_cons, Nat.ofDigitChars_eq_ofDigitChars_zero]
  show 10 ^ cs.length * (10 * 0 + (c.toNat - 48)) + _ = _
  rw [Nat.mul_zero, Nat.zero_add]

theorem value_lt {cs : List Char} (numeral : IsNumeral cs) : value cs < 10 ^ cs.length := by
  induction cs with
  | nil => decide
  | cons c cs ih =>
    have below := ih fun c member => numeral c (List.mem_cons_of_mem _ member)
    have digit := Text.isDigit_bounds (numeral c List.mem_cons_self)
    have high : 10 ^ cs.length * (c.toNat - 48) ≤ 10 ^ cs.length * 9 := Nat.mul_le_mul_left _ (by omega)
    rw [value_cons, List.length_cons, Nat.pow_succ]
    omega

theorem lead_lt {base a b x y : Nat} (small : a < base) (small' : b < base) :
    base * x + a < base * y + b ↔ x < y ∨ x = y ∧ a < b := by
  rcases Nat.lt_trichotomy x y with less | rfl | greater
  · have step : base * (x + 1) ≤ base * y := Nat.mul_le_mul_left _ less
    rw [Nat.mul_succ] at step
    exact ⟨fun _ => .inl less, fun _ => by omega⟩
  · omega
  · have step : base * (y + 1) ≤ base * x := Nat.mul_le_mul_left _ greater
    rw [Nat.mul_succ] at step
    constructor
    · intro below
      omega
    · rintro (less | ⟨same, -⟩)
      · omega
      · omega

theorem numeral_lt {cs ds : List Char} (long : cs.length = ds.length) (numeral : IsNumeral cs) (other : IsNumeral ds) :
    cs < ds ↔ value cs < value ds := by
  induction cs generalizing ds with
  | nil =>
    cases ds with
    | nil => exact ⟨fun less => absurd less (List.not_lt_nil _), fun less => absurd less (Nat.lt_irrefl _)⟩
    | cons d ds => cases long
  | cons c cs ih =>
    cases ds with
    | nil => cases long
    | cons d ds =>
      have same_length := Nat.succ.inj long
      have rest : IsNumeral cs := fun c member => numeral c (List.mem_cons_of_mem _ member)
      have rest' : IsNumeral ds := fun c member => other c (List.mem_cons_of_mem _ member)
      have digit := Text.isDigit_bounds (numeral c List.mem_cons_self)
      have digit' := Text.isDigit_bounds (other d List.mem_cons_self)
      have below := value_lt rest
      rw [same_length] at below
      rw [List.cons_lt_cons_iff, ih same_length rest rest', value_cons, value_cons, same_length,
        lead_lt below (value_lt rest'), char_lt, char_eq]
      have lt_digit : c.toNat < d.toNat ↔ c.toNat - 48 < d.toNat - 48 := by omega
      have eq_digit : c.toNat = d.toNat ↔ c.toNat - 48 = d.toNat - 48 := by omega
      rw [lt_digit, eq_digit]

theorem numeral_inj {cs ds : List Char} (long : cs.length = ds.length) (numeral : IsNumeral cs) (other : IsNumeral ds)
    (same : value cs = value ds) : cs = ds := by
  rcases lt_trichotomy cs ds with less | equal | greater
  · exact absurd ((numeral_lt long numeral other).mp less) (by omega)
  · exact equal
  · exact absurd ((numeral_lt long.symm other numeral).mp greater) (by omega)

theorem value_fixed (width n : Nat) : value (fixed width n) = n := by
  unfold value fixed
  rw [Nat.ofDigitChars_append, Nat.ofDigitChars_replicate_zero, Nat.mul_zero, Nat.ofDigitChars_ten_toDigits]

theorem numeral_fixed (width n : Nat) : IsNumeral (fixed width n) := by
  intro c member
  rcases List.mem_append.mp member with zero | digit
  · exact List.eq_of_mem_replicate zero ▸ rfl
  · exact Nat.isDigit_of_mem_toDigits (by decide) (by decide) digit

theorem length_fixed {width n : Nat} (positive : 0 < width) (fits : n < 10 ^ width) : (fixed width n).length = width := by
  have short := (Nat.length_toDigits_le_iff (by decide) positive).mpr fits
  unfold fixed
  rw [List.length_append, List.length_replicate]
  exact Nat.sub_add_cancel short

theorem eq_fixed {cs : List Char} (numeral : IsNumeral cs) (filled : cs ≠ []) : cs = fixed cs.length (value cs) :=
  numeral_inj (length_fixed (List.length_pos_of_ne_nil filled) (value_lt numeral)).symm numeral (numeral_fixed _ _)
    (value_fixed _ _).symm

theorem fixed_lt {width m n : Nat} (positive : 0 < width) (fits : m < 10 ^ width) (fits' : n < 10 ^ width) :
    fixed width m < fixed width n ↔ m < n := by
  rw [numeral_lt ((length_fixed positive fits).trans (length_fixed positive fits').symm) (numeral_fixed _ _)
    (numeral_fixed _ _), value_fixed, value_fixed]

theorem fixed_inj {width m n : Nat} : fixed width m = fixed width n ↔ m = n := by
  refine ⟨fun same => ?_, fun same => same ▸ rfl⟩
  rw [← value_fixed width m, same, value_fixed]

theorem append_lt_append {a b : List Char} (long : a.length = b.length) (c d : List Char) :
    a ++ c < b ++ d ↔ a < b ∨ a = b ∧ c < d := by
  induction a generalizing b with
  | nil =>
    cases b with
    | nil => exact ⟨fun less => .inr ⟨rfl, less⟩, fun less => less.elim (absurd · (List.not_lt_nil _)) And.right⟩
    | cons y ys => cases long
  | cons x xs ih =>
    cases b with
    | nil => cases long
    | cons y ys =>
      rw [List.cons_append, List.cons_append, List.cons_lt_cons_iff, List.cons_lt_cons_iff, ih (Nat.succ.inj long),
        List.cons.injEq]
      tauto

end KiroProxy.Digits

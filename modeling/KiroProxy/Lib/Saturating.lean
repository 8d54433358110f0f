import Mathlib.Algebra.Group.Defs

/-! Counts that stay at a limit once they have reached it; they add up in any order. -/
namespace KiroProxy

@[ext] structure Saturating (limit : Nat) where
  value : Nat
  within : value ≤ limit
  deriving DecidableEq

namespace Saturating

variable {limit : Nat}

def ofNat (n : Nat) : Saturating limit := ⟨min n limit, Nat.min_le_right ..⟩

/-- `saturating_add` of a plain number. -/
def saturatingAdd (count : Saturating limit) (n : Nat) : Saturating limit := ofNat (count.value + n)

instance : Zero (Saturating limit) := ⟨⟨0, Nat.zero_le _⟩⟩

instance : Add (Saturating limit) := ⟨fun a b => a.saturatingAdd b.value⟩

theorem value_add (a b : Saturating limit) : (a + b).value = min (a.value + b.value) limit := rfl

@[simp] theorem value_zero : (0 : Saturating limit).value = 0 := rfl

instance : AddCommMonoid (Saturating limit) where
  add_assoc a b c := by
    ext
    simp only [value_add]
    omega
  zero_add a := by
    ext
    have within := a.within
    simp only [value_add, value_zero]
    omega
  add_zero a := by
    ext
    have within := a.within
    simp only [value_add, value_zero]
    omega
  add_comm a b := by
    ext
    simp only [value_add]
    omega
  nsmul := nsmulRec

theorem saturatingAdd_eq (a : Saturating limit) (n : Nat) : a.saturatingAdd n = a + ofNat n := by
  ext
  show min (a.value + n) limit = min (a.value + min n limit) limit
  omega

end Saturating
end KiroProxy

import Mathlib.Data.List.Basic

/-! Two fallible computations side by side. -/
namespace KiroProxy.Paired

variable {ε δ α β α' β' : Type}

inductive Both (R : α → β → Prop) : Except ε α → Except δ β → Prop where
  | ok {a : α} {b : β} (related : R a b) : Both R (.ok a) (.ok b)
  | error (e : ε) (d : δ) : Both R (.error e) (.error d)

theorem Both.bind {R : α → β → Prop} {S : α' → β' → Prop} {x : Except ε α} {y : Except δ β} {f : α → Except ε α'}
    {g : β → Except δ β'} (both : Both R x y) (next : ∀ a b, R a b → Both S (f a) (g b)) : Both S (x >>= f) (y >>= g) := by
  cases both with
  | ok related => exact next _ _ related
  | error e d => exact .error e d

theorem Both.through {γ : Type} {R : α → γ → Prop} {S : β → γ → Prop} {x : Except ε α} {y : Except δ β}
    {z : Except ε γ} (first : Both R x z) (second : Both S y z) : Both (fun a b => ∃ c, R a c ∧ S b c) x y := by
  cases first with
  | ok related =>
    cases second with
    | ok also => exact .ok ⟨_, related, also⟩
  | error e d =>
    cases second with
    | error e' d' => exact .error e e'

end KiroProxy.Paired

import Mathlib.Logic.Function.Basic

/-! A flag that at most one of many actors holds. What an actor holds is read off where it
stands; a move changes where one actor stands and perhaps the flag. -/
namespace KiroProxy.Holder

variable {ι π : Type} [DecidableEq ι] {holds : π → Bool} {pc : ι → π} {flag : Bool} {a : ι} {next : π}

/-- The flag is set exactly while it has a holder, and it never has two. -/
structure Held (holds : π → Bool) (pc : ι → π) (flag : Bool) : Prop where
  held : flag = true → ∃ a, holds (pc a) = true
  set : ∀ a, holds (pc a) = true → flag = true
  one : ∀ a b, holds (pc a) = true → holds (pc b) = true → a = b

theorem Held.keep (before : Held holds pc flag) (same : holds next = holds (pc a)) :
    Held holds (Function.update pc a next) flag := by
  have unchanged : ∀ b, holds (Function.update pc a next b) = holds (pc b) := by
    intro b
    rcases eq_or_ne b a with rfl | other
    · rw [Function.update_self, same]
    · rw [Function.update_of_ne other]
  constructor
  · intro up
    obtain ⟨b, holding⟩ := before.held up
    exact ⟨b, by rw [unchanged, holding]⟩
  · intro b holding
    exact before.set b (by rw [← unchanged, holding])
  · intro b c first second
    exact before.one b c (by rw [← unchanged, first]) (by rw [← unchanged, second])

theorem Held.take (before : Held holds pc false) (now : holds next = true) :
    Held holds (Function.update pc a next) true := by
  have only : ∀ b, holds (Function.update pc a next b) = true → b = a := by
    intro b holding
    by_contra other
    rw [Function.update_of_ne other] at holding
    exact Bool.false_ne_true (before.set b holding)
  constructor
  · intro _
    exact ⟨a, by rw [Function.update_self, now]⟩
  · intro _ _
    rfl
  · intro b c first second
    rw [only b first, only c second]

theorem Held.release (before : Held holds pc flag) (had : holds (pc a) = true) (now : holds next = false) :
    Held holds (Function.update pc a next) false := by
  have none : ∀ b, holds (Function.update pc a next b) = false := by
    intro b
    rcases eq_or_ne b a with rfl | other
    · rw [Function.update_self, now]
    · rw [Function.update_of_ne other]
      by_contra holding
      exact other (before.one b a (by simpa using holding) had)
  constructor
  · intro up
    cases up
  · intro b holding
    rw [none] at holding
    cases holding
  · intro b c first _
    rw [none] at first
    cases first

end KiroProxy.Holder

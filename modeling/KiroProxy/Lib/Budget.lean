import Mathlib.Order.Nat

/-! Recursive searches whose calls share one budget: each call takes a unit of it, and the one that finds none fails
with everything around it. -/
namespace KiroProxy.Budget

structure Meter where
  remaining : Nat
  calls : Nat := 0
  deriving DecidableEq, Repr

/-- A failed search keeps its meter, so that its calls can be counted. -/
def Search (α : Type) := Meter → Option α × Meter

variable {α β : Type}

namespace Search

def ok (a : α) : Search α := fun meter => (some a, meter)

def fail : Search α := fun meter => (none, meter)

def andThen (m : Search α) (f : α → Search β) : Search β := fun meter =>
  match m meter with
  | (some a, meter) => f a meter
  | (none, meter) => (none, meter)

instance : Monad Search where
  pure := ok
  bind := andThen

def ofOption : Option α → Search α
  | some a => ok a
  | none => fail

def enter : Search Unit := fun meter =>
  match meter.remaining with
  | 0 => (none, { meter with calls := meter.calls + 1 })
  | remaining + 1 => (some (), { remaining, calls := meter.calls + 1 })

def Yields (m : Search α) (a : α) : Prop := ∃ before after, m before = (some a, after)

variable {a : α} {m : Search α} {f : β → α → Search β} {most : Nat}

theorem yields_pure {b : α} (yields : Yields (pure a : Search α) b) : a = b := by
  obtain ⟨before, after, same⟩ := yields
  exact Option.some.inj (Prod.mk.inj same).1

theorem not_yields_fail (yields : Yields (fail : Search α) a) : False := by
  obtain ⟨before, after, same⟩ := yields
  cases (Prod.mk.inj same).1

theorem yields_ofOption {value : Option α} (yields : Yields (ofOption value) a) : value = some a := by
  cases value with
  | none => exact (not_yields_fail yields).elim
  | some b => rw [yields_pure yields]

theorem yields_bind {f : α → Search β} {b : β} (yields : Yields (m >>= f) b) :
    ∃ a, Yields m a ∧ Yields (f a) b := by
  obtain ⟨before, after, same⟩ := yields
  have unfolded : andThen m f before = (some b, after) := same
  unfold andThen at unfolded
  split at unfolded
  · rename_i a middle first
    exact ⟨a, ⟨before, middle, first⟩, ⟨middle, after, unfolded⟩⟩
  · cases unfolded

theorem yields_foldlM {start last : β} {x : α} {xs : List α} (yields : Yields ((x :: xs).foldlM f start) last) :
    ∃ next, Yields (f start x) next ∧ Yields (xs.foldlM f next) last := by
  rw [List.foldlM_cons] at yields
  exact yields_bind yields

/-- Every unit taken pays for a call; a search that fails may have made one unpaid call, its last. -/
def Metered (m : Search α) : Prop := ∀ before,
  (m before).2.remaining ≤ before.remaining ∧
  (m before).2.calls + (m before).2.remaining ≤
    before.calls + before.remaining + if (m before).1.isSome then 0 else 1

theorem metered_pure (a : α) : Metered (pure a : Search α) := fun _ => ⟨le_rfl, le_rfl⟩

theorem metered_fail : Metered (fail : Search α) := fun _ => ⟨le_rfl, Nat.le_succ _⟩

theorem metered_ofOption (value : Option α) : Metered (ofOption value) := by
  cases value with
  | none => exact metered_fail
  | some a => exact metered_pure a

theorem metered_enter : Metered enter := by
  intro before
  obtain ⟨remaining, calls⟩ := before
  cases remaining with
  | zero => simp [enter]
  | succ remaining =>
    refine ⟨Nat.le_succ remaining, ?_⟩
    show calls + 1 + remaining ≤ calls + (remaining + 1) + 0
    omega

theorem Metered.bind {f : α → Search β} (first : Metered m) (later : ∀ a, Metered (f a)) :
    Metered (m >>= f) := by
  intro before
  have here := first before
  show (andThen m f before).2.remaining ≤ _ ∧ (andThen m f before).2.calls + (andThen m f before).2.remaining ≤
    before.calls + before.remaining + if (andThen m f before).1.isSome then 0 else 1
  unfold andThen
  split
  · rename_i a middle same
    rw [same] at here
    have there := later a middle
    have paid : middle.calls + middle.remaining ≤ before.calls + before.remaining + 0 := here.2
    exact ⟨there.1.trans here.1, there.2.trans (Nat.add_le_add_right paid _)⟩
  · rename_i middle same
    rw [same] at here
    exact here

theorem Metered.foldlM (each : ∀ b x, Metered (f b x)) (xs : List α) (start : β) :
    Metered (xs.foldlM f start) := by
  induction xs generalizing start with
  | nil => exact metered_pure start
  | cons x rest ih =>
    rw [List.foldlM_cons]
    exact (each start x).bind ih

def SameWithin (most : Nat) (m other : Search α) : Prop :=
  ∀ before : Meter, before.remaining ≤ most → m before = other before

theorem SameWithin.rfl : SameWithin most m m := fun _ _ => Eq.refl _

theorem SameWithin.bind {other : Search α} {f g : α → Search β} (metered : Metered m)
    (first : SameWithin most m other) (later : ∀ a, SameWithin most (f a) (g a)) :
    SameWithin most (m >>= f) (other >>= g) := by
  intro before little
  show andThen m f before = andThen other g before
  have less := (metered before).1
  unfold andThen
  rw [← first before little]
  split
  · rename_i a middle same
    rw [same] at less
    exact later a middle (less.trans little)
  · rfl

theorem SameWithin.foldlM {g : β → α → Search β} (metered : ∀ b x, Metered (f b x))
    (each : ∀ b x, SameWithin most (f b x) (g b x)) (xs : List α) (start : β) :
    SameWithin most (xs.foldlM f start) (xs.foldlM g start) := by
  induction xs generalizing start with
  | nil => exact SameWithin.rfl
  | cons x rest ih =>
    rw [List.foldlM_cons, List.foldlM_cons]
    exact (each start x).bind (metered start x) ih

theorem sameWithin_enter {f g : Unit → Search α} (later : SameWithin most (f ()) (g ())) :
    SameWithin (most + 1) (enter >>= f) (enter >>= g) := by
  intro before little
  obtain ⟨remaining, calls⟩ := before
  cases remaining with
  | zero => rfl
  | succ remaining => exact later _ (Nat.le_of_succ_le_succ little)

theorem enter_nothing (f g : Unit → Search α) : SameWithin 0 (enter >>= f) (enter >>= g) := by
  intro before little
  obtain ⟨remaining, calls⟩ := before
  obtain rfl : remaining = 0 := Nat.le_zero.1 little
  rfl

end Search

end KiroProxy.Budget

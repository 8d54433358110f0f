import Mathlib.Data.List.Basic

/-! Runs of a system that is given by a total step function. An action that is not
enabled leaves the state as it is, so every list of actions is a run. -/
namespace KiroProxy.Run

variable {σ α : Type} (step : σ → α → σ)

def run (s : σ) (actions : List α) : σ := actions.foldl step s

/-- Every action of the run meets the condition in the state it finds. -/
def Along (ok : σ → α → Prop) : σ → List α → Prop
  | _, [] => True
  | s, a :: rest => ok s a ∧ Along ok (step s a) rest

@[simp] theorem run_nil (s : σ) : run step s [] = s := rfl

@[simp] theorem run_cons (s : σ) (a : α) (rest : List α) :
    run step s (a :: rest) = run step (step s a) rest := rfl

theorem run_append (s : σ) (first second : List α) :
    run step s (first ++ second) = run step (run step s first) second :=
  List.foldl_append

variable {s : σ} {actions : List α} {ok : σ → α → Prop} {P : σ → Prop}

theorem Along.of_mem {step : σ → α → σ} {ok : α → Prop} (all : ∀ a ∈ actions, ok a) :
    Along step (fun _ a => ok a) s actions := by
  induction actions generalizing s with
  | nil => trivial
  | cons a rest ih =>
    refine ⟨all a List.mem_cons_self, ih ?_⟩
    exact fun b member => all b (List.mem_cons_of_mem a member)

theorem Along.imp {step : σ → α → σ} {other : σ → α → Prop} (weaker : ∀ s a, ok s a → other s a)
    (along : Along step ok s actions) : Along step other s actions := by
  induction actions generalizing s with
  | nil => trivial
  | cons a rest ih => exact ⟨weaker s a along.1, ih along.2⟩

theorem Along.and {step : σ → α → σ} {also : σ → α → Prop} (along : Along step ok s actions)
    (other : Along step also s actions) :
    Along step (fun s a => ok s a ∧ also s a) s actions := by
  induction actions generalizing s with
  | nil => trivial
  | cons a rest ih => exact ⟨⟨along.1, other.1⟩, ih along.2 other.2⟩

instance decidableAlong {step : σ → α → σ} {ok : σ → α → Prop} [∀ s a, Decidable (ok s a)] :
    (s : σ) → (actions : List α) → Decidable (Along step ok s actions)
  | _, [] => isTrue trivial
  | s, a :: rest =>
    have : Decidable (Along step ok (step s a) rest) := decidableAlong (step s a) rest
    inferInstanceAs (Decidable (ok s a ∧ Along step ok (step s a) rest))

section Projection

variable {τ : Type} {step : σ → α → σ} {fine : τ → α → τ} {f : τ → σ}

theorem run_proj (proj : ∀ t a, f (fine t a) = step (f t) a) (t : τ) (actions : List α) :
    f (run fine t actions) = run step (f t) actions := by
  induction actions generalizing t with
  | nil => rfl
  | cons a rest ih => rw [run_cons, run_cons, ih, proj]

theorem Along.of_proj (proj : ∀ t a, f (fine t a) = step (f t) a) {t : τ} (along : Along step ok (f t) actions) :
    Along fine (fun t a => ok (f t) a) t actions := by
  induction actions generalizing t with
  | nil => trivial
  | cons a rest ih =>
    refine ⟨along.1, ih ?_⟩
    rw [proj]
    exact along.2

end Projection

theorem run_keeps {step : σ → α → σ} (keeps : ∀ s a, P s → ok s a → P (step s a)) (along : Along step ok s actions)
    (start : P s) : P (run step s actions) := by
  induction actions generalizing s with
  | nil => exact start
  | cons a rest ih => exact ih along.2 (keeps s a start along.1)

theorem run_keeps_mem {step : σ → α → σ} {ok : α → Prop} (keeps : ∀ s a, P s → ok a → P (step s a))
    (all : ∀ a ∈ actions, ok a) (start : P s) : P (run step s actions) :=
  run_keeps keeps (Along.of_mem all) start

theorem run_always {step : σ → α → σ} (keeps : ∀ s a, P s → P (step s a)) (actions : List α) (start : P s) :
    P (run step s actions) :=
  run_keeps_mem (fun s a before (_ : True) => keeps s a before) (fun _ _ => trivial) start

/-- A run either meets the condition throughout and keeps the invariant, or breaks it for good at
the first action that does not. -/
theorem run_decides {step : σ → α → σ} {sound broken : σ → Prop} {allowed : σ → α → Prop}
    (keeps : ∀ s a, sound s → allowed s a → ok s a → sound (step s a))
    (breaks : ∀ s a, sound s → allowed s a → ¬ ok s a → broken (step s a))
    (stays : ∀ s a, broken s → broken (step s a)) (along : Along step allowed s actions) (start : sound s) :
    Along step ok s actions ∧ sound (run step s actions) ∨
      ¬ Along step ok s actions ∧ broken (run step s actions) := by
  induction actions generalizing s with
  | nil => exact .inl ⟨trivial, start⟩
  | cons a rest ih =>
    by_cases now : ok s a
    · refine (ih along.2 (keeps s a start along.1 now)).imp ?_ ?_
      · exact fun later => ⟨⟨now, later.1⟩, later.2⟩
      · exact fun later => ⟨fun all => later.1 all.2, later.2⟩
    · exact .inr ⟨fun all => now all.1, run_always stays rest (breaks s a start along.1 now)⟩

end KiroProxy.Run

import Mathlib.Data.List.Basic

/-! Programs that send requests and go on with whatever is replied, as trees; and a logic for what is
sent, whatever the replies are. -/
namespace KiroProxy

inductive Net (ρ : Type) (σ : ρ → Type) (ε α : Type) where
  | done (a : α)
  | fail (e : ε)
  | ask (request : ρ) (next : σ request → Net ρ σ ε α)

namespace Net

variable {ρ : Type} {σ : ρ → Type} {ε α β : Type}

def bind : Net ρ σ ε α → (α → Net ρ σ ε β) → Net ρ σ ε β
  | done a, f => f a
  | fail e, _ => fail e
  | ask request next, f => ask request fun reply => bind (next reply) f

instance : Monad (Net ρ σ ε) where
  pure := done
  bind := bind

def send (request : ρ) : Net ρ σ ε (σ request) := ask request done

def lift : Except ε α → Net ρ σ ε α
  | .ok a => done a
  | .error e => fail e

def attempt {δ : Type} : Net ρ σ ε α → Net ρ σ δ (Except ε α)
  | done a => done (.ok a)
  | fail e => done (.error e)
  | ask request next => ask request fun reply => attempt (next reply)

/-- The requests of one run; `reply` answers the request at a place. -/
def trace (reply : Nat → (request : ρ) → σ request) : Nat → Net ρ σ ε α → List ρ
  | _, done _ => []
  | _, fail _ => []
  | place, ask request next => request :: trace reply (place + 1) (next (reply place request))

/-- Whatever is replied, the requests are of one kind and the result of another. -/
inductive Sends (asks : ρ → Prop) (yields : α → Prop) : Net ρ σ ε α → Prop
  | done {a : α} (result : yields a) : Sends asks yields (done a)
  | fail {e : ε} : Sends asks yields (fail e)
  | ask {request : ρ} {next : σ request → Net ρ σ ε α} (asked : asks request)
      (later : ∀ reply, Sends asks yields (next reply)) : Sends asks yields (ask request next)

variable {asks : ρ → Prop} {yields : α → Prop}

@[simp] theorem lift_ok_bind (a : α) (f : α → Net ρ σ ε β) : (lift (.ok a) >>= f) = f a := rfl

theorem Sends.bind {others : β → Prop} {program : Net ρ σ ε α} {f : α → Net ρ σ ε β}
    (first : Sends asks yields program) (second : ∀ a, yields a → Sends asks others (f a)) :
    Sends asks others (program >>= f) := by
  induction first with
  | done result => exact second _ result
  | fail => exact .fail
  | ask asked later ih => exact .ask asked ih

theorem Sends.send {request : ρ} (asked : asks request) :
    Sends asks (fun _ => True) (Net.send request : Net ρ σ ε (σ request)) := .ask asked fun _ => .done trivial

theorem Sends.lift {result : Except ε α} (each : ∀ a, result = .ok a → yields a) :
    Sends asks yields (Net.lift result : Net ρ σ ε α) := by
  cases result with
  | ok a => exact .done (each a rfl)
  | error e => exact .fail

theorem Sends.attempt {δ : Type} {program : Net ρ σ ε α} (sends : Sends asks yields program) :
    Sends asks (fun result : Except ε α => ∀ a, result = .ok a → yields a) (program.attempt : Net ρ σ δ _) := by
  induction sends with
  | done result =>
    refine .done fun a same => ?_
    cases same
    exact result
  | fail =>
    refine .done fun a same => ?_
    cases same
  | ask asked later ih => exact .ask asked ih

theorem Sends.trace {program : Net ρ σ ε α} (sends : Sends asks yields program)
    (reply : Nat → (request : ρ) → σ request) (place : Nat) : ∀ request ∈ program.trace reply place, asks request := by
  induction sends generalizing place with
  | done => exact List.forall_mem_nil _
  | fail => exact List.forall_mem_nil _
  | ask asked later ih =>
    intro other member
    rcases List.mem_cons.1 member with rfl | rest
    · exact asked
    · exact ih _ _ other rest

end Net

end KiroProxy

import Mathlib.Data.List.Basic

/-! Decoders that are fed from a growing buffer. A decoder is called until it has nothing
more to give; what it then leaves in the buffer waits for the next chunk. -/
namespace KiroProxy.Chunks

variable {β α ε : Type}

/-- One call returns its result and what it leaves in the buffer; a call that yields an
item takes something away, so that calling again and again comes to an end. -/
structure Decoder (β α ε : Type) where
  call : List β → Except ε (Option α) × List β
  consumes : ∀ buffer item rest, call buffer = (.ok (some item), rest) → rest.length < buffer.length

/-- Call until there is no further item: the items, and the buffer or the error at the end. -/
def Decoder.drain (d : Decoder β α ε) (buffer : List β) : List α × Except ε (List β) :=
  match _called : d.call buffer with
  | (.error e, _) => ([], .error e)
  | (.ok none, rest) => ([], .ok rest)
  | (.ok (some item), rest) => let after := d.drain rest; (item :: after.1, after.2)
termination_by buffer.length
decreasing_by exact d.consumes buffer item rest _called

/-- First one stage, then the other on the buffer it leaves; an error ends both. -/
def followedBy (first : List α × Except ε (List β)) (next : List β → List α × Except ε (List β)) :
    List α × Except ε (List β) :=
  match first with
  | (items, .error e) => (items, .error e)
  | (items, .ok rest) => (items ++ (next rest).1, (next rest).2)

/-- Append each chunk to what is left and drain, and at the end of the stream drain with the
decoder for the end. -/
def feed (d eof : Decoder β α ε) : List β → List (List β) → List α × Except ε (List β)
  | buffer, [] => eof.drain buffer
  | buffer, chunk :: chunks => followedBy (d.drain (buffer ++ chunk)) fun rest => feed d eof rest chunks

/-- What a call decided on a buffer it also decides on a longer one, and what it did not
decide it did not touch. -/
structure Decoder.Stable (d : Decoder β α ε) : Prop where
  yields : ∀ buffer more item rest, d.call buffer = (.ok (some item), rest) →
    d.call (buffer ++ more) = (.ok (some item), rest ++ more)
  fails : ∀ buffer more e rest, d.call buffer = (.error e, rest) → (d.call (buffer ++ more)).1 = .error e
  waits : ∀ buffer rest, d.call buffer = (.ok none, rest) → rest = buffer

section Calls

variable {d : Decoder β α ε} {buffer rest : List β}

theorem drain_error {e : ε} (called : (d.call buffer).1 = .error e) : d.drain buffer = ([], .error e) := by
  rw [Decoder.drain]
  split <;> simp_all

theorem drain_none (called : d.call buffer = (.ok none, rest)) : d.drain buffer = ([], .ok rest) := by
  rw [Decoder.drain]
  split <;> simp_all

theorem drain_some {item : α} (called : d.call buffer = (.ok (some item), rest)) :
    d.drain buffer = (item :: (d.drain rest).1, (d.drain rest).2) := by
  rw [Decoder.drain]
  split <;> simp_all

theorem drain_waits (stable : d.Stable) (buffer : List β) :
    ∀ rest, (d.drain buffer).2 = .ok rest → d.call rest = (.ok none, rest) := by
  induction buffer using Decoder.drain.induct (d := d) with
  | case1 buffer e left called =>
    intro rest done
    rw [drain_error (by rw [called])] at done
    cases done
  | case2 buffer left called =>
    intro rest done
    obtain rfl := stable.waits buffer left called
    rw [drain_none called] at done
    cases done
    exact called
  | case3 buffer item left called ih =>
    intro rest done
    rw [drain_some called] at done
    exact ih rest done

theorem drain_append (stable : d.Stable) (more : List β) (buffer : List β) :
    d.drain (buffer ++ more) = followedBy (d.drain buffer) fun rest => d.drain (rest ++ more) := by
  induction buffer using Decoder.drain.induct (d := d) with
  | case1 buffer e left called =>
    rw [drain_error (stable.fails buffer more e left called), drain_error (by rw [called])]
    rfl
  | case2 buffer left called =>
    obtain rfl := stable.waits buffer left called
    rw [drain_none called]
    simp [followedBy]
  | case3 buffer item left called ih =>
    rw [drain_some (stable.yields buffer more item left called), drain_some called, ih]
    rcases d.drain left with ⟨items, e | rest⟩
    · rfl
    · rfl

theorem feed_waiting {eof : Decoder β α ε} (stable : d.Stable) (chunks : List (List β)) :
    ∀ buffer, d.call buffer = (.ok none, buffer) →
      feed d eof buffer chunks = followedBy (d.drain (buffer ++ chunks.flatten)) eof.drain := by
  induction chunks with
  | nil =>
    intro buffer waiting
    rw [List.flatten_nil, List.append_nil, drain_none waiting]
    rfl
  | cons chunk chunks ih =>
    intro buffer waiting
    rw [List.flatten_cons, ← List.append_assoc, drain_append stable, feed]
    have left := drain_waits stable (buffer ++ chunk)
    rcases drained : d.drain (buffer ++ chunk) with ⟨items, e | rest⟩
    · rfl
    · simp only [followedBy]
      rw [ih rest (left rest (by rw [drained]))]
      rcases d.drain (rest ++ chunks.flatten) with ⟨more, e | last⟩
      · rfl
      · simp [followedBy]

theorem feed_flatten {eof : Decoder β α ε} (stable : d.Stable) (empty : d.call [] = (.ok none, []))
    (chunks : List (List β)) : feed d eof [] chunks = feed d eof [] [chunks.flatten] := by
  rw [feed_waiting stable chunks [] empty, feed_waiting stable [chunks.flatten] [] empty]
  simp

end Calls

end KiroProxy.Chunks

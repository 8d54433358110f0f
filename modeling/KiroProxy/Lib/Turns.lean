import KiroProxy.Lib.Text

/-! Filters over a text that comes in chunks. What has come is gone through in turns, until one of them waits for more;
the end of the text that could begin a marker is held back. -/
namespace KiroProxy.Turns

variable {σ α : Type}

/-- A turn shows pieces of the text; either there is another one at once, or it waits for more text. -/
inductive Turn (σ α : Type) where
  | again (pieces : List (List α)) (next : σ)
  | wait (pieces : List (List α)) (next : σ)

namespace Turn

def pieces : Turn σ α → List (List α)
  | again pieces _ => pieces
  | wait pieces _ => pieces

def next : Turn σ α → σ
  | again _ next => next
  | wait _ next => next

end Turn

def runTurns (turn : σ → Turn σ α) : Nat → σ → List (List α) × σ
  | 0, s => ([], s)
  | fuel + 1, s => match turn s with
    | .again pieces next => (pieces ++ (runTurns turn fuel next).1, (runTurns turn fuel next).2)
    | .wait pieces next => (pieces, next)

/-- A filter whose turns come to an end: each but the last takes something away. -/
structure Filter (σ α : Type) where
  turn : σ → Turn σ α
  size : σ → Nat
  /-- More text joins what waits. -/
  extend : σ → List α → σ
  shrinks : ∀ s pieces next, turn s = .again pieces next → size next < size s
  extend_nil : ∀ s, extend s [] = s
  extend_append : ∀ s first second, extend (extend s first) second = extend s (first ++ second)

namespace Filter

variable (f : Filter σ α)

/-- Turn after turn until one waits; there are no more of them than there is to take away. -/
def drain (s : σ) : List (List α) × σ := runTurns f.turn (f.size s + 1) s

def shown (s : σ) : List α := (f.drain s).1.flatten

def rest (s : σ) : σ := (f.drain s).2

theorem runTurns_enough (fuel : Nat) (s : σ) (enough : f.size s < fuel) : runTurns f.turn fuel s = f.drain s := by
  induction fuel using Nat.strong_induction_on generalizing s with
  | _ fuel ih =>
    obtain ⟨fuel, rfl⟩ := Nat.exists_eq_succ_of_ne_zero (Nat.ne_zero_of_lt enough)
    unfold drain runTurns
    cases turned : f.turn s with
    | wait pieces next => rfl
    | again pieces next =>
      have less := f.shrinks s pieces next turned
      dsimp only
      rw [ih fuel (Nat.lt_succ_self _) next (by omega)]
      rcases Nat.lt_or_ge (f.size s) fuel with shorter | longer
      · rw [ih (f.size s) (by omega) next less]
      · rw [show f.size s = fuel by omega, ih fuel (Nat.lt_succ_self _) next (by omega)]

variable {next s : σ} {pieces : List (List α)}

theorem drain_again (turned : f.turn s = .again pieces next) :
    f.drain s = (pieces ++ (f.drain next).1, (f.drain next).2) := by
  rw [drain, runTurns, turned]
  dsimp only
  rw [f.runTurns_enough _ next (f.shrinks s pieces next turned)]

theorem drain_wait (turned : f.turn s = .wait pieces next) :
    f.drain s = (pieces, next) := by
  rw [drain, runTurns, turned]

theorem shown_again (turned : f.turn s = .again pieces next) :
    f.shown s = pieces.flatten ++ f.shown next := by
  rw [shown, f.drain_again turned, List.flatten_append]
  rfl

theorem rest_again (turned : f.turn s = .again pieces next) :
    f.rest s = f.rest next := by
  rw [rest, f.drain_again turned]
  rfl

theorem shown_wait (turned : f.turn s = .wait pieces next) :
    f.shown s = pieces.flatten := by
  rw [shown, f.drain_wait turned]

theorem rest_wait (turned : f.turn s = .wait pieces next) : f.rest s = next := by
  rw [rest, f.drain_wait turned]

theorem drain_induction {motive : σ → Prop}
    (wait : ∀ s pieces next, f.turn s = .wait pieces next → motive s)
    (again : ∀ s pieces next, f.turn s = .again pieces next → motive next → motive s) (s : σ) : motive s := by
  induction size : f.size s using Nat.strong_induction_on generalizing s with
  | _ _ ih =>
    cases turned : f.turn s with
    | wait pieces next => exact wait s pieces next turned
    | again pieces next =>
      exact again s pieces next turned (ih _ (size ▸ f.shrinks s pieces next turned) next rfl)

structure Incremental : Prop where
  shown : ∀ s more, f.shown (f.extend s more) = (f.turn s).pieces.flatten ++ f.shown (f.extend (f.turn s).next more)
  rest : ∀ s more, f.rest (f.extend s more) = f.rest (f.extend (f.turn s).next more)

variable {f}

theorem stays {more : List α} (turned : f.turn s = .again pieces next)
    (later : f.turn (f.extend s more) = .again pieces (f.extend next more)) :
    f.shown (f.extend s more) = (f.turn s).pieces.flatten ++ f.shown (f.extend (f.turn s).next more) ∧
      f.rest (f.extend s more) = f.rest (f.extend (f.turn s).next more) := by
  rw [turned, f.shown_again later, f.rest_again later]
  exact ⟨rfl, rfl⟩

theorem Incremental.drained (incremental : f.Incremental) (more : List α) (s : σ) :
    f.shown (f.extend s more) = f.shown s ++ f.shown (f.extend (f.rest s) more) ∧
      f.rest (f.extend s more) = f.rest (f.extend (f.rest s) more) := by
  induction s using f.drain_induction with
  | wait s pieces next turned =>
    have shown := incremental.shown s more
    have rest := incremental.rest s more
    rw [turned] at shown rest
    rw [f.shown_wait turned, f.rest_wait turned]
    exact ⟨shown, rest⟩
  | again s pieces next turned ih =>
    have shown := incremental.shown s more
    have rest := incremental.rest s more
    rw [turned] at shown rest
    rw [f.shown_again turned, f.rest_again turned, List.append_assoc, ← ih.1]
    exact ⟨shown, rest.trans ih.2⟩

def feed (f : Filter σ α) : σ → List (List α) → List α × σ
  | s, [] => ([], s)
  | s, chunk :: chunks =>
    let later := feed f (f.rest (f.extend s chunk)) chunks
    (f.shown (f.extend s chunk) ++ later.1, later.2)

structure Settled (f : Filter σ α) (s : σ) : Prop where
  shown : f.shown s = []
  rest : f.rest s = s

theorem Incremental.settled (incremental : f.Incremental) (s : σ) : f.Settled (f.rest s) := by
  have drained := incremental.drained [] s
  rw [f.extend_nil, f.extend_nil] at drained
  exact ⟨List.append_right_eq_self.1 drained.1.symm, drained.2.symm⟩

theorem Incremental.feed_flatten (incremental : f.Incremental) (chunks : List (List α)) (settled : f.Settled s) :
    f.feed s chunks = (f.shown (f.extend s chunks.flatten), f.rest (f.extend s chunks.flatten)) := by
  induction chunks generalizing s with
  | nil => rw [List.flatten_nil, f.extend_nil, settled.shown, settled.rest, feed]
  | cons chunk chunks ih =>
    have later := ih (incremental.settled (f.extend s chunk))
    have drained := incremental.drained chunks.flatten (f.extend s chunk)
    rw [f.extend_append] at drained
    rw [feed, later, List.flatten_cons, drained.1, drained.2]

end Filter

/-! ### Markers -/

section Clear_

variable {quiet : List α → Prop}

/-- Nothing of interest begins inside `front`. -/
def Clear (quiet : List α → Prop) (front back : List α) : Prop := ∀ u, u ≠ [] → u <:+ front → quiet (u ++ back)

variable {back front : List α} {x : α}

theorem Clear.extend (steady : ∀ u more, u ≠ [] → quiet u → quiet (u ++ more)) (clear : Clear quiet front back)
    (more : List α) : Clear quiet front (back ++ more) := by
  intro u filled inside
  rw [← List.append_assoc]
  exact steady _ more (List.append_ne_nil_of_left_ne_nil filled back) (clear u filled inside)

theorem Clear.tail (clear : Clear quiet (x :: front) back) : Clear quiet front back :=
  fun u filled inside => clear u filled (inside.trans (List.suffix_cons x front))

theorem Clear.head (clear : Clear quiet (x :: front) back) :
    quiet (x :: (front ++ back)) := clear (x :: front) (List.cons_ne_nil x front) List.suffix_rfl

theorem Clear.cons (here : quiet (x :: (front ++ back))) (clear : Clear quiet front back) :
    Clear quiet (x :: front) back := by
  intro u filled inside
  rcases List.suffix_cons_iff.1 inside with rfl | inside
  · exact here
  · exact clear u filled inside

theorem Clear.append {more : List α} (first : Clear quiet front (more ++ back)) (second : Clear quiet more back) :
    Clear quiet (front ++ more) back := by
  induction front with
  | nil => exact second
  | cons x front ih =>
    refine .cons ?_ (ih first.tail)
    have here : quiet (x :: (front ++ more ++ back)) := by
      rw [List.append_assoc]
      exact first.head
    exact here

structure Held (quiet : List α → Prop) (front back : List α) : Prop where
  clear : Clear quiet front back
  kept : back = [] ∨ ¬ quiet back

theorem Held.unique {before after : List α} (first : Held quiet front back) (second : Held quiet before after)
    (same : front ++ back = before ++ after) : front = before ∧ back = after := by
  rcases List.append_eq_append_iff.1 same with ⟨u, rfl, rfl⟩ | ⟨u, rfl, rfl⟩
  · by_cases empty : u = []
    · simp [empty]
    · exact (first.kept.elim (fun none => empty (List.append_eq_nil_iff.1 none).1)
        fun loud => loud (second.clear u empty (List.suffix_append front u))).elim
  · by_cases empty : u = []
    · simp [empty]
    · exact (second.kept.elim (fun none => empty (List.append_eq_nil_iff.1 none).1)
        fun loud => loud (first.clear u empty (List.suffix_append before u))).elim

end Clear_

/-! ### Delimiters -/

section Delimiter

variable {delimiter : List Char}

def Off (delimiter text : List Char) : Prop := ¬ text <+: delimiter ∧ ¬ delimiter <+: text

theorem off_steady (u more : List Char) (_ : u ≠ []) (off : Off delimiter u) : Off delimiter (u ++ more) := by
  refine ⟨fun inside => off.1 ((List.prefix_append u more).trans inside), fun found => ?_⟩
  rcases List.prefix_or_prefix_of_prefix found (List.prefix_append u more) with within | beyond
  · exact off.2 within
  · exact off.1 beyond

theorem splitOnceChars_extend {cs front back : List Char} (cut : Text.splitOnceChars delimiter cs = some (front, back))
    (filled : delimiter ≠ []) (more : List Char) :
    Text.splitOnceChars delimiter (cs ++ more) = some (front, back ++ more) := by
  induction cs generalizing front with
  | nil =>
    rw [Text.splitOnceChars, if_neg (by simpa using filled)] at cut
    cases cut
  | cons c rest ih =>
    rw [Text.splitOnceChars] at cut
    split at cut
    case h_1 behind here =>
      cases cut
      have whole := List.append_eq_of_isPrefixOf?_eq_some here
      rw [← whole, List.append_assoc]
      exact Text.splitOnceChars_here delimiter _ filled
    case h_2 missed =>
      obtain ⟨⟨before, after⟩, later, same⟩ := Option.map_eq_some_iff.1 cut
      cases same
      have whole := Text.splitOnceChars_eq later
      have missed_ : delimiter.isPrefixOf? (c :: (rest ++ more)) = none := by
        rw [← Option.not_isSome_iff_eq_none, List.isSome_isPrefixOf?_eq_isPrefixOf, List.isPrefixOf_iff_prefix]
        intro found
        -- the later match leaves room for the whole delimiter
        have room : delimiter.length ≤ (c :: rest).length := by
          rw [whole]
          simp only [List.length_cons, List.length_append]
          omega
        have here := List.prefix_of_prefix_length_le found (List.prefix_append (c :: rest) more) room
        rw [← List.isPrefixOf_iff_prefix, ← List.isSome_isPrefixOf?_eq_isPrefixOf, missed] at here
        cases here
      rw [List.cons_append, Text.splitOnceChars, missed_]
      dsimp only
      rw [ih later]
      rfl

theorem splitOnceChars_clear {front : List Char} (back : List Char) (clear : Clear (Off delimiter) front back) :
    Text.splitOnceChars delimiter (front ++ back) =
      (Text.splitOnceChars delimiter back).map fun (before, after) => (front ++ before, after) := by
  induction front with
  | nil => simp
  | cons c front ih =>
    have missed : delimiter.isPrefixOf? (c :: (front ++ back)) = none := by
      rw [← Option.not_isSome_iff_eq_none, List.isSome_isPrefixOf?_eq_isPrefixOf, List.isPrefixOf_iff_prefix]
      exact clear.head.2
    rw [List.cons_append, Text.splitOnceChars, missed]
    dsimp only
    rw [ih clear.tail, Option.map_map]
    rfl

theorem splitOnceChars_absent {cs : List Char} (uncut : Text.splitOnceChars delimiter cs = none) {u : List Char}
    (inside : u <:+ cs) (filled : u ≠ []) : ¬ delimiter <+: u := by
  induction cs with
  | nil => exact (filled (List.suffix_nil.1 inside)).elim
  | cons c rest ih =>
    rw [Text.splitOnceChars] at uncut
    split at uncut
    case h_1 => cases uncut
    case h_2 missed =>
      rcases List.suffix_cons_iff.1 inside with rfl | inside
      · rwa [← List.isPrefixOf_iff_prefix, ← List.isSome_isPrefixOf?_eq_isPrefixOf, Option.not_isSome_iff_eq_none]
      · exact ih (Option.map_eq_none_iff.1 uncut) inside

end Delimiter

end KiroProxy.Turns

import Mathlib.Data.List.Infix
import Mathlib.Data.List.Forall2

/-! Texts in which all matches of a pattern are replaced: the matches do not overlap and are found from left to right.
A replaced text is a list of pieces, each with what is shown and what it stands for. -/
namespace KiroProxy.Scan

variable {α β : Type}

/-- `find` gives the length of the match that begins a text, 0 where none does. -/
def scanFrom (find : List α → Nat) (keep : α → β) (place : List α → β) : Nat → List α → List β
  | _, [] => []
  | skip + 1, _ :: rest => scanFrom find keep place skip rest
  | 0, x :: rest => match find (x :: rest) with
    | 0 => keep x :: scanFrom find keep place 0 rest
    | length + 1 => place (x :: rest.take length) :: scanFrom find keep place length rest

def scan (find : List α → Nat) (keep : α → β) (place : List α → β) : List α → List β := scanFrom find keep place 0

variable {x : α} {rest xs : List α}

section Scan_

variable {find : List α → Nat} {keep : α → β} {place : List α → β}

theorem scanFrom_drop (skip : Nat) (xs : List α) :
    scanFrom find keep place skip xs = scan find keep place (xs.drop skip) := by
  induction xs generalizing skip with
  | nil => cases skip <;> rfl
  | cons x rest ih =>
    cases skip with
    | zero => rfl
    | succ skip => exact ih skip

@[simp] theorem scan_nil : scan find keep place [] = [] := rfl

theorem scan_kept (none : find (x :: rest) = 0) :
    scan find keep place (x :: rest) = keep x :: scan find keep place rest := by
  show scanFrom find keep place 0 (x :: rest) = _
  rw [scanFrom, none]
  rfl

theorem scan_found (some : find (x :: rest) ≠ 0) :
    scan find keep place (x :: rest) = place ((x :: rest).take (find (x :: rest))) ::
      scan find keep place ((x :: rest).drop (find (x :: rest))) := by
  obtain ⟨length, same⟩ := Nat.exists_eq_succ_of_ne_zero some
  show scanFrom find keep place 0 (x :: rest) = _
  rw [scanFrom, same]
  dsimp only
  rw [scanFrom_drop]
  rfl

theorem scan_induction {motive : List α → Prop} (find : List α → Nat) (nil : motive [])
    (kept : ∀ x rest, find (x :: rest) = 0 → motive rest → motive (x :: rest))
    (found : ∀ x rest, find (x :: rest) ≠ 0 → motive ((x :: rest).drop (find (x :: rest))) → motive (x :: rest))
    (xs : List α) : motive xs := by
  induction size : xs.length using Nat.strong_induction_on generalizing xs with
  | _ size_ ih =>
    cases xs with
    | nil => exact nil
    | cons x rest =>
      by_cases none : find (x :: rest) = 0
      · exact kept x rest none (ih rest.length (by rw [← size, List.length_cons]; exact Nat.lt_succ_self _) rest rfl)
      · refine found x rest none (ih _ ?_ _ rfl)
        rw [← size, List.length_drop]
        exact Nat.sub_lt (Nat.succ_pos _) (Nat.pos_of_ne_zero none)

theorem scan_suffix {front back : List β} (split : scan find keep place xs = front ++ back) :
    ∃ pre post, xs = pre ++ post ∧ scan find keep place post = back := by
  induction front generalizing xs with
  | nil => exact ⟨[], xs, rfl, split⟩
  | cons y front ih =>
    cases xs with
    | nil => cases split
    | cons x rest =>
      by_cases none : find (x :: rest) = 0
      · rw [scan_kept none] at split
        obtain ⟨pre, post, rfl, later⟩ := ih (List.cons.inj split).2
        exact ⟨x :: pre, post, rfl, later⟩
      · rw [scan_found none] at split
        obtain ⟨pre, post, same, later⟩ := ih (List.cons.inj split).2
        refine ⟨(x :: rest).take (find (x :: rest)) ++ pre, post, ?_, later⟩
        rw [List.append_assoc, ← same, List.take_append_drop]

theorem scan_first {y : β} {back : List β} (split : scan find keep place xs = y :: back) :
    (∃ x rest, xs = x :: rest ∧ find xs = 0 ∧ y = keep x ∧ scan find keep place rest = back) ∨
      find xs ≠ 0 ∧ y = place (xs.take (find xs)) ∧ scan find keep place (xs.drop (find xs)) = back := by
  cases xs with
  | nil => cases split
  | cons x rest =>
    by_cases none : find (x :: rest) = 0
    · rw [scan_kept none] at split
      obtain ⟨rfl, later⟩ := List.cons.inj split
      exact .inl ⟨x, rest, rfl, none, rfl, later⟩
    · rw [scan_found none] at split
      obtain ⟨rfl, later⟩ := List.cons.inj split
      exact .inr ⟨none, rfl, later⟩

def Found (find : List α → Nat) (xs : List α) : Prop := ∃ front back, xs = front ++ back ∧ find back ≠ 0

theorem Found.of_suffix {front back : List α} (found : Found find back) : Found find (front ++ back) := by
  obtain ⟨before, rest, rfl, here⟩ := found
  exact ⟨front ++ before, rest, (List.append_assoc _ _ _).symm, here⟩

theorem scan_word {word : List α} (none : ∀ u, u <:+ word → u ≠ [] → find (u ++ rest) = 0) :
    scan find keep place (word ++ rest) = word.map keep ++ scan find keep place rest := by
  induction word with
  | nil => rfl
  | cons x word ih =>
    have here : find (x :: (word ++ rest)) = 0 := none (x :: word) List.suffix_rfl (List.cons_ne_nil x word)
    rw [List.cons_append, scan_kept here, ih fun u inside => none u (inside.trans (List.suffix_cons x word))]
    rfl

end Scan_

/-! ### Pieces -/

inductive Piece (α : Type) where
  | kept (x : α)
  | placed (word source : List α)
  deriving DecidableEq

def Piece.text : Piece α → List α
  | .kept x => [x]
  | .placed word _ => word

def Piece.source : Piece α → List α
  | .kept x => [x]
  | .placed _ source => source

def text (pieces : List (Piece α)) : List α := pieces.flatMap Piece.text

def source (pieces : List (Piece α)) : List α := pieces.flatMap Piece.source

@[simp] theorem text_append (front back : List (Piece α)) : text (front ++ back) = text front ++ text back :=
  List.flatMap_append

@[simp] theorem source_append (front back : List (Piece α)) : source (front ++ back) = source front ++ source back :=
  List.flatMap_append

@[simp] theorem text_kept (xs : List α) : text (xs.map .kept) = xs := by
  rw [text, List.flatMap_map]
  exact List.flatMap_singleton' xs

@[simp] theorem source_kept (xs : List α) : source (xs.map .kept) = xs := by
  rw [source, List.flatMap_map]
  exact List.flatMap_singleton' xs

def pieces (find : List α → Nat) (word : List α) : List α → List (Piece α) := scan find .kept (.placed word)

def replaceAll (find : List α → Nat) (word xs : List α) : List α := text (pieces find word xs)

def replacePieces (find : List (Piece α) → Nat) (word : List α) : List (Piece α) → List (Piece α) :=
  scan find id fun found => .placed word (source found)

theorem source_pieces (find : List α → Nat) (word xs : List α) : source (pieces find word xs) = xs := by
  induction xs using scan_induction find with
  | nil => rfl
  | kept x rest none ih =>
    rw [pieces, scan_kept none]
    exact congrArg (x :: ·) ih
  | found x rest some ih =>
    rw [pieces, scan_found some]
    show (x :: rest).take _ ++ source _ = _
    rw [show source (scan find .kept (.placed word) _) = _ from ih, List.take_append_drop]

theorem source_replacePieces (find : List (Piece α) → Nat) (word : List α) (ps : List (Piece α)) :
    source (replacePieces find word ps) = source ps := by
  induction ps using scan_induction find with
  | nil => rfl
  | kept p rest none ih =>
    rw [replacePieces, scan_kept none]
    exact congrArg (p.source ++ ·) ih
  | found p rest some ih =>
    rw [replacePieces, scan_found some]
    show source ((p :: rest).take _) ++ source _ = _
    rw [show source (scan find id _ _) = _ from ih, ← source_append, List.take_append_drop]

/-! ### Patterns -/

section Patterns

variable {κ : Type} (reads : κ → α → Bool)

def begins : List κ → List α → Bool
  | [], _ => true
  | p :: ps, x :: xs => reads p x && begins ps xs
  | _ :: _, [] => false

def clashes : List κ → List α → Bool
  | p :: ps, x :: xs => !reads p x || clashes ps xs
  | _, _ => false

def Runs (pattern : List κ) (words : List (List α)) : Prop :=
  ∀ b ∈ pattern.tails, b ≠ [] → ∀ word ∈ words, clashes reads b word = true

def Starts (pattern : List κ) (words : List (List α)) : Prop :=
  ∀ word ∈ words, ∀ u ∈ word.tails, u ≠ [] → clashes reads pattern u = true

instance [DecidableEq κ] (pattern : List κ) (words : List (List α)) : Decidable (Runs reads pattern words) :=
  inferInstanceAs (Decidable (∀ b ∈ pattern.tails, b ≠ [] → ∀ word ∈ words, clashes reads b word = true))

instance [DecidableEq α] (pattern : List κ) (words : List (List α)) : Decidable (Starts reads pattern words) :=
  inferInstanceAs (Decidable (∀ word ∈ words, ∀ u ∈ word.tails, u ≠ [] → clashes reads pattern u = true))

def keeps (p : κ) : Piece α → Bool
  | .kept x => reads p x
  | .placed _ _ => false

variable {reads} {pattern : List κ} {words : List (List α)}

theorem begins_iff : begins reads pattern xs = true ↔
    ∃ s rest, xs = s ++ rest ∧ List.Forall₂ (fun p x => reads p x = true) pattern s := by
  induction pattern generalizing xs with
  | nil => exact ⟨fun _ => ⟨[], xs, rfl, .nil⟩, fun _ => rfl⟩
  | cons p ps ih =>
    constructor
    · intro here
      cases xs with
      | nil => cases here
      | cons x xs =>
        obtain ⟨first, later⟩ := Bool.and_eq_true_iff.1 here
        obtain ⟨s, rest, rfl, all⟩ := ih.1 later
        exact ⟨x :: s, rest, rfl, .cons first all⟩
    · rintro ⟨s, rest, rfl, all⟩
      cases all with
      | cons first later => exact Bool.and_eq_true_iff.2 ⟨first, ih.2 ⟨_, rest, rfl, later⟩⟩

theorem begins_clash {word : List α} (clash : clashes reads pattern word = true) (rest : List α) :
    begins reads pattern (word ++ rest) = false := by
  induction pattern generalizing word with
  | nil => cases word <;> cases clash
  | cons p ps ih =>
    cases word with
    | nil => cases clash
    | cons x xs =>
      rcases Bool.or_eq_true_iff.1 clash with differs | later
      · exact Bool.and_eq_false_iff.2 (.inl (by simpa using differs))
      · exact Bool.and_eq_false_iff.2 (.inr (ih later))

theorem begins_blocked (none : ∀ p ∈ pattern, reads p x = false) (u rest : List α) :
    begins reads pattern (u ++ x :: rest) = begins reads pattern u := by
  induction pattern generalizing u with
  | nil => rfl
  | cons p ps ih =>
    cases u with
    | nil => exact Bool.and_eq_false_iff.2 (.inl (none p List.mem_cons_self))
    | cons y u => exact congrArg (reads p y && ·) (ih (fun q member => none q (List.mem_cons_of_mem p member)) u)

theorem Runs.tail {p : κ} (runs : Runs reads (p :: pattern) words) : Runs reads pattern words := by
  intro b inside
  rw [List.mem_tails] at inside
  exact runs b ((List.mem_tails _ _).2 (inside.trans (List.suffix_cons p pattern)))

def Shows (words : List (List α)) (ps : List (Piece α)) : Prop :=
  ∀ word source, Piece.placed word source ∈ ps → word ∈ words

theorem Shows.of_append_right {front back : List (Piece α)} (shows : Shows words (front ++ back)) :
    Shows words back := fun word source member => shows word source (List.mem_append_right front member)

variable {ps : List (Piece α)}

theorem Shows.tail {p : Piece α} (shows : Shows words (p :: ps)) : Shows words ps :=
  fun word source member => shows word source (List.mem_cons_of_mem p member)

theorem begins_text (runs : Runs reads pattern words) (shows : Shows words ps) :
    begins reads pattern (text ps) = begins (keeps reads) pattern ps := by
  induction pattern generalizing ps with
  | nil => rfl
  | cons p pattern ih =>
    cases ps with
    | nil => rfl
    | cons piece ps =>
      cases piece with
      | kept x => exact congrArg (reads p x && ·) (ih runs.tail shows.tail)
      | placed word source =>
        have clash := runs (p :: pattern) ((List.mem_tails _ _).2 List.suffix_rfl) (List.cons_ne_nil p pattern) word
          (shows word source List.mem_cons_self)
        exact begins_clash clash (text ps)

theorem begins_keeps : begins (keeps reads) pattern ps = true ↔
    ∃ s back, ps = s.map .kept ++ back ∧ List.Forall₂ (fun p x => reads p x = true) pattern s := by
  induction pattern generalizing ps with
  | nil => exact ⟨fun _ => ⟨[], ps, rfl, .nil⟩, fun _ => rfl⟩
  | cons p pattern ih =>
    constructor
    · intro here
      cases ps with
      | nil => cases here
      | cons piece ps =>
        obtain ⟨first, later⟩ := Bool.and_eq_true_iff.1 here
        cases piece with
        | placed word source => cases first
        | kept x =>
          obtain ⟨s, back, rfl, all⟩ := ih.1 later
          exact ⟨x :: s, back, rfl, .cons first all⟩
    · rintro ⟨s, back, rfl, all⟩
      cases all with
      | cons first later => exact Bool.and_eq_true_iff.2 ⟨first, ih.2 ⟨_, back, rfl, later⟩⟩

theorem text_split {x : List α} (split : text ps = x ++ rest) :
    (∃ front back, ps = front ++ back ∧ text front = x ∧ text back = rest) ∨
      ∃ front word source back a u, ps = front ++ .placed word source :: back ∧ word = a ++ u ∧ a ≠ [] ∧ u ≠ [] ∧
        x = text front ++ a ∧ rest = u ++ text back := by
  induction ps generalizing x with
  | nil =>
    obtain ⟨rfl, rfl⟩ := List.append_eq_nil_iff.1 split.symm
    exact .inl ⟨[], [], rfl, rfl, rfl⟩
  | cons piece ps ih =>
    have whole : piece.text ++ text ps = x ++ rest := split
    rcases List.append_eq_append_iff.1 whole with ⟨more, rfl, later⟩ | ⟨u, inside, rfl⟩
    · rcases ih later with ⟨front, back, rfl, rfl, rfl⟩ | ⟨front, word, source, back, a, u, rfl, same, filled, some, rfl, rfl⟩
      · exact .inl ⟨piece :: front, back, rfl, rfl, rfl⟩
      · refine .inr ⟨piece :: front, word, source, back, a, u, rfl, same, filled, some, ?_, rfl⟩
        rw [← List.append_assoc]
        rfl
    · rcases eq_or_ne x [] with rfl | filled
      · exact .inl ⟨[], piece :: ps, rfl, rfl, by rw [← List.nil_append u, ← inside]; rfl⟩
      · rcases eq_or_ne u [] with rfl | some
        · refine .inl ⟨[piece], ps, rfl, ?_, rfl⟩
          rw [List.append_nil] at inside
          rw [← inside]
          exact List.append_nil _
        · cases piece with
          | kept y =>
            have size := congrArg List.length inside
            have first := List.length_pos_iff.2 filled
            have second := List.length_pos_iff.2 some
            simp only [Piece.text, List.length_cons, List.length_nil, List.length_append] at size
            omega
          | placed word source => exact .inr ⟨[], word, source, ps, x, u, rfl, inside, filled, some, rfl, rfl⟩

variable (reads pattern) in
/-- What is shown does not begin with the pattern anywhere inside a word. -/
def Silent (ps : List (Piece α)) : Prop := ∀ front word source back, ps = front ++ .placed word source :: back →
  ∀ u, u <:+ word → u ≠ [] → begins reads pattern (u ++ text back) = false

theorem Starts.silent (starts : Starts reads pattern words) (shows : Shows words ps) :
    Silent reads pattern ps := by
  rintro front word source back rfl u inside filled
  have shown := shows word source (List.mem_append_right front List.mem_cons_self)
  exact begins_clash (starts word shown u ((List.mem_tails _ _).2 inside) filled) (text back)

theorem Silent.of_append_right {front back : List (Piece α)} (silent : Silent reads pattern (front ++ back)) :
    Silent reads pattern back := by
  rintro before word source rest rfl
  exact silent (front ++ before) word source rest (List.append_assoc _ _ _).symm

theorem Silent.tail {p : Piece α} (silent : Silent reads pattern (p :: ps)) :
    Silent reads pattern ps := by
  have split : Silent reads pattern ([p] ++ ps) := silent
  exact split.of_append_right

theorem occurs (runs : Runs reads pattern words) (silent : Silent reads pattern ps) (shows : Shows words ps)
    {x : List α} (split : text ps = x ++ rest) (here : begins reads pattern rest = true) :
    ∃ front back, ps = front ++ back ∧ text front = x ∧ text back = rest ∧ begins (keeps reads) pattern back = true := by
  rcases text_split split with ⟨front, back, rfl, same, later⟩ |
    ⟨front, word, source, back, a, u, rfl, inside, -, filled, rfl, rfl⟩
  · refine ⟨front, back, rfl, same, later, ?_⟩
    rw [← begins_text runs shows.of_append_right, later]
    exact here
  · rw [silent front word source back rfl u ⟨a, inside.symm⟩ filled] at here
    cases here

/-! ### A word replaced among the pieces -/

def wordAt (reads : κ → α → Bool) (pattern : List κ) (xs : List α) : Nat :=
  if begins reads pattern xs then pattern.length else 0

theorem text_replacePieces (runs : Runs reads pattern words) (word : List α) (silent : Silent reads pattern ps)
    (shows : Shows words ps) :
    text (replacePieces (wordAt (keeps reads) pattern) word ps) =
      replaceAll (wordAt reads pattern) word (text ps) := by
  induction ps using scan_induction (wordAt (keeps reads) pattern) with
  | nil => rfl
  | kept piece rest none ih =>
    rw [replacePieces, scan_kept none]
    show piece.text ++ text (replacePieces _ word rest) = _
    rw [ih silent.tail shows.tail]
    cases piece with
    | kept x =>
      have same : wordAt reads pattern (x :: text rest) = 0 := by
        rw [← none, wordAt, wordAt, ← begins_text runs shows]
        rfl
      show _ = text (pieces _ word (x :: text rest))
      rw [pieces, scan_kept same]
      rfl
    | placed shown source =>
      have none : ∀ u, u <:+ shown → u ≠ [] → wordAt reads pattern (u ++ text rest) = 0 := by
        intro u inside filled
        rw [wordAt, silent [] shown source rest rfl u inside filled]
        rfl
      show _ = text (pieces _ word (shown ++ text rest))
      rw [pieces, scan_word none, text_append, text_kept]
      rfl
  | found piece rest some ih =>
    have begin_ : begins (keeps reads) pattern (piece :: rest) = true := by
      by_contra differs
      rw [wordAt, if_neg differs] at some
      exact some rfl
    have length : wordAt (keeps reads) pattern (piece :: rest) = pattern.length := if_pos begin_
    obtain ⟨s, back, same, all⟩ := begins_keeps.1 begin_
    have size : (s.map Piece.kept).length = pattern.length := by rw [List.length_map, all.length_eq]
    have shown : text (piece :: rest) = s ++ text back := by rw [same, text_append, text_kept]
    have behind : (piece :: rest).drop pattern.length = back := by rw [same, ← size, List.drop_left]
    rw [length, behind] at ih
    rw [replacePieces, scan_found some, length, behind]
    show word ++ text (replacePieces _ word back) = _
    rw [same] at shows silent
    rw [ih silent.of_append_right shows.of_append_right, shown]
    have here : wordAt reads pattern (s ++ text back) = pattern.length := by
      rw [wordAt, if_pos (begins_iff.2 ⟨s, text back, rfl, all⟩)]
    cases s with
    | nil => rw [← size] at length; exact absurd length some
    | cons x s =>
      have hit : wordAt reads pattern (x :: (s ++ text back)) ≠ 0 := by
        rw [show wordAt reads pattern (x :: (s ++ text back)) = pattern.length from here, ← size]
        exact Nat.succ_ne_zero _
      show _ = text (pieces _ word (x :: (s ++ text back)))
      rw [pieces, scan_found hit]
      show _ = word ++ text (pieces _ word _)
      rw [show wordAt reads pattern (x :: (s ++ text back)) = pattern.length from here, ← size, List.length_map]
      show _ = word ++ text (pieces _ word ((x :: s ++ text back).drop (x :: s).length))
      rw [List.drop_left]
      rfl

end Patterns

end KiroProxy.Scan

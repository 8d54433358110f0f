import Mathlib.Data.List.DropRight
import Mathlib.Data.List.Infix

/-! Text operations of the standard library on which the translators rely.
White space is the Unicode White_Space property, not the ASCII subset. -/
namespace KiroProxy.Text

def isWhitespace (c : Char) : Bool :=
  let n := c.toNat
  (0x9 ≤ n && n ≤ 0xD) || n == 0x20 || n == 0x85 || n == 0xA0 || n == 0x1680 ||
    (0x2000 ≤ n && n ≤ 0x200A) || n == 0x2028 || n == 0x2029 || n == 0x202F ||
    n == 0x205F || n == 0x3000

/-- What is said of every character of a text is decided on the characters of the text. -/
instance (priority := 1100) decidableEvery (cs : List Char) (p : Char → Prop) [DecidablePred p] : Decidable (∀ c ∈ cs, p c) :=
  List.decidableBAll p cs

def trimChars (cs : List Char) : List Char :=
  (cs.dropWhile isWhitespace).rdropWhile isWhitespace

/-- `str::trim`: both ends lose their white space, the middle keeps it. -/
def trim (s : String) : String := String.ofList (trimChars s.toList)

/-- `str::eq_ignore_ascii_case`: only the ASCII letters are folded. -/
def eqIgnoreAsciiCase (a b : String) : Bool :=
  a.toList.map Char.toLower == b.toList.map Char.toLower

/-- `str::contains` with a text. -/
def contains (s part : String) : Bool := decide (part.toList <:+: s.toList)

/-- `str::to_ascii_lowercase`. -/
def toAsciiLowercase (s : String) : String := String.ofList (s.toList.map Char.toLower)

/-- `str::strip_prefix`. -/
def stripPrefix (s front : String) : Option String := (front.toList.isPrefixOf? s.toList).map String.ofList

def startsWith (s front : String) : Bool := front.toList.isPrefixOf s.toList

def endsWith (s back : String) : Bool := back.toList.isSuffixOf s.toList

def splitOnceChars (sep : List Char) : List Char → Option (List Char × List Char)
  | [] => if sep.isEmpty then some ([], []) else none
  | c :: rest => match sep.isPrefixOf? (c :: rest) with
    | some back => some ([], back)
    | none => (splitOnceChars sep rest).map fun (front, back) => (c :: front, back)

/-- `str::split_once`: at the first occurrence. -/
def splitOnce (s sep : String) : Option (String × String) :=
  (splitOnceChars sep.toList s.toList).map fun (front, back) => (String.ofList front, String.ofList back)

variable {back cs front : List Char} {c : Char}

theorem isUpper_bounds (upper : c.isUpper = true) : 65 ≤ c.toNat ∧ c.toNat ≤ 90 := of_decide_eq_true upper

theorem isLower_bounds (lower : c.isLower = true) : 97 ≤ c.toNat ∧ c.toNat ≤ 122 := by
  have bounds := (Bool.and_eq_true _ _).mp lower
  exact ⟨of_decide_eq_true bounds.1, of_decide_eq_true bounds.2⟩

theorem isDigit_bounds (digit : c.isDigit = true) : 48 ≤ c.toNat ∧ c.toNat ≤ 57 := by
  have bounds := (Bool.and_eq_true _ _).mp digit
  exact ⟨of_decide_eq_true bounds.1, of_decide_eq_true bounds.2⟩

theorem isAlphanum_bounds (known : c.isAlphanum = true) :
    (65 ≤ c.toNat ∧ c.toNat ≤ 90 ∨ 97 ≤ c.toNat ∧ c.toNat ≤ 122) ∨ 48 ≤ c.toNat ∧ c.toNat ≤ 57 := by
  rcases (Bool.or_eq_true _ _).mp known with alpha | digit
  · exact .inl (((Bool.or_eq_true _ _).mp alpha).imp isUpper_bounds isLower_bounds)
  · exact .inr (isDigit_bounds digit)

theorem splitOnceChars_shorter {sep : List Char} (filled : sep ≠ [])
    (cut : splitOnceChars sep cs = some (front, back)) : back.length < cs.length := by
  induction cs generalizing front with
  | nil =>
    rw [splitOnceChars, if_neg (by simpa using filled)] at cut
    cases cut
  | cons c rest ih =>
    unfold splitOnceChars at cut
    split at cut
    case h_1 here =>
      obtain ⟨-, rfl⟩ : [] = front ∧ _ = back := by simpa using cut
      have whole := congrArg List.length (List.append_eq_of_isPrefixOf?_eq_some here)
      have some := List.length_pos_iff.2 filled
      simp only [List.length_append, List.length_cons] at whole ⊢
      omega
    case h_2 =>
      obtain ⟨⟨_, _⟩, later, same⟩ := Option.map_eq_some_iff.1 cut
      obtain ⟨-, rfl⟩ := Prod.mk.inj same
      have shorter := ih later
      rw [List.length_cons]
      omega

theorem splitOnceChars_skip (absent : c ∉ front) (more rest : List Char) :
    splitOnceChars (c :: more) (front ++ rest) =
      (splitOnceChars (c :: more) rest).map fun (before, back) => (front ++ before, back) := by
  induction front with
  | nil => simp
  | cons d front ih =>
    have other : c ≠ d := fun same => absent (by rw [same]; exact List.mem_cons_self)
    have unmatched : (c :: more).isPrefixOf? (d :: (front ++ rest)) = none := by
      simp [List.isPrefixOf?, other]
    rw [List.cons_append, splitOnceChars, unmatched]
    dsimp only
    rw [ih fun member => absent (List.mem_cons_of_mem d member), Option.map_map]
    rfl

theorem splitOnceChars_absent (absent : c ∉ cs) (more : List Char) :
    splitOnceChars (c :: more) cs = none := by
  have skipped := splitOnceChars_skip absent more []
  rwa [List.append_nil] at skipped

theorem splitOnceChars_here (sep rest : List Char) (filled : sep ≠ []) :
    splitOnceChars sep (sep ++ rest) = some ([], rest) := by
  cases sep with
  | nil => exact absurd rfl filled
  | cons c more =>
    have here : (c :: more).isPrefixOf? (c :: (more ++ rest)) = some rest := by
      rw [List.isPrefixOf?_eq_some_iff_append_eq]
      rfl
    rw [List.cons_append, splitOnceChars, here]

theorem splitOnceChars_eq {sep : List Char} (cut : splitOnceChars sep cs = some (front, back)) :
    cs = front ++ (sep ++ back) := by
  induction cs generalizing front with
  | nil =>
    rw [splitOnceChars] at cut
    split at cut
    case isTrue empty =>
      cases cut
      rw [List.isEmpty_iff.1 empty]
      rfl
    case isFalse => cases cut
  | cons c rest ih =>
    rw [splitOnceChars] at cut
    split at cut
    case h_1 behind here =>
      cases cut
      exact (List.append_eq_of_isPrefixOf?_eq_some here).symm
    case h_2 =>
      obtain ⟨⟨before, after⟩, later, same⟩ := Option.map_eq_some_iff.1 cut
      cases same
      rw [ih later]
      rfl

theorem splitOnceChars_front (cut : splitOnceChars [c] cs = some (front, back)) : c ∉ front := by
  induction cs generalizing front with
  | nil => cases cut
  | cons d rest ih =>
    rw [splitOnceChars] at cut
    split at cut
    case h_1 => cases cut; exact List.not_mem_nil
    case h_2 unmatched =>
      obtain ⟨⟨before, after⟩, later, same⟩ := Option.map_eq_some_iff.1 cut
      cases same
      have other : c ≠ d := by
        rintro rfl
        simp [List.isPrefixOf?] at unmatched
      exact List.not_mem_cons_of_ne_of_not_mem other (ih later)

theorem splitOnceChars_none : splitOnceChars [c] cs = none ↔ c ∉ cs := by
  constructor
  · intro uncut member
    obtain ⟨front, back, rfl, absent⟩ := List.eq_append_cons_of_mem member
    rw [splitOnceChars_skip absent, Option.map_eq_none_iff] at uncut
    have here := splitOnceChars_here [c] back (List.cons_ne_nil c [])
    exact absurd (uncut.symm.trans here) (by simp)
  · exact fun absent => splitOnceChars_absent absent []

/-- `str::split` with a text that is not empty. -/
def splitChars (sep : List Char) (filled : sep ≠ []) (cs : List Char) : List (List Char) :=
  match cut : splitOnceChars sep cs with
  | some (front, back) =>
    have := splitOnceChars_shorter filled cut
    front :: splitChars sep filled back
  | none => [cs]
termination_by cs.length

/-- `str::trim_start`. -/
def trimStart (s : String) : String := String.ofList (s.toList.dropWhile isWhitespace)

theorem dropWhile_of_head {α : Type} (p : α → Bool) (xs : List α)
    (head : ∀ x, xs.head? = some x → p x = false) : xs.dropWhile p = xs := by
  cases xs with
  | nil => rfl
  | cons x xs => simp [head x rfl]

theorem trimChars_head (cs : List Char) (c : Char) (first : (trimChars cs).head? = some c) :
    isWhitespace c = false := by
  have before : (cs.dropWhile isWhitespace).head? = some c := by
    obtain ⟨rest, split⟩ := List.rdropWhile_prefix isWhitespace (l := cs.dropWhile isWhitespace)
    unfold trimChars at first
    rw [← split]
    cases h : List.rdropWhile isWhitespace (List.dropWhile isWhitespace cs) with
    | nil => simp [h] at first
    | cons x xs => simpa [h] using first
  have kept := List.head?_dropWhile_not isWhitespace cs
  simpa [before] using kept

@[simp] theorem trimChars_trimChars (cs : List Char) : trimChars (trimChars cs) = trimChars cs := by
  have front : (trimChars cs).dropWhile isWhitespace = trimChars cs :=
    dropWhile_of_head isWhitespace _ (trimChars_head cs)
  calc trimChars (trimChars cs)
      = ((trimChars cs).dropWhile isWhitespace).rdropWhile isWhitespace := rfl
    _ = (trimChars cs).rdropWhile isWhitespace := by rw [front]
    _ = trimChars cs := List.rdropWhile_idempotent isWhitespace _

@[simp] theorem trim_trim (s : String) : trim (trim s) = trim s := by
  simp [trim]

theorem trim_eq_empty {s : String} : trim s = "" ↔ ∀ c ∈ s.toList, isWhitespace c = true := by
  rw [trim, ← String.ofList_nil, String.ofList_inj, trimChars, List.rdropWhile_eq_nil_iff]
  constructor
  · intro blank c member
    have split : s.toList.takeWhile isWhitespace ++ s.toList.dropWhile isWhitespace = s.toList :=
      List.takeWhile_append_dropWhile
    rw [← split] at member
    rcases List.mem_append.1 member with front | back
    · exact List.mem_takeWhile_imp front
    · exact blank c back
  · exact fun blank c member => blank c ((List.dropWhile_sublist isWhitespace).subset member)

theorem trim_split (s : String) : ∃ front back, s = front ++ trim s ++ back ∧ trim front = "" ∧ trim back = "" := by
  have left : s.toList.takeWhile isWhitespace ++ s.toList.dropWhile isWhitespace = s.toList :=
    List.takeWhile_append_dropWhile
  have right : (s.toList.dropWhile isWhitespace).rdropWhile isWhitespace ++
      (s.toList.dropWhile isWhitespace).rtakeWhile isWhitespace = s.toList.dropWhile isWhitespace :=
    List.rdropWhile_append_rtakeWhile
  refine ⟨String.ofList (s.toList.takeWhile isWhitespace),
    String.ofList ((s.toList.dropWhile isWhitespace).rtakeWhile isWhitespace), ?_, ?_, ?_⟩
  · apply String.toList_inj.1
    simp [trim, trimChars, right]
  · rw [trim_eq_empty, String.toList_ofList]
    exact fun c member => List.mem_takeWhile_imp member
  · rw [trim_eq_empty, String.toList_ofList]
    exact fun c member => List.mem_rtakeWhile_imp member

theorem trim_leading {blank : String} (blanks : trim blank = "") (s : String) : trim (blank ++ s) = trim s := by
  rw [trim_eq_empty] at blanks
  rw [trim, trim, trimChars, trimChars, String.toList_append, List.dropWhile_append_of_pos blanks]

theorem trim_trailing {blank : String} (blanks : trim blank = "") (s : String) : trim (s ++ blank) = trim s := by
  rw [trim_eq_empty] at blanks
  have front : (s.toList ++ blank.toList).dropWhile isWhitespace =
      s.toList.dropWhile isWhitespace ++ if s.toList.dropWhile isWhitespace = [] then [] else blank.toList := by
    rw [List.dropWhile_append]
    split
    case isTrue empty =>
      have none := List.isEmpty_iff.1 empty
      simp [none, List.dropWhile_eq_nil_iff.2 blanks]
    case isFalse some =>
      rw [if_neg fun none => some (by rw [none]; rfl)]
  have back (cs : List Char) : (cs ++ blank.toList).rdropWhile isWhitespace = cs.rdropWhile isWhitespace := by
    rw [List.rdropWhile, List.rdropWhile, List.reverse_append,
      List.dropWhile_append_of_pos fun c member => blanks c (List.mem_reverse.1 member)]
  rw [trim, trim, trimChars, trimChars, String.toList_append, front]
  split
  · rw [List.append_nil]
  · rw [back]

theorem trim_append_empty {front back : String} : trim (front ++ back) = "" ↔ trim front = "" ∧ trim back = "" := by
  simp only [trim_eq_empty, String.toList_append, List.mem_append, or_imp, forall_and]

theorem eq_of_append_sep {sep : Char} {front' back' : List Char} (alone : sep ∉ back) (alone' : sep ∉ back')
    (same : front ++ sep :: back = front' ++ sep :: back') : front = front' ∧ back = back' := by
  rcases List.append_eq_append_iff.1 same with ⟨more, longer, rest⟩ | ⟨more, longer, rest⟩
  · cases more with
    | nil => exact ⟨by simpa using longer.symm, by simpa using rest⟩
    | cons c tail =>
      simp only [List.cons_append, List.cons.injEq] at rest
      exact absurd (rest.2 ▸ List.mem_append_right tail List.mem_cons_self) alone
  · cases more with
    | nil => exact ⟨by simpa using longer, by simpa using rest.symm⟩
    | cons c tail =>
      simp only [List.cons_append, List.cons.injEq] at rest
      exact absurd (rest.2 ▸ List.mem_append_right tail List.mem_cons_self) alone'

end KiroProxy.Text

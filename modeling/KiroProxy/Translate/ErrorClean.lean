import KiroProxy.Translate.ErrorShown
import Mathlib.Data.String.Basic

/-! Which messages reach a client without forbidden text. -/
namespace KiroProxy.ErrorText

open Scan

/-! ### What is read of a message -/

/-- The part of a message that is sent on, where its class is one of which a part is. -/
def reflected (message : String) : Option String :=
  let message := redactKiroKeys message
  let lower := Text.toAsciiLowercase message
  if banTriggerPhrases.any (Text.contains lower ·) || isContextError lower then none
  else if isQuotaError lower then
    if Text.contains lower "throttlingexception" then
      some ("ThrottlingException" ++ ((Text.splitOnce message "ThrottlingException").map (·.2)).getD "")
    else some message
  else if isAuthError lower || isServerError lower || isNetworkError lower then none
  else some message

def shownChar (c : Char) : Char := (blank c).toLower

/-- Three things bring forbidden text to a client: a phrase with control characters for blanks; a name, whose
replacement ends in t, before the rest of a phrase; and what comes before a key where the message is cut. -/
inductive Exposed (ps : List (Piece Char)) : Prop where
  | blanks (phrase : String) (member : phrase ∈ banTriggerPhrases) (front : List (Piece Char)) (cs : List Char)
    (back : List (Piece Char)) (here : ps = front ++ (cs.map .kept ++ back)) (spelled : cs.map shownChar = phrase.toList)
    (shown : (text front).length + cs.length ≤ limit)
  | name (phrase : String) (member : phrase ∈ banTriggerPhrases) (front : List (Piece Char)) (found cs : List Char)
    (back : List (Piece Char)) (here : ps = front ++ .placed endpoint found :: (cs.map .kept ++ back))
    (spelled : 't' :: cs.map shownChar = phrase.toList)
    (shown : (text front).length + (endpoint.length + cs.length) ≤ limit)
  | key (front : List (Piece Char)) (cs : List Char) (back : List (Piece Char))
    (here : ps = front ++ (cs.map .kept ++ back)) (spelled : List.Forall₂ (fun p c => folds p c = true) keyPrefix cs)
    (cut : (text front).length + cs.length = limit) (more : back ≠ [])

structure Clean (shown : String) : Prop where
  phrases : ∀ phrase ∈ banTriggerPhrases, Text.contains (Text.toAsciiLowercase shown) phrase = false
  keys : ¬ Found keyAt shown.toList
  hosts : ¬ Found hostAt shown.toList
  codeWhisperer : Text.contains (Text.toAsciiLowercase shown) "codewhisperer" = false
  amazonQ : Text.contains (Text.toAsciiLowercase shown) "amazonq" = false
  controls : ∀ c ∈ shown.toList, isControl c = false
  bounded : shown.toList.length ≤ 1025

/-! ### The cut and the blanks -/

def more (cs : List Char) : List Char := if limit < cs.length then ['…'] else []

def bounded (cs : List Char) : List Char := (cs.take limit).map blank ++ more cs

theorem sanitizeErrorMessage_text (message : String) :
    (sanitizeErrorMessage message).toList = bounded (normalizeErrorMessage message).toList := String.toList_ofList

variable {c : Char} {a b pattern s x y : List Char} {lower message : String} {ps : List (Piece Char)}

section Bounded

variable {cs : List Char}

theorem blank_control (c : Char) : isControl (blank c) = false := by
  unfold blank
  split
  · decide
  case isFalse plain => simpa using plain

theorem blank_eq {d : Char} (same : blank c = d) (black : d ≠ ' ') : c = d := by
  unfold blank at same
  split at same
  · exact absurd same.symm black
  · exact same

theorem more_cases (cs : List Char) : more cs = [] ∨ more cs = ['…'] ∧ limit < cs.length := by
  unfold more
  split
  case isTrue long => exact .inr ⟨rfl, long⟩
  case isFalse => exact .inl rfl

theorem bounded_split {z : List Char} (filled : y ≠ []) (split : bounded cs = x ++ (y ++ z)) :
    (∃ a s b, cs = a ++ (s ++ b) ∧ s.map blank = y ∧ a.length = x.length ∧ a.length + s.length ≤ limit) ∨
      ∃ a s b, cs = a ++ (s ++ b) ∧ s.map blank ++ ['…'] = y ∧ a.length + s.length = limit ∧ b ≠ [] := by
  have within : ∀ rest, (cs.take limit).map blank = x ++ (y ++ rest) →
      ∃ a s b, cs = a ++ (s ++ b) ∧ s.map blank = y ∧ a.length = x.length ∧ a.length + s.length ≤ limit := by
    intro rest same
    obtain ⟨a, others, taken, first, second⟩ := List.map_eq_append_iff.1 same
    obtain ⟨s, b, rfl, spelled, -⟩ := List.map_eq_append_iff.1 second
    refine ⟨a, s, b ++ cs.drop limit, ?_, spelled, by rw [← first, List.length_map], ?_⟩
    · rw [← List.append_assoc s, ← List.append_assoc, ← taken, List.take_append_drop]
    · have size := congrArg List.length taken
      rw [List.length_take, List.length_append, List.length_append] at size
      omega
  unfold bounded at split
  rcases more_cases cs with none | ⟨some, long⟩
  · rw [none, List.append_nil] at split
    exact .inl (within z split)
  · rw [some] at split
    rcases List.eq_nil_or_concat z with rfl | ⟨z, last, rfl⟩
    · -- The stretch ends where the text does.
      rw [List.append_nil] at split
      obtain ⟨s, last, rfl⟩ := (List.eq_nil_or_concat y).resolve_left filled
      rw [List.concat_eq_append, ← List.append_assoc] at split
      obtain ⟨front, ellipsis⟩ := List.append_inj' split rfl
      obtain ⟨a, s, taken, first, second⟩ := List.map_eq_append_iff.1 front
      refine .inr ⟨a, s, cs.drop limit, ?_, ?_, ?_, ?_⟩
      · rw [← List.append_assoc, ← taken, List.take_append_drop]
      · rw [second, List.concat_eq_append, ellipsis]
      · rw [← List.length_append, ← taken, List.length_take, min_eq_left (Nat.le_of_lt long)]
      · rw [← List.length_pos_iff, List.length_drop]
        omega
    · rw [List.concat_eq_append, ← List.append_assoc y, ← List.append_assoc x] at split
      obtain ⟨front, -⟩ := List.append_inj' split rfl
      exact .inl (within z front)

theorem bounded_plain {z : List Char} (filled : y ≠ []) (black : ∀ c ∈ y, c ≠ ' ' ∧ c ≠ '…')
    (split : bounded cs = x ++ (y ++ z)) : ∃ a b, cs = a ++ (y ++ b) := by
  rcases bounded_split filled split with ⟨a, s, b, rfl, same, -⟩ | ⟨a, s, b, rfl, same, -⟩
  · have equal : s = y := by
      rw [← same]
      apply (List.map_id s).symm.trans
      apply List.map_congr_left
      intro c member
      have inside : blank c ∈ y := by
        rw [← same]
        exact List.mem_map_of_mem member
      exact blank_eq rfl (black _ inside).1
    exact ⟨a, b, by rw [equal]⟩
  · have ellipsis : '…' ∈ y := by
      rw [← same]
      exact List.mem_append_right _ (List.mem_singleton_self _)
    exact absurd rfl (black '…' ellipsis).2

theorem folded_mem (small : ∀ p ∈ pattern, p ∈ '.' :: '_' :: smallLetters)
    (all : List.Forall₂ (fun p c => folds p c = true) pattern s) :
    ∀ c ∈ s, c ∈ '.' :: '_' :: '\u212A' :: '\u017F' :: letters := by
  induction all with
  | nil => exact fun c member => nomatch member
  | cons here later ih =>
    intro c member
    rcases List.mem_cons.1 member with rfl | other
    · exact folds_plain (small _ List.mem_cons_self) here
    · exact ih (fun p inside => small p (List.mem_cons_of_mem _ inside)) c other

theorem folded_black (small : ∀ p ∈ pattern, p ∈ '.' :: '_' :: smallLetters)
    (all : List.Forall₂ (fun p c => folds p c = true) pattern s) : ∀ c ∈ s, c ≠ ' ' ∧ c ≠ '…' ∧ c ≠ '\x27' :=
  fun c member => (folded_plain c (folded_mem small all c member)).2

theorem region_plain (here : regionChar c = true) : c ≠ ' ' ∧ c ≠ '…' ∧ c ≠ '\x27' := by
  refine ⟨?_, ?_, ?_⟩
  · rintro rfl
    exact absurd here (by decide)
  · rintro rfl
    exact absurd here (by decide)
  · rintro rfl
    exact absurd here (by decide)

theorem keyPrefix_small : ∀ p ∈ keyPrefix, p ∈ '.' :: '_' :: smallLetters := by decide

theorem host_plain {site : List Char × List Char} (member : site ∈ sites) {region d : List Char}
    (service : List.Forall₂ (fun p c => folds p c = true) site.1 s) (all : ∀ c ∈ region, regionChar c = true)
    (domain : List.Forall₂ (fun p c => folds p c = true) site.2 d) :
    ∀ c ∈ s ++ (region ++ d), c ≠ ' ' ∧ c ≠ '…' ∧ c ≠ '\x27' := by
  intro c inside
  rcases List.mem_append.1 inside with first | later
  · exact folded_black (sites_small site member).1 service c first
  · rcases List.mem_append.1 later with middle | last
    · exact region_plain (all c middle)
    · exact folded_black (sites_small site member).2 domain c last

theorem bounded_host (found : Found hostAt (bounded cs)) : Found hostAt cs := by
  obtain ⟨x, y, split, some⟩ := found
  obtain ⟨site, member, s, region, d, rest, rfl, service, filled, all, domain⟩ := hostAt_iff.1 some
  have plain := host_plain member service all domain
  have some_ : s ++ (region ++ d) ≠ [] := by simp [filled]
  rw [← List.append_assoc region, ← List.append_assoc s] at split
  obtain ⟨a, b, rfl⟩ := bounded_plain some_ (fun c inside => ⟨(plain c inside).1, (plain c inside).2.1⟩) split
  refine ⟨a, _, rfl, hostAt_iff.2 ⟨site, member, s, region, d, b, ?_, service, filled, all, domain⟩⟩
  rw [List.append_assoc, List.append_assoc]

theorem keyChar_blank : keyChar ' ' = false := by decide

theorem bounded_key (found : Found keyAt (bounded cs)) : Found keyAt cs ∨ ∃ a s b, cs = a ++ (s ++ b) ∧
    List.Forall₂ (fun p c => folds p c = true) keyPrefix s ∧ a.length + s.length = limit ∧ b ≠ [] := by
  obtain ⟨x, y, split, some⟩ := found
  obtain ⟨s, c, rest, rfl, spelled, key⟩ := keyAt_iff.1 some
  have plain := folded_black keyPrefix_small spelled
  have same (t : List Char) (same : t.map blank = s) : t = s := by
    rw [← same]
    apply (List.map_id t).symm.trans
    apply List.map_congr_left
    intro d member
    have inside : blank d ∈ s := by
      rw [← same]
      exact List.mem_map_of_mem member
    exact blank_eq rfl (plain _ inside).1
  rw [show s ++ c :: rest = (s ++ [c]) ++ rest by rw [List.append_assoc]; rfl] at split
  rcases bounded_split (by simp) split with ⟨a, t, b, rfl, shown, -⟩ | ⟨a, t, b, rfl, shown, cut, more⟩
  · obtain ⟨front, back, rfl, first, last⟩ := List.map_eq_append_iff.1 shown
    obtain ⟨d, others, rfl, one, none⟩ := List.map_eq_cons_iff.1 last
    obtain rfl := List.map_eq_nil_iff.1 none
    have black : c ≠ ' ' := by
      rintro rfl
      rw [keyChar_blank] at key
      cases key
    obtain rfl := blank_eq one black
    obtain rfl := same front first
    refine .inl ⟨a, _, rfl, keyAt_iff.2 ⟨front, d, b, ?_, spelled, key⟩⟩
    rw [List.append_assoc]
    rfl
  · obtain ⟨first, -⟩ := List.append_inj' shown rfl
    obtain rfl := same t first
    exact .inr ⟨a, t, b, rfl, spelled, cut, more⟩

theorem infix_map {α β : Type} {f : α → β} {ys : List β} {xs : List α} (inside : ys <:+: xs.map f) :
    ∃ a s b, xs = a ++ (s ++ b) ∧ s.map f = ys := by
  obtain ⟨front, back, same⟩ := inside
  rw [List.append_assoc] at same
  obtain ⟨a, others, rfl, -, second⟩ := List.map_eq_append_iff.1 same.symm
  obtain ⟨s, b, rfl, spelled, -⟩ := List.map_eq_append_iff.1 second
  exact ⟨a, s, b, rfl, spelled⟩

theorem toLower_ellipsis : ('…' : Char).toLower = '…' := by decide

theorem bounded_phrase {phrase : List Char} (filled : phrase ≠ []) (plain : '…' ∉ phrase)
    (inside : phrase <:+: (bounded cs).map Char.toLower) :
    ∃ a s b, cs = a ++ (s ++ b) ∧ s.map shownChar = phrase ∧ a.length + s.length ≤ limit := by
  obtain ⟨x, y, z, split, spelled⟩ := infix_map inside
  have some : y ≠ [] := by
    rintro rfl
    exact filled spelled.symm
  rcases bounded_split some split with ⟨a, s, b, rfl, same, -, within⟩ | ⟨a, s, b, rfl, same, -⟩
  · refine ⟨a, s, b, rfl, ?_, within⟩
    rw [← spelled, ← same, List.map_map]
    rfl
  · rw [← spelled, ← same, List.map_append] at plain
    exact absurd (List.mem_append_right _ (by rw [List.map_singleton, toLower_ellipsis]; exact List.mem_singleton_self _))
      plain

theorem bounded_name {name : List Char} (isName : IsName name) (inside : name <:+: (bounded cs).map Char.toLower) :
    ∃ a s b, cs = a ++ (s ++ b) ∧ List.Forall₂ (fun p c => spells p c = true) name s := by
  obtain ⟨x, y, z, split, spelled⟩ := infix_map inside
  have some : y ≠ [] := by
    rintro rfl
    exact isName.filled spelled.symm
  have all : List.Forall₂ (fun p c => spells p c = true) name y := by
    rw [← spelled, List.forall₂_map_left_iff]
    exact List.forall₂_same.2 fun c _ => by simp [spells]
  have plain : ∀ c ∈ letters, c ≠ ' ' ∧ c ≠ '…' := by decide
  obtain ⟨a, b, rfl⟩ := bounded_plain some (fun c member => plain c (isName.letters all c member)) split
  exact ⟨a, y, b, rfl, all⟩

end Bounded

theorem contains_lower (s word : String) :
    Text.contains (Text.toAsciiLowercase s) word = decide (word.toList <:+: s.toList.map Char.toLower) := by
  rw [Text.contains, Text.toAsciiLowercase, String.toList_ofList]

theorem phrases_plain : ∀ phrase ∈ banTriggerPhrases, phrase.toList ≠ [] ∧ '…' ∉ phrase.toList := by decide

structure Fit (cs : List Char) : Prop where
  phrases : ∀ phrase ∈ banTriggerPhrases, ∀ a s b, cs = a ++ (s ++ b) → a.length + s.length ≤ limit →
    s.map shownChar ≠ phrase.toList
  keys : ¬ Found keyAt cs
  cut : ∀ a s b, cs = a ++ (s ++ b) → List.Forall₂ (fun p c => folds p c = true) keyPrefix s →
    a.length + s.length = limit → b = []
  hosts : ¬ Found hostAt cs
  names : ∀ name ∈ [codeWhisperer, amazonQ], ∀ a s b, cs = a ++ (s ++ b) →
    ¬ List.Forall₂ (fun p c => spells p c = true) name s

theorem Fit.clean (fit : Fit (normalizeErrorMessage message).toList) :
    Clean (sanitizeErrorMessage message) := by
  have shown := sanitizeErrorMessage_text message
  have none {name : List Char} (isName : IsName name) (member : name ∈ [codeWhisperer, amazonQ]) :
      ¬ name <:+: (sanitizeErrorMessage message).toList.map Char.toLower := by
    rw [shown]
    intro inside
    obtain ⟨a, s, b, split, all⟩ := bounded_name isName inside
    exact fit.names name member a s b split all
  constructor
  · intro phrase member
    rw [contains_lower, shown, decide_eq_false_iff_not]
    intro inside
    obtain ⟨filled, plain⟩ := phrases_plain phrase member
    obtain ⟨a, s, b, split, spelled, within⟩ := bounded_phrase filled plain inside
    exact fit.phrases phrase member a s b split within spelled
  · rw [shown]
    intro found
    rcases bounded_key found with before | ⟨a, s, b, split, spelled, cut, more⟩
    · exact fit.keys before
    · exact more (fit.cut a s b split spelled cut)
  · rw [shown]
    exact fun found => fit.hosts (bounded_host found)
  · rw [contains_lower, decide_eq_false_iff_not]
    exact none codeWhisperer_name List.mem_cons_self
  · rw [contains_lower, decide_eq_false_iff_not]
    exact none amazonQ_name (List.mem_cons_of_mem _ List.mem_cons_self)
  · rw [shown]
    intro c member
    rcases List.mem_append.1 member with kept | ellipsis
    · obtain ⟨d, -, rfl⟩ := List.mem_map.1 kept
      exact blank_control d
    · rcases more_cases (normalizeErrorMessage message).toList with none | ⟨some, -⟩
      · rw [none] at ellipsis
        cases ellipsis
      · rw [some] at ellipsis
        rw [List.mem_singleton.1 ellipsis]
        decide
  · rw [shown, bounded, List.length_append, List.length_map, List.length_take]
    have size : (more (normalizeErrorMessage message).toList).length ≤ 1 := by
      rcases more_cases (normalizeErrorMessage message).toList with none | ⟨some, -⟩
      · rw [none]
        exact Nat.zero_le 1
      · rw [some]
        exact Nat.le_refl 1
    have cut := Nat.min_le_left limit (normalizeErrorMessage message).toList.length
    unfold limit at cut ⊢
    omega

/-! ### What is sent on -/

def shownAs (letter c : Char) : Bool := shownChar c = letter

theorem phrases_apart : ∀ phrase ∈ banTriggerPhrases, Runs shownAs phrase.toList placedWords ∧
    ∀ word ∈ placedWords, ∀ u ∈ word.tails, u ≠ [] → clashes shownAs phrase.toList u = true ∨
      word = endpoint ∧ u = ['t'] ∧ phrase.toList.head? = some 't' := by
  decide

theorem shownAs_map {phrase : List Char} :
    List.Forall₂ (fun p c => shownAs p c = true) phrase s ↔ s.map shownChar = phrase := by
  constructor
  · intro all
    induction all with
    | nil => rfl
    | cons here later ih => rw [List.map_cons, of_decide_eq_true here, ih]
  · rintro rfl
    rw [List.forall₂_map_left_iff]
    exact List.forall₂_same.2 fun c _ => by simp [shownAs]

theorem exposed_of_phrase (shows : Shows placedWords ps) {phrase : String} (member : phrase ∈ banTriggerPhrases)
    (split : text ps = a ++ (s ++ b)) (spelled : s.map shownChar = phrase.toList)
    (within : a.length + s.length ≤ limit) : Exposed ps := by
  obtain ⟨runs, starts⟩ := phrases_apart phrase member
  have here : begins shownAs phrase.toList (s ++ b) = true := begins_iff.2 ⟨s, b, rfl, shownAs_map.2 spelled⟩
  have size : s.length = phrase.toList.length := by rw [← spelled, List.length_map]
  rcases text_split split with ⟨front, back, rfl, rfl, same⟩ |
    ⟨front, word, found, back, c, u, rfl, inside, -, filled, rfl, same⟩
  · rw [← same, begins_text runs shows.of_append_right] at here
    obtain ⟨cs, rest, rfl, all⟩ := begins_keeps.1 here
    refine .blanks phrase member front cs rest rfl (shownAs_map.1 all) ?_
    rw [← all.length_eq, ← size]
    exact within
  · rw [same] at here
    have shown := shows word found (List.mem_append_right front List.mem_cons_self)
    rcases starts word shown u ((List.mem_tails _ _).2 ⟨c, inside.symm⟩) filled with clash | ⟨rfl, rfl, first⟩
    · rw [begins_clash clash] at here
      cases here
    · obtain ⟨rest, letters_⟩ := List.head?_eq_some_iff.1 first
      rw [letters_] at here runs size
      have later : begins shownAs rest (text back) = true := (Bool.and_eq_true_iff.1 here).2
      rw [begins_text runs.tail shows.of_append_right.tail] at later
      obtain ⟨cs, last, rfl, all⟩ := begins_keeps.1 later
      refine .name phrase member front found cs last rfl ?_ ?_
      · rw [letters_, shownAs_map.1 all]
      · have whole := congrArg List.length inside
        have count := all.length_eq
        rw [List.length_append, List.length_singleton] at whole
        rw [List.length_append] at within
        rw [List.length_cons] at size
        omega

theorem text_filled (shows : Shows placedWords ps) (some : ps ≠ []) : text ps ≠ [] := by
  obtain ⟨piece, rest, rfl⟩ := List.exists_cons_of_ne_nil some
  have filled : ∀ word ∈ placedWords, word ≠ [] := by decide
  cases piece with
  | kept c => exact List.cons_ne_nil _ _
  | placed word found =>
    intro empty
    exact filled word (shows word found List.mem_cons_self) (List.append_eq_nil_iff.1 empty).1

theorem exposed_of_key (read : Read ps) (split : text ps = a ++ (s ++ b))
    (spelled : List.Forall₂ (fun p c => folds p c = true) keyPrefix s) (cut : a.length + s.length = limit)
    (more : b ≠ []) : Exposed ps := by
  obtain ⟨front, back, rfl, rfl, same, here⟩ :=
    occurs (by decide) (keyPrefix_silent read) read.shows split (begins_iff.2 ⟨s, b, rfl, spelled⟩)
  obtain ⟨cs, rest, rfl, all⟩ := begins_keeps.1 here
  rw [text_append, text_kept] at same
  obtain ⟨rfl, follows⟩ := List.append_inj same (by rw [← all.length_eq, spelled.length_eq])
  refine .key front cs rest rfl all cut ?_
  rintro rfl
  exact more follows.symm

theorem readPieces_fit {cs : List Char} (keyless : ¬ Found keyAt cs) (unexposed : ¬ Exposed (readPieces cs)) :
    Fit (text (readPieces cs)) := by
  have read := readPieces_read cs
  refine ⟨?_, ?_, ?_, read.no_host, ?_⟩
  · intro phrase member a s b split within spelled
    exact unexposed (exposed_of_phrase read.shows member split spelled within)
  · apply read.no_key
    rw [readPieces_source]
    exact keyless
  · intro a s b split spelled cut
    by_contra more
    exact unexposed (exposed_of_key read split spelled cut more)
  · intro name member a s b split all
    have here : begins spells name (s ++ b) = true := begins_iff.2 ⟨s, b, rfl, all⟩
    rcases List.mem_cons.1 member with rfl | other
    · rw [readPieces_no_codeWhisperer split] at here
      cases here
    · rw [List.mem_singleton.1 other, readPieces_no_amazonQ split] at here
      cases here

theorem Exposed.unclean (exposed : Exposed ps) (shows : Shows placedWords ps)
    (same : (normalizeErrorMessage message).toList = text ps) :
    ¬ Clean (sanitizeErrorMessage message) := by
  intro clean
  have shown := sanitizeErrorMessage_text message
  have within {a s b : List Char} (split : text ps = a ++ (s ++ b)) (inside : a.length + s.length ≤ limit) :
      s.map shownChar <:+: (sanitizeErrorMessage message).toList.map Char.toLower := by
    have taken : (text ps).take limit = a ++ (s ++ b.take (limit - (a.length + s.length))) := by
      rw [split, ← List.append_assoc, List.take_append, List.take_of_length_le (by rw [List.length_append]; exact inside),
        List.length_append, List.append_assoc]
    refine ⟨a.map shownChar, (b.take (limit - (a.length + s.length))).map shownChar ++ (more (text ps)).map Char.toLower, ?_⟩
    rw [shown, same, bounded, taken, List.map_append, List.map_map, List.map_append, List.map_append]
    simp only [List.append_assoc]
    rfl
  cases exposed with
  | blanks phrase member front cs back here spelled inside =>
    have split : text ps = text front ++ (cs ++ text back) := by rw [here, text_append, text_append, text_kept]
    have found := within split inside
    rw [spelled] at found
    have none := clean.phrases phrase member
    rw [contains_lower, decide_eq_false_iff_not] at none
    exact none found
  | name phrase member front found cs back here spelled inside =>
    have split : text ps = (text front ++ "endpoin".toList) ++ (('t' :: cs) ++ text back) := by
      rw [here, text_append, show text (.placed endpoint found :: (cs.map .kept ++ back)) =
        endpoint ++ text (cs.map .kept ++ back) from rfl, text_append, text_kept, List.append_assoc]
      rfl
    have found := within split (by
      rw [List.length_append, List.length_cons]
      have size : endpoint.length = "endpoin".toList.length + 1 := rfl
      omega)
    rw [List.map_cons, show shownChar 't' = 't' by decide, spelled] at found
    have none := clean.phrases phrase member
    rw [contains_lower, decide_eq_false_iff_not] at none
    exact none found
  | key front cs back here spelled cut filled =>
    have split : text ps = (text front ++ cs) ++ text back := by
      rw [here, text_append, text_append, text_kept, List.append_assoc]
    have size : (text front ++ cs).length = limit := by rw [List.length_append, cut]
    have long : limit < (text ps).length := by
      have some := List.length_pos_iff.2 (text_filled (by rw [here] at shows; exact shows.of_append_right.of_append_right) filled)
      rw [split, List.length_append, size]
      omega
    have last : bounded (text ps) = (text front).map blank ++ (cs.map blank ++ ['…']) := by
      rw [bounded, more, if_pos long, split, List.take_left' size, List.map_append, List.append_assoc]
    have kept : cs.map blank = cs := by
      apply (List.map_congr_left _).trans (List.map_id cs)
      intro c member
      have plain : ∀ c ∈ '.' :: '_' :: '\u212A' :: '\u017F' :: letters, blank c = c := by decide
      exact plain c (folded_mem keyPrefix_small spelled c member)
    apply clean.keys
    rw [shown, same, last, kept]
    exact ⟨_, _, rfl, keyAt_iff.2 ⟨cs, '…', [], rfl, spelled, by decide⟩⟩

/-! ### What is said instead -/

theorem folds_other {p : Char} (other : p ∉ smallLetters) (here : folds p c = true) : c = p := by
  simp only [folds, Bool.or_eq_true, Bool.and_eq_true, decide_eq_true_eq] at here
  rcases here with (same | ⟨rfl, -⟩) | ⟨rfl, -⟩
  · exact eq_of_toLower other same
  · exact absurd (by decide) other
  · exact absurd (by decide) other

theorem other_mem (all : List.Forall₂ (fun p c => folds p c = true) pattern s) {p : Char} (other : p ∉ smallLetters)
    (member : p ∈ pattern) : p ∈ s := by
  induction all with
  | nil => cases member
  | cons here later ih =>
    rcases List.mem_cons.1 member with rfl | inside
    · rw [folds_other other here]
      exact List.mem_cons_self
    · exact List.mem_cons_of_mem _ (ih inside)

theorem spells_map {name : List Char} (all : List.Forall₂ (fun p c => spells p c = true) name s) :
    s.map Char.toLower = name := by
  induction all with
  | nil => rfl
  | cons here later ih => rw [List.map_cons, of_decide_eq_true here, ih]

theorem Fit.of_lacking {cs : List Char} (short : cs.length ≤ limit) (dotless : '.' ∉ cs) (scoreless : '_' ∉ cs)
    (phrases : ∀ phrase ∈ banTriggerPhrases, ¬ phrase.toList <:+: cs.map shownChar)
    (names : ∀ name ∈ [codeWhisperer, amazonQ], ¬ name <:+: cs.map Char.toLower) : Fit cs := by
  refine ⟨?_, ?_, ?_, ?_, ?_⟩
  · rintro phrase member a s b rfl - spelled
    refine phrases phrase member ⟨a.map shownChar, b.map shownChar, ?_⟩
    rw [← spelled, List.map_append, List.map_append, List.append_assoc]
  · rintro ⟨x, y, rfl, some⟩
    obtain ⟨s, c, rest, rfl, all, -⟩ := keyAt_iff.1 some
    exact scoreless (List.mem_append_right x (List.mem_append_left _ (other_mem all (by decide) (by decide))))
  · rintro a s b rfl all cut
    rw [List.length_append, List.length_append] at short
    exact List.length_eq_zero_iff.1 (by omega)
  · rintro ⟨x, y, rfl, some⟩
    obtain ⟨site, member, s, region, d, rest, rfl, -, -, -, domain⟩ := hostAt_iff.1 some
    have dot : '.' ∈ d := other_mem domain (by decide) (List.mem_of_head? (sites_dot site member))
    exact dotless (by simp [dot])
  · rintro name member a s b rfl all
    refine names name member ⟨a.map Char.toLower, b.map Char.toLower, ?_⟩
    rw [← spells_map all, List.map_append, List.map_append, List.append_assoc]

def digits : List Char := "0123456789".toList

theorem toString_digits (n : Nat) : ∀ c ∈ (toString n).toList, c ∈ digits := by
  intro c member
  rw [Nat.toString_eq_ofList_toDigits, String.toList_ofList] at member
  have digit := Nat.isDigit_of_mem_toDigits (by decide) (by decide) member
  have range : ∀ n, 48 ≤ n → n ≤ 57 → Char.ofNat n ∈ digits := by decide
  have bounds := Text.isDigit_bounds digit
  rw [← Char.ofNat_toNat c]
  exact range c.toNat bounds.1 bounds.2

theorem toString_length {n : Nat} (small : n < 2 ^ 64) : (toString n).toList.length ≤ 20 := by
  rw [Nat.toString_eq_ofList_toDigits, String.toList_ofList, Nat.length_toDigits_le_iff (by decide) (by decide)]
  omega

/-- The characters around a model in what is said of a prompt that does not fit. -/
def contextChars : List Char := "prompt is too long: tokens >".toList

theorem Fit.of_context {cs : List Char} (short : cs.length ≤ limit) (all : ∀ c ∈ cs, c ∈ digits ++ contextChars) :
    Fit cs := by
  have plain : ∀ c ∈ digits ++ contextChars, c ≠ '.' ∧ c ≠ '_' ∧ shownChar c ≠ 'a' ∧ c.toLower ≠ 'w' ∧ c.toLower ≠ 'a' := by
    decide
  apply Fit.of_lacking short
  · exact fun member => (plain _ (all _ member)).1 rfl
  · exact fun member => (plain _ (all _ member)).2.1 rfl
  · intro phrase member inside
    have known : ∀ phrase ∈ banTriggerPhrases, 'a' ∈ phrase.toList := by decide
    obtain ⟨c, there, same⟩ := List.mem_map.1 (inside.subset (known phrase member))
    exact (plain c (all c there)).2.2.1 same
  · intro name member inside
    have known : ∀ name ∈ [codeWhisperer, amazonQ], 'w' ∈ name ∨ 'a' ∈ name := by decide
    rcases known name member with found | found
    · obtain ⟨c, there, same⟩ := List.mem_map.1 (inside.subset found)
      exact (plain c (all c there)).2.2.2.1 same
    · obtain ⟨c, there, same⟩ := List.mem_map.1 (inside.subset found)
      exact (plain c (all c there)).2.2.2.2 same

theorem split_at (absent : c ∉ s) (split : x ++ c :: y = a ++ (s ++ b)) :
    (∃ z, x = a ++ (s ++ z)) ∨ ∃ z, a = x ++ c :: z ∧ y = z ++ (s ++ b) := by
  rcases List.append_eq_append_iff.1 split with ⟨z, rfl, later⟩ | ⟨z, rfl, later⟩
  · cases z with
    | nil =>
      cases s with
      | nil => exact .inl ⟨[], by simp⟩
      | cons d s =>
        obtain ⟨rfl, -⟩ := List.cons.inj later
        exact absurd List.mem_cons_self absent
    | cons d z =>
      obtain ⟨rfl, follows⟩ := List.cons.inj later
      exact .inr ⟨z, rfl, follows⟩
  · rcases List.append_eq_append_iff.1 later with ⟨w, rfl, -⟩ | ⟨w, rfl, last⟩
    · exact .inl ⟨w, rfl⟩
    · cases w with
      | nil => exact .inl ⟨[], by simp⟩
      | cons d w =>
        obtain ⟨rfl, -⟩ := List.cons.inj last
        exact absurd (List.mem_append_right z List.mem_cons_self) absent

theorem Fit.quoted (first : Fit x) (second : Fit y) (short : (x ++ '\x27' :: y).length ≤ limit) :
    Fit (x ++ '\x27' :: y) := by
  refine ⟨?_, ?_, ?_, ?_, ?_⟩
  · intro phrase member a s b split within spelled
    have absent : '\x27' ∉ s := by
      intro inside
      have plain : ∀ phrase ∈ banTriggerPhrases, shownChar '\x27' ∉ phrase.toList := by decide
      exact plain phrase member (by rw [← spelled]; exact List.mem_map_of_mem inside)
    rcases split_at absent split with ⟨z, rfl⟩ | ⟨z, rfl, rfl⟩
    · exact first.phrases phrase member a s z rfl within spelled
    · rw [List.length_append, List.length_cons] at within
      exact second.phrases phrase member z s b rfl (by omega) spelled
  · rintro ⟨a, rest, split, some⟩
    obtain ⟨s, c, b, rfl, spelled, key⟩ := keyAt_iff.1 some
    have absent : '\x27' ∉ s ++ [c] := by
      intro inside
      rcases List.mem_append.1 inside with before | last
      · exact (folded_black keyPrefix_small spelled _ before).2.2 rfl
      · rw [← List.mem_singleton.1 last] at key
        exact absurd key (by decide)
    rw [show s ++ c :: b = (s ++ [c]) ++ b by rw [List.append_assoc]; rfl] at split
    rcases split_at absent split with ⟨z, rfl⟩ | ⟨z, rfl, rfl⟩
    · refine first.keys ⟨a, _, rfl, keyAt_iff.2 ⟨s, c, z, ?_, spelled, key⟩⟩
      rw [List.append_assoc]
      rfl
    · refine second.keys ⟨z, _, rfl, keyAt_iff.2 ⟨s, c, b, ?_, spelled, key⟩⟩
      rw [List.append_assoc]
      rfl
  · intro a s b split spelled cut
    rw [split, List.length_append, List.length_append] at short
    exact List.length_eq_zero_iff.1 (by omega)
  · rintro ⟨a, rest, split, some⟩
    obtain ⟨site, member, s, region, d, b, rfl, service, filled, all, domain⟩ := hostAt_iff.1 some
    have absent : '\x27' ∉ s ++ (region ++ d) := fun inside => (host_plain member service all domain _ inside).2.2 rfl
    have whole (z : List Char) : (s ++ (region ++ d)) ++ z = s ++ (region ++ (d ++ z)) := by
      rw [List.append_assoc, List.append_assoc]
    rw [← whole] at split
    rcases split_at absent split with ⟨z, rfl⟩ | ⟨z, rfl, rfl⟩
    · exact first.hosts ⟨a, _, rfl, hostAt_iff.2 ⟨site, member, s, region, d, z, whole z, service, filled, all, domain⟩⟩
    · exact second.hosts ⟨z, _, rfl, hostAt_iff.2 ⟨site, member, s, region, d, b, whole b, service, filled, all, domain⟩⟩
  · intro name member a s b split all
    have absent : '\x27' ∉ s := by
      intro inside
      have plain : ∀ name ∈ [codeWhisperer, amazonQ], ('\x27' : Char).toLower ∉ name := by decide
      exact plain name member (by rw [← spells_map all]; exact List.mem_map_of_mem inside)
    rcases split_at absent split with ⟨z, rfl⟩ | ⟨z, rfl, rfl⟩
    · exact first.names name member a s z rfl all
    · exact second.names name member z s b rfl all

theorem length_le_utf8Len (cs : List Char) : cs.length ≤ String.utf8Len cs := by
  induction cs with
  | nil => exact Nat.zero_le _
  | cons c rest ih =>
    have some := c.utf8Size_pos
    rw [List.length_cons, String.utf8Len_cons]
    omega

theorem modelChar_mem (here : modelChar c = true) : c ∈ '.' :: '_' :: '-' :: (digits ++ letters) := by
  simp only [modelChar, Bool.or_eq_true, decide_eq_true_eq] at here
  rcases here with ((alnum | rfl) | rfl) | rfl
  · have bounds := Text.isAlphanum_bounds alnum
    have range : ∀ n ≤ 122, (65 ≤ n ∧ n ≤ 90 ∨ 97 ≤ n ∧ n ≤ 122) ∨ 48 ≤ n ∧ n ≤ 57 →
        Char.ofNat n ∈ '.' :: '_' :: '-' :: (digits ++ letters) := by decide
    rw [← Char.ofNat_toNat c]
    exact range c.toNat (by omega) bounds
  · decide
  · decide
  · decide

theorem contextModelName_part {model : String} (found : contextModelName message lower = some model) :
    (∃ a b, message.toList = a ++ (model.toList ++ b)) ∧ model.toList.length ≤ 128 ∧
      ∀ c ∈ model.toList, modelChar c = true := by
  unfold contextModelName at found
  generalize ["prompt is too long for resolved model \x27", "prompt is too long for model \x27"] = markers at found
  induction markers with
  | nil => cases found
  | cons marker markers ih =>
    rw [contextModelNameAfter] at found
    split at found
    · exact ih found
    case h_2 front back _ =>
      split at found
      · cases found
      case h_2 name behind cut =>
        split at found
        case isFalse => exact ih found
        case isTrue valid =>
          cases found
          simp only [Bool.and_eq_true, decide_eq_true_eq, List.all_eq_true] at valid
          rw [String.toList_ofList]
          refine ⟨⟨message.toList.take (front.length + marker.length), '\x27' :: behind, ?_⟩, ?_, valid.2⟩
          · rw [show name ++ '\x27' :: behind = _ from (Text.splitOnceChars_eq cut).symm, List.take_append_drop]
          · have bytes := valid.1.2
            rw [String.utf8ByteSize_ofList] at bytes
            exact (length_le_utf8Len name).trans bytes

theorem contextModelName_fit {model : String} (keyless : ¬ Found keyAt message.toList)
    (found : contextModelName message lower = some model) (fixed : redactEndpointNames model = model) :
    Fit model.toList := by
  obtain ⟨⟨a, b, whole⟩, short, all⟩ := contextModelName_part found
  have same : text (readPieces model.toList) = model.toList := by rw [← redactEndpointNames_text, fixed]
  have read := readPieces_read model.toList
  refine ⟨?_, ?_, ?_, ?_, ?_⟩
  · intro phrase member x s y split within spelled
    have spaced : ∀ phrase ∈ banTriggerPhrases, ' ' ∈ phrase.toList := by decide
    have plain : ∀ c ∈ '.' :: '_' :: '-' :: (digits ++ letters), shownChar c ≠ ' ' := by decide
    obtain ⟨c, inside, blank⟩ := List.mem_map.1 (spelled ▸ spaced phrase member)
    have there : c ∈ model.toList := by
      rw [split]
      exact List.mem_append_right _ (List.mem_append_left _ inside)
    exact plain c (modelChar_mem (all c there)) blank
  · rintro ⟨x, rest, split, some⟩
    obtain ⟨s, c, y, rfl, spelled, key⟩ := keyAt_iff.1 some
    refine keyless ⟨a ++ x, s ++ c :: (y ++ b), ?_, keyAt_iff.2 ⟨s, c, y ++ b, rfl, spelled, key⟩⟩
    rw [whole, split]
    simp
  · intro x s y split spelled cut
    rw [split, List.length_append, List.length_append] at short
    unfold limit at cut
    omega
  · rw [← same]
    exact read.no_host
  · intro name member x s y split spelled
    have here : begins spells name (s ++ y) = true := begins_iff.2 ⟨s, y, rfl, spelled⟩
    rw [← same] at split
    rcases List.mem_cons.1 member with rfl | other
    · rw [readPieces_no_codeWhisperer split] at here
      cases here
    · rw [List.mem_singleton.1 other, readPieces_no_amazonQ split] at here
      cases here

theorem parseU64_small {cs : List Char} {n : Nat} (parsed : parseU64 cs = some n) : n < 2 ^ 64 := by
  unfold parseU64 at parsed
  dsimp only at parsed
  split at parsed
  case isTrue small =>
    rw [← Option.some.inj parsed]
    exact small
  case isFalse => cases parsed

theorem contextTokenCounts_small {actual maximum : Nat}
    (found : contextTokenCounts message lower = some (actual, maximum)) : actual < 2 ^ 64 ∧ maximum < 2 ^ 64 := by
  unfold contextTokenCounts at found
  split at found
  · cases found
  · dsimp only at found
    split at found
    case h_1 last before rest numbers =>
      cases found
      have all (n : Nat) (member : n ∈ maximum :: actual :: rest) : n < 2 ^ 64 := by
        rw [← numbers, List.mem_reverse, List.mem_filterMap] at member
        obtain ⟨part, -, parsed⟩ := member
        exact parseU64_small parsed
      exact ⟨all actual (List.mem_cons_of_mem _ List.mem_cons_self), all maximum List.mem_cons_self⟩
    case h_2 => cases found

theorem contextMessage_fit (keyless : ¬ Found keyAt message.toList) :
    Fit (contextMessage message lower).toList := by
  have counted (n : Nat) : ∀ c ∈ (toString n).toList, c ∈ digits ++ contextChars :=
    fun c member => List.mem_append_left _ (toString_digits n c member)
  have said (word : String) (known : ∀ c ∈ word.toList, c ∈ contextChars) : ∀ c ∈ word.toList, c ∈ digits ++ contextChars :=
    fun c member => List.mem_append_right _ (known c member)
  unfold contextMessage
  split
  case h_1 actual maximum counts =>
    obtain ⟨actual_small, maximum_small⟩ := contextTokenCounts_small counts
    have first := toString_length actual_small
    have second := toString_length maximum_small
    have numbered (word : String) (known : ∀ c ∈ word.toList, c ∈ contextChars) (few : word.toList.length ≤ 20) :
        Fit (word.toList ++ ((toString actual).toList ++ (" tokens > ".toList ++ (toString maximum).toList))) := by
      apply Fit.of_context
      · have tokens : " tokens > ".toList.length = 10 := rfl
        rw [List.length_append, List.length_append, List.length_append]
        unfold limit
        omega
      · intro c member
        rcases List.mem_append.1 member with before | member
        · exact said word known c before
        · rcases List.mem_append.1 member with number | member
          · exact counted actual c number
          · rcases List.mem_append.1 member with between | number
            · exact said " tokens > " (by decide) c between
            · exact counted maximum c number
    split
    case h_1 model found =>
      obtain ⟨named, fixed⟩ := Option.filter_eq_some_iff.1 found
      obtain ⟨-, short, -⟩ := contextModelName_part named
      have front : Fit "prompt is too long for model ".toList := by
        apply Fit.of_lacking
        · decide
        · decide
        · decide
        · decide
        · decide
      have back : Fit (": ".toList ++ ((toString actual).toList ++ (" tokens > ".toList ++ (toString maximum).toList))) :=
        numbered ": " (by decide) (by decide)
      have whole : ("prompt is too long for model \x27" ++ model ++ "\x27: " ++ toString actual ++ " tokens > " ++
          toString maximum).toList = "prompt is too long for model ".toList ++ '\x27' :: (model.toList ++ '\x27' ::
            (": ".toList ++ ((toString actual).toList ++ (" tokens > ".toList ++ (toString maximum).toList)))) := by
        have opens : "prompt is too long for model \x27".toList = "prompt is too long for model ".toList ++ ['\x27'] := by
          decide
        have closes : "\x27: ".toList = ['\x27'] ++ ": ".toList := by decide
        simp only [String.toList_append, opens, closes, List.append_assoc, List.cons_append, List.nil_append]
      have size : ("prompt is too long for model ".toList ++ '\x27' :: (model.toList ++ '\x27' ::
          (": ".toList ++ ((toString actual).toList ++ (" tokens > ".toList ++ (toString maximum).toList))))).length
            ≤ limit := by
        have around : "prompt is too long for model ".toList.length = 29 ∧ ": ".toList.length = 2 ∧
          " tokens > ".toList.length = 10 := ⟨rfl, rfl, rfl⟩
        rw [List.length_append, List.length_cons, List.length_append, List.length_cons, List.length_append,
          List.length_append, List.length_append]
        unfold limit
        omega
      rw [whole]
      apply front.quoted _ size
      apply (contextModelName_fit keyless named (of_decide_eq_true fixed)).quoted back
      rw [List.length_append, List.length_cons] at size
      omega
    case h_2 =>
      have whole : ("prompt is too long: " ++ toString actual ++ " tokens > " ++ toString maximum).toList =
          "prompt is too long: ".toList ++ ((toString actual).toList ++ (" tokens > ".toList ++
            (toString maximum).toList)) := by
        simp only [String.toList_append, List.append_assoc]
      rw [whole]
      exact numbered "prompt is too long: " (by decide) (by decide)
  case h_2 =>
    apply Fit.of_lacking
    · decide
    · decide
    · decide
    · decide
    · decide

/-! ### Every message -/

theorem normalize_reflected {part : String} (sent : reflected message = some part) :
    normalizeErrorMessage message = redactEndpointNames part ∧ ¬ Found keyAt part.toList := by
  have keyless := redactKiroKeys_none message
  unfold reflected at sent
  unfold normalizeErrorMessage
  dsimp only at sent ⊢
  generalize redactKiroKeys message = text at keyless sent
  split at sent
  · cases sent
  case isFalse plain =>
    rw [Bool.or_eq_true, not_or] at plain
    rw [if_neg plain.1, if_neg plain.2]
    split at sent
    case isTrue quota =>
      rw [if_pos quota]
      split at sent
      case isTrue throttled =>
        rw [if_pos throttled, ← Option.some.inj sent]
        refine ⟨rfl, ?_⟩
        rw [String.toList_append]
        cases cut : Text.splitOnce text "ThrottlingException" with
        | none =>
          rintro ⟨x, y, split, some⟩
          obtain ⟨s, c, rest, rfl, spelled, -⟩ := keyAt_iff.1 some
          have score : '_' ∈ s := other_mem spelled (by decide) (by decide)
          have absent : '_' ∉ "ThrottlingException".toList ++ "".toList := by decide
          apply absent
          rw [show "ThrottlingException".toList ++ "".toList = x ++ (s ++ c :: rest) from split]
          simp [score]
        | some parts =>
          obtain ⟨⟨front, back⟩, halves, same⟩ := Option.map_eq_some_iff.1 cut
          have whole := Text.splitOnceChars_eq halves
          rw [← same]
          intro found
          apply keyless
          rw [whole]
          simp only [Option.map_some, Option.getD_some, String.toList_ofList] at found
          exact found.of_suffix
      case isFalse calm =>
        rw [if_neg calm, ← Option.some.inj sent]
        exact ⟨rfl, keyless⟩
    case isFalse other =>
      rw [if_neg other]
      split at sent
      · cases sent
      case isFalse rest =>
        rw [Bool.or_eq_true, not_or, Bool.or_eq_true, not_or] at rest
        rw [if_neg rest.1.1, if_neg rest.1.2, if_neg rest.2, ← Option.some.inj sent]
        exact ⟨rfl, keyless⟩

theorem normalize_fixed (unsent : reflected message = none) :
    Fit (normalizeErrorMessage message).toList := by
  have keyless := redactKiroKeys_none message
  have constant : ∀ said ∈ ["service unavailable", "Service temporarily unavailable, please retry",
      "Upstream service error, please retry later"], Fit said.toList := by
    intro said member
    have known : ∀ said ∈ ["service unavailable", "Service temporarily unavailable, please retry",
        "Upstream service error, please retry later"], said.toList.length ≤ limit ∧ '.' ∉ said.toList ∧
        '_' ∉ said.toList ∧ (∀ phrase ∈ banTriggerPhrases, ¬ phrase.toList <:+: said.toList.map shownChar) ∧
        ∀ name ∈ [codeWhisperer, amazonQ], ¬ name <:+: said.toList.map Char.toLower := by decide
    obtain ⟨short, dotless, scoreless, phrases, names⟩ := known said member
    exact Fit.of_lacking short dotless scoreless phrases names
  unfold reflected at unsent
  unfold normalizeErrorMessage
  dsimp only at unsent ⊢
  generalize redactKiroKeys message = text at keyless unsent
  split
  · exact constant _ (by simp)
  case isFalse unbanned =>
    split
    · exact contextMessage_fit keyless
    case isFalse fits =>
      rw [if_neg (by rw [Bool.or_eq_true, not_or]; exact ⟨unbanned, fits⟩)] at unsent
      split
      case isTrue quota =>
        rw [if_pos quota] at unsent
        split at unsent
        · cases unsent
        · cases unsent
      case isFalse other =>
        rw [if_neg other] at unsent
        split
        · exact constant _ (by simp)
        case isFalse open_ =>
          split
          · exact constant _ (by simp)
          case isFalse answered =>
            split
            · exact constant _ (by simp)
            case isFalse connected =>
              rw [if_neg (by simp [open_, answered, connected])] at unsent
              cases unsent

/-- A message reaches the client clean unless a part of it is sent on that is exposed. -/
theorem sanitize_clean (message : String) : Clean (sanitizeErrorMessage message) ↔
    ∀ part, reflected message = some part → ¬ Exposed (readPieces part.toList) := by
  cases sent : reflected message with
  | none =>
    constructor
    · intro _ part same
      cases same
    · exact fun _ => (normalize_fixed sent).clean
  | some part =>
    obtain ⟨same, keyless⟩ := normalize_reflected sent
    have shown : (normalizeErrorMessage message).toList = text (readPieces part.toList) := by
      rw [same, redactEndpointNames_text]
    constructor
    · intro clean other given exposed
      cases given
      exact exposed.unclean (readPieces_read _).shows shown clean
    · intro unexposed
      apply Fit.clean
      rw [shown]
      exact readPieces_fit keyless (unexposed part rfl)

/-- A line break in a phrase is shown as its blank. -/
theorem sanitize_unclean : ¬ ∀ message : String, Clean (sanitizeErrorMessage message) := by
  intro all
  have found : Text.contains (Text.toAsciiLowercase (sanitizeErrorMessage "account\ndisabled")) "account disabled" = true := by
    decide
  have none := (all "account\ndisabled").phrases "account disabled" (by decide)
  rw [found] at none
  cases none

end KiroProxy.ErrorText

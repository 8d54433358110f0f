import KiroProxy.Translate.Error

/-! The part of an upstream error that is sent on, as pieces: the characters that are kept, and the endpoints and names
for which a word is shown. -/
namespace KiroProxy.ErrorText

open Scan

def upstream : List Char := "upstream".toList

def endpoint : List Char := "endpoint".toList

def codeWhisperer : List Char := "codewhisperer".toList

def amazonQ : List Char := "amazonq".toList

def placedWords : List (List Char) := [upstream, endpoint]

def replaceName (name : List Char) (ps : List (Piece Char)) : List (Piece Char) :=
  replacePieces (wordAt (keeps spells) name) endpoint ps

def readPieces (cs : List Char) : List (Piece Char) :=
  replaceName amazonQ (replaceName codeWhisperer (pieces hostAt upstream cs))

/-! ### Characters -/

def letters : List Char := "ABCDEFGHIJKLMNOPQRSTUVWXYZabcdefghijklmnopqrstuvwxyz".toList

def smallLetters : List Char := "abcdefghijklmnopqrstuvwxyz".toList

theorem toLower_cases (c : Char) : c.toLower = c ∨ c ∈ letters ∧ c.toLower ∈ smallLetters := by
  by_cases upper : 'A'.val ≤ c.val ∧ c.val ≤ 'Z'.val
  · have range : ∀ n, 65 ≤ n → n ≤ 90 → Char.ofNat n ∈ letters ∧ (Char.ofNat n).toLower ∈ smallLetters := by decide
    have bounds : 65 ≤ c.toNat ∧ c.toNat ≤ 90 := upper
    have here := range c.toNat bounds.1 bounds.2
    rw [Char.ofNat_toNat] at here
    exact .inr here
  · exact .inl (dif_neg upper)

variable {c p : Char} {site : List Char × List Char} {cs : List Char}

theorem letter_of_toLower (small : c.toLower ∈ smallLetters) : c ∈ letters := by
  rcases toLower_cases c with same | ⟨letter, -⟩
  · rw [same] at small
    exact List.mem_append_right "ABCDEFGHIJKLMNOPQRSTUVWXYZ".toList small
  · exact letter

theorem eq_of_toLower (other : p ∉ smallLetters) (here : c.toLower = p) : c = p := by
  rcases toLower_cases c with same | ⟨-, small⟩
  · rw [← same, here]
  · rw [here] at small
    exact absurd small other

theorem letters_plain : ∀ c ∈ letters, regionChar c = true ∧ keyChar c = true ∧ Text.isWhitespace c = false := by
  decide

theorem spells_letter (small : p ∈ smallLetters) (here : spells p c = true) : c ∈ letters := by
  apply letter_of_toLower
  rw [of_decide_eq_true here]
  exact small

/-! ### Hosts -/

theorem sites_dot : ∀ site ∈ sites, site.2.head? = some '.' := by decide

theorem folds_dot (here : folds '.' c = true) : regionChar c = false := by
  have dot : c = '.' := eq_of_toLower (by decide) (by simpa [folds] using here)
  rw [dot]
  decide

theorem siteAt_iff (member : site ∈ sites) : siteAt site cs ≠ 0 ↔
    ∃ s region d rest, cs = s ++ (region ++ (d ++ rest)) ∧ List.Forall₂ (fun p c => folds p c = true) site.1 s ∧
      region ≠ [] ∧ (∀ c ∈ region, regionChar c = true) ∧ List.Forall₂ (fun p c => folds p c = true) site.2 d := by
  constructor
  · intro found
    unfold siteAt at found
    dsimp only at found
    split at found
    case isFalse => exact absurd rfl found
    case isTrue here =>
      obtain ⟨service, some, domain⟩ := here
      obtain ⟨s, later, rfl, first⟩ := begins_iff.1 service
      rw [first.length_eq, List.drop_left] at some domain
      obtain ⟨d, rest, behind, last⟩ := begins_iff.1 domain
      refine ⟨s, later.takeWhile regionChar, d, rest, ?_, first, some, ?_, last⟩
      · rw [← behind, List.takeWhile_append_dropWhile]
      · exact fun c inside => List.mem_takeWhile_imp inside
  · rintro ⟨s, region, d, rest, rfl, first, filled, all, last⟩
    obtain ⟨domain, dot⟩ := List.head?_eq_some_iff.1 (sites_dot site member)
    obtain ⟨x, d, rfl, stops⟩ : ∃ x rest, d = x :: rest ∧ ¬ regionChar x = true := by
      rw [dot] at last
      cases last with
      | cons head tail => exact ⟨_, _, rfl, by rw [folds_dot head]; exact Bool.false_ne_true⟩
    have taken : (region ++ (x :: d ++ rest)).takeWhile regionChar = region := by
      rw [List.takeWhile_append_of_pos all, List.cons_append, List.takeWhile_cons_of_neg stops, List.append_nil]
    have dropped : (region ++ (x :: d ++ rest)).dropWhile regionChar = x :: d ++ rest := by
      rw [List.dropWhile_append_of_pos all, List.cons_append, List.dropWhile_cons_of_neg stops]
    unfold siteAt
    dsimp only
    rw [first.length_eq, List.drop_left, taken, dropped, if_pos]
    · have some := List.length_pos_iff.2 filled
      omega
    · exact ⟨begins_iff.2 ⟨s, _, rfl, first⟩, filled, begins_iff.2 ⟨x :: d, rest, rfl, last⟩⟩

theorem drop_takeWhile (p : Char → Bool) (cs : List Char) : cs.drop (cs.takeWhile p).length = cs.dropWhile p := by
  have whole : cs.takeWhile p ++ cs.dropWhile p = cs := List.takeWhile_append_dropWhile
  calc cs.drop (cs.takeWhile p).length
      = (cs.takeWhile p ++ cs.dropWhile p).drop (cs.takeWhile p).length := by rw [whole]
    _ = cs.dropWhile p := List.drop_left

theorem siteAt_drop (some : siteAt site cs ≠ 0) :
    ∃ rest : List Char, cs.drop (siteAt site cs) = rest.dropWhile fun c => !Text.isWhitespace c := by
  unfold siteAt at some ⊢
  dsimp only at some ⊢
  split at some
  case isFalse => exact absurd rfl some
  case isTrue here =>
    rw [if_pos here]
    refine ⟨((cs.drop site.1.length).dropWhile regionChar).drop site.2.length, ?_⟩
    rw [← List.drop_drop, ← List.drop_drop, ← List.drop_drop]
    rw [drop_takeWhile, drop_takeWhile]

theorem hostAt_site (some : hostAt cs ≠ 0) : ∃ site ∈ sites, hostAt cs = siteAt site cs := by
  unfold hostAt at some ⊢
  generalize sites = all at some
  induction all with
  | nil => exact absurd rfl some
  | cons site others ih =>
    rw [List.foldr_cons] at some ⊢
    cases length : siteAt site cs with
    | zero =>
      rw [length] at some
      obtain ⟨other, member, same⟩ := ih some
      exact ⟨other, List.mem_cons_of_mem site member, same⟩
    | succ length_ => exact ⟨site, List.mem_cons_self, length.symm⟩

theorem hostAt_of_site (member : site ∈ sites) (some : siteAt site cs ≠ 0) : hostAt cs ≠ 0 := by
  unfold hostAt
  generalize sites = all at member
  induction all with
  | nil => cases member
  | cons first others ih =>
    rw [List.foldr_cons]
    cases length : siteAt first cs with
    | zero =>
      rcases List.mem_cons.1 member with rfl | later
      · exact absurd length some
      · exact ih later
    | succ length_ => exact Nat.succ_ne_zero length_

theorem hostAt_iff : hostAt cs ≠ 0 ↔ ∃ site ∈ sites, ∃ s region d rest,
    cs = s ++ (region ++ (d ++ rest)) ∧ List.Forall₂ (fun p c => folds p c = true) site.1 s ∧
      region ≠ [] ∧ (∀ c ∈ region, regionChar c = true) ∧ List.Forall₂ (fun p c => folds p c = true) site.2 d := by
  constructor
  · intro some
    obtain ⟨site, member, same⟩ := hostAt_site some
    exact ⟨site, member, (siteAt_iff member).1 (by rw [← same]; exact some)⟩
  · rintro ⟨site, member, parts⟩
    exact hostAt_of_site member ((siteAt_iff member).2 parts)

theorem folds_first (member : site ∈ sites) {rest : List Char} (first : site.1 = p :: rest) (here : folds p c = true) :
    c ∈ letters := by
  have known : ∀ site ∈ sites, site.1.head?.any (fun p => p ∈ smallLetters ∧ p ≠ 'k' ∧ p ≠ 's') = true := by decide
  have small := known site member
  rw [first] at small
  obtain ⟨small, apart⟩ := of_decide_eq_true small
  apply letter_of_toLower
  have same : c.toLower = p := by simpa [folds, apart] using here
  rw [same]
  exact small

theorem hostAt_letter {rest : List Char} (some : hostAt (c :: rest) ≠ 0) : c ∈ letters := by
  obtain ⟨site, member, s, region, d, behind, same, first, -⟩ := hostAt_iff.1 some
  have filled : ∀ site ∈ sites, site.1 ≠ [] := by decide
  obtain ⟨p, ps, service⟩ := List.exists_cons_of_ne_nil (filled site member)
  rw [service] at first
  cases first with
  | cons here later =>
    obtain ⟨rfl, -⟩ := List.cons.inj same
    exact folds_first member service here

/-! ### What the pieces are -/

/-- No host begins at a kept character, an endpoint goes on to white space, and what is replaced begins like a key;
all of a name could be in the name of a region. -/
structure Read (ps : List (Piece Char)) : Prop where
  shows : Shows placedWords ps
  unhosted : ∀ front c back, ps = front ++ .kept c :: back → hostAt (c :: source back) = 0
  spaced : ∀ front endpoint back, ps = front ++ .placed upstream endpoint :: back →
    back = [] ∨ ∃ c rest, back = .kept c :: rest ∧ Text.isWhitespace c = true
  keyed : ∀ word found, .placed word found ∈ ps → ∃ c rest, found = c :: rest ∧ keyChar c = true
  region : ∀ found, .placed endpoint found ∈ ps → ∀ c ∈ found, regionChar c = true

theorem hosts_read (cs : List Char) : Read (pieces hostAt upstream cs) := by
  have place : ∀ word found, .placed word found ∈ pieces hostAt upstream cs →
      word = upstream ∧ ∃ c rest, found = c :: rest ∧ keyChar c = true := by
    intro word found member
    obtain ⟨front, back, split⟩ := List.append_of_mem member
    obtain ⟨pre, post, rfl, later⟩ := scan_suffix split
    rcases scan_first later with ⟨x, rest, -, -, same, -⟩ | ⟨some, same, -⟩
    · cases same
    · obtain ⟨rfl, rfl⟩ := Piece.placed.inj same
      cases post with
      | nil => exact absurd rfl some
      | cons c post =>
        refine ⟨rfl, ?_⟩
        have letter := hostAt_letter some
        obtain ⟨length, size⟩ := Nat.exists_eq_succ_of_ne_zero some
        rw [size]
        exact ⟨c, post.take length, rfl, (letters_plain c letter).2.1⟩
  refine ⟨?_, ?_, ?_, ?_, ?_⟩
  · intro word found member
    rw [(place word found member).1]
    exact List.mem_cons_self
  · intro front c back split
    obtain ⟨pre, post, -, later⟩ := scan_suffix split
    rcases scan_first later with ⟨x, rest, rfl, none, same, rfl⟩ | ⟨-, same, -⟩
    · obtain rfl := Piece.kept.inj same
      rw [show source (scan hostAt .kept (.placed upstream) rest) = rest from source_pieces hostAt upstream rest]
      exact none
    · cases same
  · intro front found back split
    obtain ⟨pre, post, -, later⟩ := scan_suffix split
    rcases scan_first later with ⟨x, rest, -, -, same, -⟩ | ⟨some, -, rfl⟩
    · cases same
    · obtain ⟨site, -, same⟩ := hostAt_site some
      rw [same] at some ⊢
      obtain ⟨rest, behind⟩ := siteAt_drop some
      rw [behind]
      cases stops : rest.dropWhile fun c => !Text.isWhitespace c with
      | nil => exact .inl rfl
      | cons c others =>
        have white : Text.isWhitespace c = true := by
          have head := List.head?_dropWhile_not (fun c => !Text.isWhitespace c) rest
          rw [stops] at head
          simpa using head
        refine .inr ⟨c, _, scan_kept ?_, white⟩
        by_contra some
        rw [(letters_plain c (hostAt_letter some)).2.2] at white
        cases white
  · exact fun word found member => (place word found member).2
  · intro found member
    have apart : endpoint ≠ upstream := by decide
    exact absurd (place endpoint found member).1 apart

theorem Read.silent {ps : List (Piece Char)} (read : Read ps) {reads : Char → Char → Bool} {pattern : List Char}
    (ends : ∀ u ∈ endpoint.tails, u ≠ [] → clashes reads pattern u = true)
    (stream : ∀ u ∈ upstream.tails, begins reads pattern u = false)
    (white : ∀ p ∈ pattern, ∀ c, Text.isWhitespace c = true → reads p c = false) : Silent reads pattern ps := by
  rintro front word found back rfl u inside filled
  have within : u ∈ word.tails := (List.mem_tails _ _).2 inside
  rcases List.mem_cons.1 (read.shows word found (List.mem_append_right front List.mem_cons_self)) with rfl | other
  · rcases read.spaced front found back rfl with rfl | ⟨c, rest, rfl, blank⟩
    · rw [show text ([] : List (Piece Char)) = [] from rfl, List.append_nil]
      exact stream u within
    · rw [show text (Piece.kept c :: rest) = c :: text rest from rfl, begins_blocked fun p member => white p member c blank]
      exact stream u within
  · rw [List.mem_singleton.1 other] at within
    exact begins_clash (ends u within filled) (text back)

/-! ### Names among the pieces -/

section Names

variable {name : List Char} {ps : List (Piece Char)}

/-- A name is of small letters, and neither begins nor goes on in the words that are shown. -/
structure IsName (name : List Char) : Prop where
  filled : name ≠ []
  small : ∀ p ∈ name, p ∈ smallLetters
  runs : Runs spells name placedWords
  ends : ∀ u ∈ endpoint.tails, u ≠ [] → clashes spells name u = true
  stream : ∀ u ∈ upstream.tails, begins spells name u = false

theorem codeWhisperer_name : IsName codeWhisperer := ⟨by decide, by decide, by decide, by decide, by decide⟩

theorem amazonQ_name : IsName amazonQ := ⟨by decide, by decide, by decide, by decide, by decide⟩

theorem IsName.white (isName : IsName name) (member : p ∈ name) (white : Text.isWhitespace c = true) :
    spells p c = false := by
  by_contra here
  rw [(letters_plain c (spells_letter (isName.small p member) (by simpa using here))).2.2] at white
  cases white

theorem IsName.letters (isName : IsName name) (all : List.Forall₂ (fun p c => spells p c = true) name cs) :
    ∀ c ∈ cs, c ∈ letters := by
  have small := isName.small
  clear isName
  induction all with
  | nil => exact fun c member => nomatch member
  | cons here later ih =>
    intro c member
    rcases List.mem_cons.1 member with rfl | other
    · exact spells_letter (small _ List.mem_cons_self) here
    · exact ih (fun p inside => small p (List.mem_cons_of_mem _ inside)) c other

variable {back : List (Piece Char)}

theorem replaceName_suffix {front : List (Piece Char)} (split : replaceName name ps = front ++ back) :
    ∃ pre post, ps = pre ++ post ∧ replaceName name post = back := scan_suffix split

theorem replaceName_first (isName : IsName name) {piece : Piece Char} (split : replaceName name ps = piece :: back) :
    (∃ rest, ps = piece :: rest ∧ begins (keeps spells) name ps = false ∧ replaceName name rest = back) ∨
      ∃ cs rest, ps = cs.map .kept ++ rest ∧ cs ≠ [] ∧ (∀ c ∈ cs, c ∈ letters) ∧ piece = .placed endpoint cs ∧
        replaceName name rest = back := by
  rcases scan_first split with ⟨x, rest, rfl, none, rfl, later⟩ | ⟨some, rfl, later⟩
  · refine .inl ⟨rest, rfl, ?_, later⟩
    by_contra here
    rw [wordAt, if_pos (by simpa using here)] at none
    exact isName.filled (List.length_eq_zero_iff.1 none)
  · have here : begins (keeps spells) name ps = true := by
      by_contra differs
      rw [wordAt, if_neg differs] at some
      exact some rfl
    obtain ⟨cs, rest, rfl, all⟩ := begins_keeps.1 here
    rw [wordAt, if_pos here, all.length_eq] at some later ⊢
    rw [← List.length_map (f := Piece.kept), List.drop_left] at later
    refine .inr ⟨cs, rest, rfl, fun empty => some (by rw [empty]; rfl), isName.letters all, ?_, later⟩
    rw [← List.length_map (f := Piece.kept), List.take_left, source_kept]

theorem replaceName_white (isName : IsName name) (white : Text.isWhitespace c = true) (rest : List (Piece Char)) :
    replaceName name (.kept c :: rest) = .kept c :: replaceName name rest := by
  apply scan_kept
  obtain ⟨p, others, rfl⟩ := List.exists_cons_of_ne_nil isName.filled
  rw [wordAt, if_neg]
  intro here
  have first : spells p c = true := (Bool.and_eq_true_iff.1 here).1
  rw [isName.white List.mem_cons_self white] at first
  cases first

theorem Read.replaceName (read : Read ps) (isName : IsName name) : Read (replaceName name ps) := by
  have place : ∀ word found, .placed word found ∈ ErrorText.replaceName name ps →
      .placed word found ∈ ps ∨ word = endpoint ∧ found ≠ [] ∧ ∀ c ∈ found, c ∈ letters := by
    intro word found member
    obtain ⟨front, back, split⟩ := List.append_of_mem member
    obtain ⟨pre, post, rfl, later⟩ := replaceName_suffix split
    rcases replaceName_first isName later with ⟨rest, rfl, -⟩ | ⟨cs, rest, -, filled, all, same, -⟩
    · exact .inl (List.mem_append_right pre List.mem_cons_self)
    · obtain ⟨rfl, rfl⟩ := Piece.placed.inj same
      exact .inr ⟨rfl, filled, all⟩
  refine ⟨?_, ?_, ?_, ?_, ?_⟩
  · intro word found member
    rcases place word found member with before | ⟨rfl, -⟩
    · exact read.shows word found before
    · exact List.mem_cons_of_mem _ List.mem_cons_self
  · intro front c back split
    obtain ⟨pre, post, rfl, later⟩ := replaceName_suffix split
    rcases replaceName_first isName later with ⟨rest, rfl, -, rfl⟩ | ⟨cs, rest, -, -, -, same, -⟩
    · rw [ErrorText.replaceName, source_replacePieces]
      exact read.unhosted pre c rest rfl
    · cases same
  · intro front found back split
    obtain ⟨pre, post, rfl, later⟩ := replaceName_suffix split
    rcases replaceName_first isName later with ⟨rest, rfl, -, rfl⟩ | ⟨cs, rest, -, -, -, same, -⟩
    · rcases read.spaced pre found rest rfl with rfl | ⟨c, others, rfl, white⟩
      · exact .inl rfl
      · exact .inr ⟨c, _, replaceName_white isName white others, white⟩
    · have apart : upstream ≠ endpoint := by decide
      exact absurd (Piece.placed.inj same).1 apart
  · intro word found member
    rcases place word found member with before | ⟨-, filled, all⟩
    · exact read.keyed word found before
    · obtain ⟨c, rest, rfl⟩ := List.exists_cons_of_ne_nil filled
      exact ⟨c, rest, rfl, (letters_plain c (all c List.mem_cons_self)).2.1⟩
  · intro found member
    rcases place endpoint found member with before | ⟨-, -, all⟩
    · exact read.region found before
    · exact fun c inside => (letters_plain c (all c inside)).1

theorem replaceName_keeps {other : List Char} (isName : IsName other)
    (here : begins (keeps spells) name (replaceName other ps) = true) : begins (keeps spells) name ps = true := by
  obtain ⟨cs, back, split, all⟩ := begins_keeps.1 here
  clear here
  induction all generalizing ps with
  | nil => rfl
  | cons first later ih =>
    rcases replaceName_first isName split with ⟨rest, rfl, -, goes⟩ | ⟨found, rest, -, -, -, same, -⟩
    · exact Bool.and_eq_true_iff.2 ⟨first, ih goes⟩
    · cases same

theorem replaceName_none (isName : IsName name) {front : List (Piece Char)}
    (split : replaceName name ps = front ++ back) : begins (keeps spells) name back = false := by
  by_contra here
  obtain ⟨pre, post, rfl, rfl⟩ := replaceName_suffix split
  have here : begins (keeps spells) name (replaceName name post) = true := by simpa using here
  have before := replaceName_keeps isName here
  cases first : replaceName name post with
  | nil =>
    rw [first] at here
    obtain ⟨p, others, rfl⟩ := List.exists_cons_of_ne_nil isName.filled
    cases here
  | cons piece back =>
    rcases replaceName_first isName first with ⟨rest, -, none, -⟩ | ⟨cs, rest, -, -, -, rfl, -⟩
    · rw [before] at none
      cases none
    · rw [first] at here
      obtain ⟨p, others, rfl⟩ := List.exists_cons_of_ne_nil isName.filled
      cases here

theorem replaceName_text (isName : IsName name) (read : Read ps) :
    text (replaceName name ps) = replaceAll (wordAt spells name) endpoint (text ps) :=
  text_replacePieces isName.runs endpoint
    (read.silent isName.ends isName.stream fun _ member _ white => isName.white member white) read.shows

end Names

theorem readPieces_read (cs : List Char) : Read (readPieces cs) :=
  ((hosts_read cs).replaceName codeWhisperer_name).replaceName amazonQ_name

theorem readPieces_source (cs : List Char) : source (readPieces cs) = cs := by
  unfold readPieces replaceName
  rw [source_replacePieces, source_replacePieces, source_pieces]

theorem redactEndpointNames_text (message : String) :
    (redactEndpointNames message).toList = text (readPieces message.toList) := by
  have hosts := hosts_read message.toList
  have first := replaceName_text codeWhisperer_name hosts
  have second := replaceName_text amazonQ_name (hosts.replaceName codeWhisperer_name)
  rw [readPieces, second, first]
  simp only [redactEndpointNames, replaceAsciiCaseInsensitive, String.toList_ofList]
  rfl

end KiroProxy.ErrorText

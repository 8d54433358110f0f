import KiroProxy.Translate.ErrorPieces

/-! What is shown of the pieces has no endpoint, no name and no key. -/
namespace KiroProxy.ErrorText

open Scan

/-! ### Matches letter by letter -/

variable {cs rest x : List Char} {c : Char}

theorem keyAt_iff : keyAt cs ≠ 0 ↔ ∃ s c rest, cs = s ++ c :: rest ∧
    List.Forall₂ (fun p c => folds p c = true) keyPrefix s ∧ keyChar c = true := by
  constructor
  · intro some
    unfold keyAt at some
    split at some
    case isFalse => exact absurd rfl some
    case isTrue here =>
      obtain ⟨s, behind, rfl, all⟩ := begins_iff.1 here
      rw [all.length_eq, List.drop_left] at some
      cases behind with
      | nil => exact absurd rfl some
      | cons c rest =>
        refine ⟨s, c, rest, rfl, all, ?_⟩
        by_contra ends
        rw [List.takeWhile_cons_of_neg ends] at some
        exact some rfl
  · rintro ⟨s, c, rest, rfl, all, key⟩
    unfold keyAt
    rw [if_pos (begins_iff.2 ⟨s, c :: rest, rfl, all⟩), all.length_eq, List.drop_left, List.takeWhile_cons_of_pos key]
    exact Nat.succ_ne_zero _

theorem folds_plain {p : Char} (member : p ∈ '.' :: '_' :: smallLetters) (here : folds p c = true) :
    c ∈ '.' :: '_' :: '\u212A' :: '\u017F' :: letters := by
  simp only [folds, Bool.or_eq_true, Bool.and_eq_true, decide_eq_true_eq] at here
  rcases here with (same | ⟨-, rfl⟩) | ⟨-, rfl⟩
  · by_cases small : p ∈ smallLetters
    · simp only [List.mem_cons]
      exact .inr (.inr (.inr (.inr (letter_of_toLower (same ▸ small)))))
    · rw [eq_of_toLower small same]
      simp only [List.mem_cons] at member ⊢
      rcases member with rfl | rfl | inside
      · exact .inl rfl
      · exact .inr (.inl rfl)
      · exact absurd inside small
  · decide
  · decide

theorem folded_plain : ∀ c ∈ '.' :: '_' :: '\u212A' :: '\u017F' :: letters,
    Text.isWhitespace c = false ∧ c ≠ ' ' ∧ c ≠ '…' ∧ c ≠ '\x27' := by
  decide

theorem folds_white {p : Char} (member : p ∈ '.' :: '_' :: smallLetters) (white : Text.isWhitespace c = true) :
    folds p c = false := by
  by_contra here
  rw [(folded_plain c (folds_plain member (by simpa using here))).1] at white
  cases white

theorem sites_small : ∀ site ∈ sites, (∀ p ∈ site.1, p ∈ '.' :: '_' :: smallLetters) ∧
    ∀ p ∈ site.2, p ∈ '.' :: '_' :: smallLetters := by
  decide

theorem sites_apart : ∀ site ∈ sites, Runs folds site.1 placedWords ∧ Runs folds site.2 placedWords ∧
    (∀ u ∈ endpoint.tails, u ≠ [] → clashes folds site.1 u = true) ∧
    ∀ u ∈ upstream.tails, begins folds site.1 u = false := by
  decide

section Shown

variable {ps : List (Piece Char)}

theorem Read.of_append_right {front back : List (Piece Char)} (read : Read (front ++ back)) : Read back where
  shows := read.shows.of_append_right
  unhosted before c rest split := read.unhosted (front ++ before) c rest (by rw [split, List.append_assoc])
  spaced before found rest split := read.spaced (front ++ before) found rest (by rw [split, List.append_assoc])
  keyed word found member := read.keyed word found (List.mem_append_right front member)
  region found member := read.region found (List.mem_append_right front member)

theorem Read.tail {piece : Piece Char} (read : Read (piece :: ps)) : Read ps := by
  have split : Read ([piece] ++ ps) := read
  exact split.of_append_right

theorem region_black (here : regionChar c = true) : Text.isWhitespace c = false := by
  simp only [regionChar, Bool.or_eq_true, decide_eq_true_eq] at here
  rcases here with ((alnum | rfl) | rfl) | rfl
  · have range := Text.isAlphanum_bounds alnum
    simp only [Text.isWhitespace, Bool.or_eq_false_iff, Bool.and_eq_false_iff, decide_eq_false_iff_not, beq_eq_false_iff_ne]
    omega
  · decide
  · decide
  · decide

theorem upstream_region : ∀ c ∈ upstream, regionChar c = true := by decide

theorem endpoint_region : ∀ c ∈ endpoint, regionChar c = true := by decide

theorem Read.region_source (read : Read ps) {region tail : List Char} {x : Char}
    (all : ∀ c ∈ region, regionChar c = true) (ends : regionChar x = false) (black : Text.isWhitespace x = false)
    (split : text ps = region ++ x :: tail) :
    ∃ middle rest, ps = middle ++ rest ∧ text rest = x :: tail ∧ (∀ c ∈ source middle, regionChar c = true) ∧
      (region ≠ [] → source middle ≠ []) := by
  induction ps generalizing region with
  | nil =>
    have empty := List.append_eq_nil_iff.1 split.symm
    cases empty.2
  | cons piece ps ih =>
    cases piece with
    | kept c =>
      cases region with
      | nil =>
        refine ⟨[], .kept c :: ps, rfl, split, ?_, fun filled => absurd rfl filled⟩
        intro d member
        cases member
      | cons first region =>
        obtain ⟨rfl, later⟩ := List.cons.inj (show c :: text ps = first :: (region ++ x :: tail) from split)
        obtain ⟨middle, rest, rfl, behind, inside, -⟩ :=
          ih read.tail (fun c member => all c (List.mem_cons_of_mem _ member)) later
        refine ⟨.kept c :: middle, rest, rfl, behind, ?_, fun _ => List.cons_ne_nil _ _⟩
        intro d member
        rcases List.mem_cons.1 member with rfl | other
        · exact all d List.mem_cons_self
        · exact inside d other
    | placed word found =>
      have behind := congrArg (List.dropWhile regionChar)
        (show word ++ text ps = region ++ x :: tail from split)
      have word_region : ∀ c ∈ word, regionChar c = true := by
        rcases List.mem_cons.1 (read.shows word found List.mem_cons_self) with rfl | other
        · exact upstream_region
        · rw [List.mem_singleton.1 other]
          exact endpoint_region
      have stops : ¬ regionChar x = true := by
        rw [ends]
        exact Bool.false_ne_true
      rw [List.dropWhile_append_of_pos all, List.dropWhile_append_of_pos word_region,
        List.dropWhile_cons_of_neg stops] at behind
      rcases List.mem_cons.1 (read.shows word found List.mem_cons_self) with rfl | other
      · rcases read.spaced [] found ps rfl with rfl | ⟨c, rest, rfl, white⟩
        · cases behind
        · have apart : ¬ regionChar c = true := fun inside => by rw [region_black inside] at white; cases white
          have same : c :: text rest = x :: tail := by rw [← behind]; exact (List.dropWhile_cons_of_neg apart).symm
          rw [(List.cons.inj same).1, black] at white
          cases white
      · obtain rfl := List.mem_singleton.1 other
        have goes : text ps = (text ps).takeWhile regionChar ++ x :: tail := by
          rw [← behind, List.takeWhile_append_dropWhile]
        obtain ⟨middle, rest, rfl, later, inside, -⟩ :=
          ih read.tail (fun c member => List.mem_takeWhile_imp member) goes
        obtain ⟨first, others, same, -⟩ := read.keyed endpoint found List.mem_cons_self
        refine ⟨.placed endpoint found :: middle, rest, rfl, later, ?_, ?_⟩
        · intro c member
          rcases List.mem_append.1 member with name | other
          · exact read.region found List.mem_cons_self c name
          · exact inside c other
        · intro _ empty
          have none := (List.append_eq_nil_iff.1 empty).1
          rw [show Piece.source (.placed endpoint found) = found from rfl, same] at none
          cases none

theorem Read.no_host (read : Read ps) : ¬ Found hostAt (text ps) := by
  rintro ⟨x, rest, split, some⟩
  obtain ⟨site, member, s, region, d, behind, rfl, service, filled, all, domain⟩ := hostAt_iff.1 some
  obtain ⟨service_runs, domain_runs, ends, stream⟩ := sites_apart site member
  obtain ⟨service_small, -⟩ := sites_small site member
  have silent : Silent folds site.1 ps :=
    read.silent ends stream fun p inside c white => folds_white (service_small p inside) white
  obtain ⟨front, back, rfl, -, later, here⟩ :=
    occurs service_runs silent read.shows split (begins_iff.2 ⟨s, _, rfl, service⟩)
  have read := read.of_append_right
  obtain ⟨cs, back, rfl, first⟩ := begins_keeps.1 here
  rw [text_append, text_kept] at later
  obtain ⟨rfl, follows⟩ := List.append_inj later (by rw [← first.length_eq, service.length_eq])
  -- The region ends at the dot before the domain.
  obtain ⟨top, dot⟩ := List.head?_eq_some_iff.1 (sites_dot site member)
  obtain ⟨c, d, rfl, stops, black⟩ : ∃ c rest, d = c :: rest ∧ regionChar c = false ∧ Text.isWhitespace c = false := by
    rw [dot] at domain
    cases domain with
    | cons head tail =>
      refine ⟨_, _, rfl, folds_dot head, ?_⟩
      exact (folded_plain _ (folds_plain List.mem_cons_self head)).1
  obtain ⟨middle, rest, rfl, shown, inside, some_⟩ := read.of_append_right.region_source all stops black follows
  have rest_begins : begins folds site.2 (text rest) = true := by
    rw [shown]
    exact begins_iff.2 ⟨c :: d, behind, rfl, domain⟩
  rw [begins_text domain_runs read.of_append_right.of_append_right.shows] at rest_begins
  obtain ⟨ds, last, rfl, spelled⟩ := begins_keeps.1 rest_begins
  have there : hostAt (source (cs.map .kept ++ (middle ++ (ds.map .kept ++ last)))) ≠ 0 := by
    rw [source_append, source_append, source_append, source_kept, source_kept]
    exact hostAt_iff.2 ⟨site, member, cs, source middle, ds, source last, rfl, first, some_ filled, inside, spelled⟩
  cases cs with
  | nil =>
    have service_filled : ∀ site ∈ sites, site.1 ≠ [] := by decide
    exact service_filled site member (List.length_eq_zero_iff.1 first.length_eq)
  | cons x cs => exact there (read.unhosted [] x _ rfl)

theorem keyPrefix_silent (read : Read ps) : Silent folds keyPrefix ps := by
  apply read.silent
  · decide
  · decide
  · have small : ∀ p ∈ keyPrefix, p ∈ '.' :: '_' :: smallLetters := by decide
    exact fun p inside c white => folds_white (small p inside) white

theorem Read.no_key (read : Read ps) (none : ¬ Found keyAt (source ps)) : ¬ Found keyAt (text ps) := by
  rintro ⟨x, rest, split, some⟩
  obtain ⟨s, c, behind, rfl, begin_, key⟩ := keyAt_iff.1 some
  obtain ⟨front, back, rfl, -, later, here⟩ :=
    occurs (by decide) (keyPrefix_silent read) read.shows split (begins_iff.2 ⟨s, _, rfl, begin_⟩)
  obtain ⟨cs, back, rfl, first⟩ := begins_keeps.1 here
  rw [text_append, text_kept] at later
  obtain ⟨rfl, follows⟩ := List.append_inj later (by rw [← first.length_eq, begin_.length_eq])
  have next : ∃ d others, source back = d :: others ∧ keyChar d = true := by
    cases back with
    | nil => cases follows
    | cons piece back =>
      cases piece with
      | kept d =>
        obtain ⟨rfl, -⟩ := List.cons.inj (show d :: text back = c :: behind from follows)
        exact ⟨d, source back, rfl, key⟩
      | placed word found =>
        obtain ⟨d, others, rfl, key⟩ := read.keyed word found
          (List.mem_append_right _ (List.mem_append_right _ List.mem_cons_self))
        exact ⟨d, others ++ source back, rfl, key⟩
  obtain ⟨d, others, same, key⟩ := next
  apply none
  rw [source_append]
  apply Found.of_suffix
  refine ⟨[], source (cs.map .kept ++ back), rfl, ?_⟩
  rw [source_append, source_kept, same]
  exact keyAt_iff.2 ⟨cs, d, others, rfl, first, key⟩

theorem Read.no_name (read : Read ps) {name : List Char} (isName : IsName name)
    (none : ∀ front back, ps = front ++ back → begins (keeps spells) name back = false) (split : text ps = x ++ rest) :
    begins spells name rest = false := by
  by_contra here
  have silent : Silent spells name ps :=
    read.silent isName.ends isName.stream fun _ member _ white => isName.white member white
  obtain ⟨front, back, same, -, -, kept⟩ := occurs isName.runs silent read.shows split (by simpa using here)
  rw [none front back same] at kept
  cases kept

end Shown

/-! ### What is read of a message -/

theorem readPieces_no_amazonQ (split : text (readPieces cs) = x ++ rest) :
    begins spells amazonQ rest = false :=
  (readPieces_read cs).no_name amazonQ_name (fun _ _ split => replaceName_none amazonQ_name split) split

theorem readPieces_no_codeWhisperer (split : text (readPieces cs) = x ++ rest) :
    begins spells codeWhisperer rest = false := by
  apply (readPieces_read cs).no_name codeWhisperer_name _ split
  intro front back split
  by_contra here
  obtain ⟨pre, post, before, rfl⟩ := replaceName_suffix split
  have kept := replaceName_keeps amazonQ_name (by simpa using here)
  rw [replaceName_none codeWhisperer_name before] at kept
  cases kept

theorem redactKiroKeys_none (message : String) : ¬ Found keyAt (redactKiroKeys message).toList := by
  rw [redactKiroKeys, String.toList_ofList, replaceAll]
  rintro ⟨x, rest, split, some⟩
  obtain ⟨s, c, behind, rfl, begin_, key⟩ := keyAt_iff.1 some
  have shows : Shows ["[REDACTED]".toList] (pieces keyAt "[REDACTED]".toList message.toList) := by
    intro word found member
    obtain ⟨front, back, split⟩ := List.append_of_mem member
    obtain ⟨pre, post, -, later⟩ := scan_suffix split
    rcases scan_first later with ⟨y, others, -, -, same, -⟩ | ⟨-, same, -⟩
    · cases same
    · rw [(Piece.placed.inj same).1]
      exact List.mem_cons_self
  have starts : Starts folds keyPrefix ["[REDACTED]".toList] := by decide
  obtain ⟨front, back, same, -, later, here⟩ :=
    occurs (by decide) (starts.silent shows) shows split (begins_iff.2 ⟨s, _, rfl, begin_⟩)
  obtain ⟨cs, back, rfl, first⟩ := begins_keeps.1 here
  rw [text_append, text_kept] at later
  obtain ⟨rfl, follows⟩ := List.append_inj later (by rw [← first.length_eq, begin_.length_eq])
  obtain ⟨pre, post, -, goes⟩ := scan_suffix same
  have whole : source (cs.map .kept ++ back) = post := by
    rw [← goes]
    exact source_pieces keyAt _ post
  rw [source_append, source_kept] at whole
  have next : ∃ others, source back = c :: others := by
    cases back with
    | nil => cases follows
    | cons piece back =>
      cases piece with
      | kept d =>
        obtain ⟨rfl, -⟩ := List.cons.inj (show d :: text back = c :: behind from follows)
        exact ⟨source back, rfl⟩
      | placed word found =>
        obtain rfl := List.mem_singleton.1 (shows word found (by
          rw [same]
          exact List.mem_append_right _ (List.mem_append_right _ List.mem_cons_self)))
        obtain ⟨rfl, -⟩ := List.cons.inj (show '[' :: _ = c :: behind from follows)
        exact absurd key (by decide)
  obtain ⟨others, next⟩ := next
  have there : keyAt post ≠ 0 := by
    rw [← whole, next]
    exact keyAt_iff.2 ⟨cs, c, others, rfl, first, key⟩
  cases cs with
  | nil => cases first
  | cons y cs =>
    rcases scan_first goes with ⟨z, others, -, none, -⟩ | ⟨-, same, -⟩
    · exact there none
    · cases same

end KiroProxy.ErrorText

import KiroProxy.Translate.ModelOrder
import Mathlib.Data.String.Basic

/-! The tiers that a model name tells, and how the normal form keeps them. -/
namespace KiroProxy.ResolveModel

open Words

def Tells (cs tier : List Char) : Prop := tier ∈ claudeFamilies ∧ tier ∈ words cs

theorem toLower_toLower (c : Char) : c.toLower.toLower = c.toLower := by
  by_cases upper : 'A'.val ≤ c.val ∧ c.val ≤ 'Z'.val
  · have range : ∀ n, 65 ≤ n → n ≤ 90 → (Char.ofNat n).toLower.toLower = (Char.ofNat n).toLower := by decide
    have bounds : 65 ≤ c.toNat ∧ c.toNat ≤ 90 := upper
    have here := range c.toNat bounds.1 bounds.2
    rwa [Char.ofNat_toNat] at here
  · have same : c.toLower = c := dif_neg upper
    rw [same, same]

variable {c : Char} {cs tier : List Char}

theorem ascii_of_alphanumeric (known : isAlphanumeric c = true) : c.toNat < 128 := by
  simp only [isAlphanumeric, Bool.or_eq_true] at known
  rcases known with (digit | lower) | upper
  · exact Nat.lt_of_le_of_lt (Text.isDigit_bounds digit).2 (by decide)
  · exact Nat.lt_of_le_of_lt (Text.isLower_bounds lower).2 (by decide)
  · exact Nat.lt_of_le_of_lt (Text.isUpper_bounds upper).2 (by decide)

theorem blank_separates (blank : Text.isWhitespace c = true) : (!isAlphanumeric c) = true := by
  rw [Bool.not_eq_true']
  by_contra known
  have low := ascii_of_alphanumeric (Bool.not_eq_false _ ▸ known)
  have none : ∀ n < 128, isAlphanumeric (Char.ofNat n) = true → Text.isWhitespace (Char.ofNat n) = false := by
    decide
  have here := none c.toNat low
  rw [Char.ofNat_toNat] at here
  rw [here (Bool.not_eq_false _ ▸ known)] at blank
  cases blank

theorem words_lowered (low : ∀ c ∈ cs, c.toLower = c) :
    words cs = Words.words (!isAlphanumeric ·) cs := by
  rw [words, List.map_congr_left low, List.map_id']

theorem words_append_cons {s : Char} (cuts : isAlphanumeric s.toLower = false) (front back : List Char) :
    words (front ++ s :: back) = words front ++ words back := by
  rw [words, List.map_append, List.map_cons, Words.words_append_cons (by rw [cuts]; rfl)]
  rfl

theorem words_trimChars (cs : List Char) :
    Words.words (!isAlphanumeric ·) (Text.trimChars cs) = Words.words (!isAlphanumeric ·) cs := by
  have front : cs.takeWhile Text.isWhitespace ++ cs.dropWhile Text.isWhitespace = cs :=
    List.takeWhile_append_dropWhile
  have back := List.rdropWhile_append_rtakeWhile (p := Text.isWhitespace) (l := cs.dropWhile Text.isWhitespace)
  calc Words.words (!isAlphanumeric ·) (Text.trimChars cs)
      = Words.words (!isAlphanumeric ·) (cs.dropWhile Text.isWhitespace) := by
        rw [← back, words_trailing fun c member => blank_separates (List.mem_rtakeWhile_imp member)]
        rfl
    _ = Words.words (!isAlphanumeric ·) cs := by
        rw [← words_leading (fun c member => blank_separates (List.mem_takeWhile_imp member)), front]

theorem words_plainName (cs : List Char) : words (plainName cs) = words cs := by
  have lowered : ∀ c ∈ plainName cs, c.toLower = c := by
    intro c member
    rcases mem_rejoined member with rfl | there
    · rfl
    · obtain ⟨d, among, rfl⟩ := List.mem_map.1 there
      obtain ⟨e, -, rfl⟩ := List.mem_map.1 among
      by_cases mark : e.toLower = '_' ∨ e.toLower = '.'
      · rw [if_pos mark]
        rfl
      · rw [if_neg mark, toLower_toLower]
  rw [words_lowered lowered, plainName, rejoin, words_rejoined (by decide), dashed, words_map, trimChars_lower,
    words_trimChars, words]
  · intro c
    split
    case isTrue mark => rcases mark with rfl | rfl <;> decide
    case isFalse => rfl
  · intro c known
    rw [if_neg]
    rintro (rfl | rfl) <;> cases known

def versionChar (c : Char) : Bool := c.isDigit || c == '-' || c == '.'

theorem versionChar_cases (plain : versionChar c = true) :
    c.toLower = c ∧ ((!isAlphanumeric c) = true ∨ c.isDigit = true) := by
  unfold versionChar at plain
  rw [Bool.or_eq_true, Bool.or_eq_true] at plain
  rcases plain with (digit | hyphen) | dot
  · refine ⟨dif_neg fun upper => ?_, .inr digit⟩
    have bounds : 65 ≤ c.toNat ∧ c.toNat ≤ 90 := upper
    have number := Text.isDigit_bounds digit
    omega
  · rw [eq_of_beq hyphen]
    exact ⟨rfl, .inl (by decide)⟩
  · rw [eq_of_beq dot]
    exact ⟨rfl, .inl (by decide)⟩

theorem eq_append_of_isPrefixOf? {front rest : List Char} (cut : front.isPrefixOf? cs = some rest) :
    cs = front ++ rest :=
  (List.append_eq_of_isPrefixOf?_eq_some cut).symm

theorem expandCompactClaudeAlias_some {normalized expanded : List Char}
    (made : expandCompactClaudeAlias normalized = some expanded) :
    ∃ family ∈ claudeFamilies, ∃ start ∈ ["claude-".toList, "claude".toList, []], ∃ version rest,
      normalized = (start ++ family) ++ version ∧ (∀ c ∈ version, versionChar c = true) ∧
      expanded = ("claude-".toList ++ family) ++ '-' :: rest ∧ ∀ c ∈ rest, versionChar c = true := by
  unfold expandCompactClaudeAlias at made
  obtain ⟨start, known, model, named, whole⟩ : ∃ start ∈ ["claude-".toList, "claude".toList, []], ∃ model,
      ("claude-".toList.isPrefixOf? normalized <|> "claude".toList.isPrefixOf? normalized).getD normalized = model ∧
      normalized = start ++ model := by
    cases hyphened : "claude-".toList.isPrefixOf? normalized with
    | some rest => exact ⟨"claude-".toList, by simp, rest, rfl, eq_append_of_isPrefixOf? hyphened⟩
    | none =>
      cases joined : "claude".toList.isPrefixOf? normalized with
      | some rest => exact ⟨"claude".toList, by simp, rest, rfl, eq_append_of_isPrefixOf? joined⟩
      | none => exact ⟨[], by simp, normalized, rfl, rfl⟩
  rw [named] at made
  dsimp only at made
  obtain ⟨⟨family, version⟩, found, made⟩ := Option.bind_eq_some_iff.1 made
  obtain ⟨known', member, first⟩ := List.exists_of_findSome?_eq_some found
  obtain ⟨tail, cut, same⟩ := Option.map_eq_some_iff.1 first
  obtain ⟨rfl, rfl⟩ := Prod.mk.inj same
  have rest := eq_append_of_isPrefixOf? cut
  dsimp only at made
  split at made
  case isTrue => cases made
  case isFalse numeric =>
    obtain ⟨-, plain, -⟩ : _ ∧ _ ∧ _ := by simpa only [not_or, not_not] using numeric
    have shown : ∀ c ∈ (['-'].isPrefixOf? tail).getD tail, versionChar c = true := List.all_eq_true.1 plain
    refine ⟨known', member, start, known, tail, _, by rw [whole, rest, List.append_assoc], ?_,
      by rw [← Option.some.inj made, List.append_assoc], ?_⟩
    · intro c inside
      cases hyphen : ['-'].isPrefixOf? tail with
      | none =>
        rw [hyphen] at shown
        exact shown c inside
      | some back =>
        rw [hyphen] at shown
        rw [eq_append_of_isPrefixOf? hyphen] at inside
        rcases List.mem_cons.1 inside with rfl | later
        · rfl
        · exact shown c later
    · intro c inside
      rcases mem_rejoined inside with rfl | there
      · rfl
      · obtain ⟨d, among, rfl⟩ := List.mem_map.1 there
        split
        · rfl
        · exact shown d among

theorem claudeFamilies_digitless : ∀ family ∈ claudeFamilies, ∀ c ∈ family, c.isDigit = false := by decide

theorem tells_version {version : List Char} (plain : ∀ c ∈ version, versionChar c = true)
    (told : Tells (cs ++ version) tier) : Tells cs tier := by
  refine ⟨told.1, ?_⟩
  have lowered : (cs ++ version).map Char.toLower = cs.map Char.toLower ++ version := by
    rw [List.map_append, List.map_congr_left fun c member => (versionChar_cases (plain c member)).1, List.map_id']
  have inside := told.2
  rw [words, lowered] at inside
  exact mem_words_tail (fun c member => (versionChar_cases (plain c member)).2)
    (claudeFamilies_digitless tier told.1) inside

theorem tells_expanded {normalized expanded : List Char}
    (made : expandCompactClaudeAlias normalized = some expanded) :
    ∃ family, (∀ tier, Tells normalized tier → tier = family) ∧ ∀ tier, Tells expanded tier ↔ tier = family := by
  obtain ⟨family, member, start, known, version, rest, whole, plain, whole', plain'⟩ :=
    expandCompactClaudeAlias_some made
  have compact : ∀ family ∈ claudeFamilies, ∀ start ∈ ["claude-".toList, "claude".toList, []],
      ∀ tier ∈ claudeFamilies, tier ∈ words (start ++ family) → tier = family := by decide
  have spelled : ∀ family ∈ claudeFamilies, family ∈ words ("claude-".toList ++ family) := by decide
  refine ⟨family, fun tier told => ?_, fun tier => ⟨fun told => ?_, ?_⟩⟩
  · rw [whole] at told
    have front := tells_version plain told
    exact compact family member start known tier front.1 front.2
  · rw [whole'] at told
    have front := tells_version (List.forall_mem_cons.2 ⟨rfl, plain'⟩) told
    exact compact family member _ List.mem_cons_self tier front.1 front.2
  · rintro rfl
    refine ⟨member, ?_⟩
    rw [whole', words_append_cons (by decide)]
    exact List.mem_append_left _ (spelled tier member)

theorem tells_plainName : Tells (plainName cs) tier ↔ Tells cs tier := by
  rw [Tells, words_plainName, Tells]

theorem tells_normalized (told : Tells cs tier) : Tells (normalizeModelName cs) tier := by
  rw [normalizeModelName]
  cases made : expandCompactClaudeAlias (plainName cs) with
  | none => exact tells_plainName.2 told
  | some expanded =>
    obtain ⟨family, only, exact⟩ := tells_expanded made
    exact (exact tier).2 (only tier (tells_plainName.2 told))

theorem tells_of_normalized {other : List Char} (some : Tells cs other) (told : Tells (normalizeModelName cs) tier) :
    Tells cs tier := by
  rw [normalizeModelName] at told
  cases made : expandCompactClaudeAlias (plainName cs) with
  | none =>
    rw [made] at told
    exact tells_plainName.1 told
  | some expanded =>
    rw [made] at told
    obtain ⟨family, only, exact⟩ := tells_expanded made
    rw [(exact tier).1 told, ← only other (tells_plainName.2 some)]
    exact some

theorem tells_bare {model : String} : Tells (bare model) tier ↔ Tells model.toList tier := by
  rw [bare, ModelMapping.stripDiscoveryPrefix, List.splitAt_eq]
  dsimp only
  split
  case isTrue marked =>
    rw [Text.eqIgnoreAsciiCase, beq_iff_eq, String.toList_ofList] at marked
    have mark : "anthropic.".toList.map Char.toLower = "anthropic".toList ++ ['.'] := by decide
    have whole : words model.toList = ["anthropic".toList] ++ words (model.toList.drop 10) := by
      have first : Words.words (!isAlphanumeric ·) "anthropic".toList = ["anthropic".toList] := by decide
      rw [words, ← List.take_append_drop 10 (model.toList.map Char.toLower), ← List.map_take, marked, mark,
        List.append_assoc, List.singleton_append, Words.words_append_cons (by decide), first, ← List.map_drop]
      rfl
    rw [String.toList_ofList, Tells, Tells, whole]
    refine and_congr_right fun known => ⟨List.mem_append_right _, fun member => ?_⟩
    rcases List.mem_append.1 member with here | there
    · have apart : "anthropic".toList ∉ claudeFamilies := by decide
      exact absurd (List.mem_singleton.1 here ▸ known) apart
    · exact there
  case isFalse => exact Iff.rfl

theorem tells_spelling {model id : String} (same : Text.eqIgnoreAsciiCase id model = true) :
    Tells id.toList tier ↔ Tells model.toList tier := by
  rw [Tells, Tells, words, words, beq_iff_eq.1 same]

theorem mem_modelTokens (known : tier ∈ claudeFamilies) :
    (modelTokens cs).contains tier = true ↔ tier ∈ words cs := by
  have kept : ∀ tier ∈ claudeFamilies, tier ≠ "latest".toList ∧ tier ≠ "model".toList := by decide
  rw [List.contains_iff_mem, modelTokens, List.mem_filter]
  exact and_iff_left (decide_eq_true (kept tier known))

theorem tells_tokenMatch {requested candidate : List Char} (matched : tokenModelMatch requested candidate = true) :
    Tells candidate tier ↔ Tells requested tier := by
  unfold tokenModelMatch at matched
  dsimp only at matched
  split at matched
  case isTrue => cases matched
  case isFalse =>
    refine and_congr_right fun known => ?_
    have alike := beq_iff_eq.1 (List.all_eq_true.1 matched tier known)
    rw [← mem_modelTokens known, ← mem_modelTokens known, alike]

end KiroProxy.ResolveModel

import KiroProxy.Lib.Glob
import KiroProxy.Translate.ModelMapping

/-! The models that a key is restricted to: patterns of the model name or of the name with its provider. -/
namespace KiroProxy.ModelAllowed

open ModelMapping

def qualified (providerId model : String) : String := providerId ++ "/" ++ model

/-- `model_is_allowed` -/
def modelIsAllowed (allowedModels : List String) (providerId model : String) : Bool :=
  if allowedModels.isEmpty then true
  else allowedModels.any fun pattern =>
    modelGlobMatches pattern model || modelGlobMatches pattern (qualified providerId model)

def Means (pattern name : String) : Prop := Glob.Expands '*' pattern.toList name.toList

/-- The name is the pattern, or its front and its back with something between them. -/
def Fits (pattern name : String) : Prop :=
  match Text.splitOnce pattern "*" with
  | none => pattern = name
  | some (front, back) => Text.startsWith name front ∧ Text.endsWith name back ∧
    front.length + back.length ≤ name.length

/-- The name is the pattern in other case, or its front and its back overlap in the name. -/
def Overreaches (pattern name : String) : Prop :=
  match Text.splitOnce pattern "*" with
  | none => Text.eqIgnoreAsciiCase pattern name ∧ pattern ≠ name
  | some (front, back) => Text.startsWith name front ∧ Text.endsWith name back ∧
    name.length < front.length + back.length

/-- The back has a star too, and the name ends in an expansion of the back but not in the back itself. -/
def FallsShort (pattern name : String) : Prop :=
  match Text.splitOnce pattern "*" with
  | none => False
  | some (front, back) => '*' ∈ back.toList ∧ Text.endsWith name back = false ∧
    ∃ between rest, name = front ++ (between ++ rest) ∧ Means back rest

theorem startsWith_iff {s front : String} : Text.startsWith s front = true ↔ front.toList <+: s.toList :=
  List.isPrefixOf_iff_prefix

theorem endsWith_iff {s back : String} : Text.endsWith s back = true ↔ back.toList <:+ s.toList :=
  List.isSuffixOf_iff_suffix

theorem splitOnce_star {pattern front back : String} (cut : Text.splitOnce pattern "*" = some (front, back)) :
    pattern.toList = front.toList ++ '*' :: back.toList ∧ '*' ∉ front.toList := by
  obtain ⟨⟨before, after⟩, halves, same⟩ := Option.map_eq_some_iff.1 cut
  cases same
  rw [String.toList_ofList, String.toList_ofList]
  exact ⟨Text.splitOnceChars_eq halves, Text.splitOnceChars_front halves⟩

theorem splitOnce_starless {pattern : String} (uncut : Text.splitOnce pattern "*" = none) :
    '*' ∉ pattern.toList :=
  Text.splitOnceChars_none.1 (Option.map_eq_none_iff.1 uncut)

theorem glob_eq (pattern name : String) : glob pattern name = true ↔
    match Text.splitOnce pattern "*" with
    | none => Text.eqIgnoreAsciiCase pattern name = true
    | some (front, back) => Text.startsWith name front = true ∧ Text.endsWith name back = true := by
  unfold glob
  split
  case isTrue whole =>
    subst whole
    have cut : Text.splitOnce "*" "*" = some ("", "") := by decide
    rw [cut]
    exact iff_of_true rfl ⟨startsWith_iff.2 List.nil_prefix, endsWith_iff.2 List.nil_suffix⟩
  case isFalse =>
    cases Text.splitOnce pattern "*" with
    | none => exact Iff.rfl
    | some halves => exact Bool.and_eq_true_iff

theorem glob_iff (pattern name : String) : modelGlobMatches pattern name = true ↔
    Fits pattern name ∨ Overreaches pattern name := by
  rw [modelGlobMatches, glob_eq, Fits, Overreaches]
  cases Text.splitOnce pattern "*" with
  | none =>
    have itself : Text.eqIgnoreAsciiCase pattern pattern = true := beq_self_eq_true _
    by_cases same : pattern = name
    · subst same
      exact iff_of_true itself (.inl rfl)
    · exact ⟨fun cased => .inr ⟨cased, same⟩, fun either => (either.resolve_left same).1⟩
  | some halves =>
    obtain ⟨front, back⟩ := halves
    dsimp only
    rcases Nat.lt_or_ge name.length (front.length + back.length) with short | long
    · exact ⟨fun ends => .inr ⟨ends.1, ends.2, short⟩,
        fun either => either.elim (fun fits => ⟨fits.1, fits.2.1⟩) fun beyond => ⟨beyond.1, beyond.2.1⟩⟩
    · exact ⟨fun ends => .inl ⟨ends.1, ends.2, long⟩,
        fun either => either.elim (fun fits => ⟨fits.1, fits.2.1⟩) fun beyond => ⟨beyond.1, beyond.2.1⟩⟩

theorem means_iff (pattern name : String) : Means pattern name ↔ Fits pattern name ∨ FallsShort pattern name := by
  rw [Means, Fits, FallsShort]
  cases cut : Text.splitOnce pattern "*" with
  | none =>
    rw [Glob.expands_plain (splitOnce_starless cut), or_false, String.toList_inj, eq_comm]
  | some halves =>
    obtain ⟨front, back⟩ := halves
    obtain ⟨whole, plain⟩ := splitOnce_star cut
    rw [whole]
    dsimp only
    rw [startsWith_iff, endsWith_iff]
    constructor
    · intro expands
      obtain ⟨between, rest, same, behind⟩ := (Glob.expands_cut plain).1 expands
      have starts : front.toList <+: name.toList := ⟨_, same.symm⟩
      by_cases ends : back.toList <:+ name.toList
      · left
        refine ⟨starts, ends, Nat.le_of_not_lt fun short => ?_⟩
        exact Glob.not_expands_of_overlap plain starts ends short expands
      · right
        refine ⟨?_, Bool.eq_false_iff.2 fun found => ends (endsWith_iff.1 found), String.ofList between,
          String.ofList rest, ?_, ?_⟩
        · by_contra starless
          rw [Glob.expands_plain starless] at behind
          exact ends ⟨front.toList ++ between, by rw [same, behind, List.append_assoc]⟩
        · rw [← String.toList_inj, same]
          simp
        · rwa [Means, String.toList_ofList]
    · rintro (⟨starts, ends, long⟩ | ⟨_, _, between, rest, rfl, behind⟩)
      · exact Glob.expands_of_ends plain starts ends long
      · refine (Glob.expands_cut plain).2 ⟨between.toList, rest.toList, ?_, behind⟩
        rw [String.toList_append, String.toList_append]

theorem fits_exact {pattern name : String} (fits : Fits pattern name) :
    ¬ Overreaches pattern name ∧ ¬ FallsShort pattern name := by
  rw [Fits] at fits
  rw [Overreaches, FallsShort]
  cases cut : Text.splitOnce pattern "*" with
  | none =>
    rw [cut] at fits
    exact ⟨fun beyond => beyond.2 fits, fun false => false⟩
  | some halves =>
    rw [cut] at fits
    dsimp only at fits ⊢
    exact ⟨fun beyond => Nat.not_lt_of_ge fits.2.2 beyond.2.2, fun short => by
      rw [fits.2.1] at short
      exact Bool.noConfusion short.2.1⟩

theorem overreaches_exact {pattern name : String} (beyond : Overreaches pattern name) : ¬ FallsShort pattern name := by
  rw [Overreaches] at beyond
  rw [FallsShort]
  cases cut : Text.splitOnce pattern "*" with
  | none => exact fun false => false
  | some halves =>
    rw [cut] at beyond
    dsimp only at beyond ⊢
    intro short
    rw [beyond.2.1] at short
    exact Bool.noConfusion short.2.1

theorem glob_means_iff (pattern name : String) : (modelGlobMatches pattern name = true ↔ Means pattern name) ↔
    ¬ Overreaches pattern name ∧ ¬ FallsShort pattern name := by
  rw [glob_iff, means_iff]
  by_cases fits : Fits pattern name
  · exact iff_of_true (iff_of_true (.inl fits) (.inl fits)) (fits_exact fits)
  · have other : Overreaches pattern name → ¬ FallsShort pattern name := overreaches_exact
    tauto

def names (providerId model : String) : List String := [model, qualified providerId model]

theorem modelIsAllowed_iff {allowedModels : List String} (restricted : allowedModels ≠ [])
    (providerId model : String) : modelIsAllowed allowedModels providerId model = true ↔
      ∃ pattern ∈ allowedModels, ∃ name ∈ names providerId model, modelGlobMatches pattern name = true := by
  rw [modelIsAllowed, if_neg (by simpa using restricted), List.any_eq_true]
  simp [names]

/-- What a pattern says is what decides, name by name, unless it overreaches or falls short. A list errs only
where no pattern fits a name and one of the two kinds of error happens without the other. -/
theorem permissions_mean_what_they_say (providerId model : String) :
    (∀ pattern, (modelGlobMatches pattern model = true ↔ Means pattern model) ↔
      ¬ Overreaches pattern model ∧ ¬ FallsShort pattern model) ∧
    ∀ allowedModels, allowedModels ≠ [] →
      ((modelIsAllowed allowedModels providerId model = true ↔
          ∃ pattern ∈ allowedModels, ∃ name ∈ names providerId model, Means pattern name) ↔
        (∃ pattern ∈ allowedModels, ∃ name ∈ names providerId model, Fits pattern name) ∨
        ((∃ pattern ∈ allowedModels, ∃ name ∈ names providerId model, Overreaches pattern name) ↔
          ∃ pattern ∈ allowedModels, ∃ name ∈ names providerId model, FallsShort pattern name)) := by
  refine ⟨fun pattern => glob_means_iff pattern model, fun allowedModels restricted => ?_⟩
  rw [modelIsAllowed_iff restricted]
  simp only [glob_iff, means_iff, and_or_left, exists_or]
  have cancel (a b c : Prop) : ((a ∨ b) ↔ (a ∨ c)) ↔ a ∨ (b ↔ c) := by tauto
  exact cancel _ _ _

theorem permissions_mean_what_they_say_mini :
    (modelIsAllowed ["gpt-4*", "*-mini"] "copilot" "o3-mini" = true ↔
      ∃ pattern ∈ ["gpt-4*", "*-mini"], ∃ name ∈ names "copilot" "o3-mini", Means pattern name) := by
  refine ((permissions_mean_what_they_say "copilot" "o3-mini").2 ["gpt-4*", "*-mini"] (List.cons_ne_nil _ _)).2 ?_
  refine .inl ⟨"*-mini", by simp, "o3-mini", by simp [names], ?_⟩
  have cut : Text.splitOnce "*-mini" "*" = some ("", "-mini") := by decide
  rw [Fits, cut]
  decide

/-- The hyphens of both ends overlap in `gpt-mini`; the second star of `claude-*-4*` is taken for itself. -/
theorem permissions_misread :
    ¬ (modelGlobMatches "gpt-*-mini" "gpt-mini" = true ↔ Means "gpt-*-mini" "gpt-mini") ∧
    ¬ (modelGlobMatches "claude-*-4*" "claude-sonnet-4-5" = true ↔ Means "claude-*-4*" "claude-sonnet-4-5") ∧
    modelIsAllowed ["gpt-*-mini"] "copilot" "gpt-mini" = true ∧
    modelIsAllowed ["claude-*-4*"] "kiro" "claude-sonnet-4-5" = false := by
  have mini : Text.splitOnce "gpt-*-mini" "*" = some ("gpt-", "-mini") := by decide
  have sonnet : Text.splitOnce "claude-*-4*" "*" = some ("claude-", "-4*") := by decide
  refine ⟨?_, ?_, by decide, by decide⟩
  · rw [glob_means_iff, not_and_or, not_not, Overreaches, mini]
    left
    decide
  · rw [glob_means_iff, not_and_or, not_not, not_not, FallsShort, sonnet]
    right
    refine ⟨by decide, by decide, "sonnet", "-4-5", by decide, ?_⟩
    rw [Means, show "-4*".toList = '-' :: '4' :: ['*'] by decide,
      show "-4-5".toList = '-' :: '4' :: (['-', '5'] ++ []) by decide]
    exact .item (by decide) (.item (by decide) (.wild _ .done))

end KiroProxy.ModelAllowed

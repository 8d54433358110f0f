import KiroProxy.Translate.ModelTiers

/-! The older model of its family that a request falls back to, and where a resolved or fallen-back model is of another tier. -/
namespace KiroProxy.ModelFallback

open Greatest ResolveModel

/-- `model_family` of the handlers: the numbers are the version, what stands in front of the first one the family. -/
def modelFamily (model : List Char) : Option (List Char × List Nat) :=
  let parts := (((model.map Char.toLower).map fun c => if c = '.' then '-' else c).splitOn '-').filter (· ≠ [])
  let family := parts.takeWhile fun part => (parseU32 part).isNone
  let version := parts.filterMap parseU32
  if family ≠ [] ∧ version ≠ [] then some (['-'].intercalate family, version) else none

/-- The version of an id in a family, where it is below the given one. -/
def olderIn (family : List Char) (version : List Nat) (id : String) : Option (List Nat) := do
  let (candidateFamily, candidateVersion) ← modelFamily id.toList
  if candidateFamily = family ∧ compare candidateVersion version = .lt then some candidateVersion else none

/-- Of the known models only the ids are read. -/
def findModelFallback (model : String) (models : List String) : Option String := do
  let (family, version) ← modelFamily model.toList
  (maxBy (fun left right => compare left.1 right.1)
    (models.filterMap fun id => (olderIn family version id).map (·, id))).map (·.2)

def versionIn (family : List Char) (id : String) : Option (List Nat) := do
  let (candidateFamily, version) ← ResolveModel.modelFamily id.toList
  if candidateFamily = family then some version else none

def Crosses (tier : List Char) (id : String) : Prop := ∃ other, Tells id.toList other ∧ other ≠ tier

/-- No id is the name, but for its spelling, and the greatest of the ids that extend the name or are extended by it
tells another tier, or there are none, no id has the words of the name, and the newest of its family does. -/
def ResolveStrays (tier : List Char) (model : String) (available : List String) : Prop :=
  (∀ id ∈ available, Text.eqIgnoreAsciiCase id model = false) ∧
  (∀ id ∈ available, normalizeModelName id.toList ≠ normalizeModelName (bare model)) ∧
  ((∃ id, Outlasts comparePrefixed (prefixed (normalizeModelName (bare model)) available) id ∧ Crosses tier id) ∨
    prefixed (normalizeModelName (bare model)) available = [] ∧ tokenMatched (bare model) available = [] ∧
      ∃ family version id, ResolveModel.modelFamily (bare model) = some (family, version) ∧
        Newest (versionIn family) compareVersion available id ∧ Crosses tier id)

def FallbackStrays (tier : List Char) (model : String) (models : List String) : Prop :=
  ∃ family version id, modelFamily model.toList = some (family, version) ∧
    Newest (olderIn family version) compare models id ∧ Crosses tier id

theorem familyVersions_keyed (family : List Char) (available : List String) :
    familyVersions family available = available.filterMap fun id => (versionIn family id).map (·, id) := by
  refine List.filterMap_congr fun id _ => ?_
  rw [versionIn]
  cases ResolveModel.modelFamily id.toList with
  | none => rfl
  | some found =>
    by_cases same : found.1 = family
    · simp [same]
    · simp [same]

theorem kept_iff {tier : List Char} {id : String} :
    ((∃ told, Tells id.toList told) → ∀ told, Tells id.toList told ↔ told = tier) ↔ ¬ Crosses tier id := by
  constructor
  · rintro kept ⟨other, told, differs⟩
    exact differs ((kept ⟨other, told⟩ other).1 told)
  · rintro within ⟨some, told⟩ other
    have only (other : List Char) (told : Tells id.toList other) : other = tier := by
      by_contra differs
      exact within ⟨other, told, differs⟩
    refine ⟨only other, ?_⟩
    rintro rfl
    exact only some told ▸ told

theorem resolve_crosses_iff {model : String} {tier : List Char}
    (one : ∀ told, Tells model.toList told ↔ told = tier) (available : List String) :
    (∃ id, resolveDynamicModel model available = some id ∧ Crosses tier id) ↔ ResolveStrays tier model available := by
  rw [resolve_eq, ResolveStrays]
  cases exact : available.find? fun id => Text.eqIgnoreAsciiCase id model with
  | some id =>
    have found := List.find?_some (p := fun id => Text.eqIgnoreAsciiCase id model) exact
    have member := List.mem_of_find?_eq_some exact
    apply iff_of_false
    · rintro ⟨id', same, other, told, differs⟩
      obtain rfl : id = id' := Option.some.inj same
      exact differs ((one other).1 ((tells_spelling found).1 told))
    · rintro ⟨never, -⟩
      rw [never id member] at found
      cases found
  | none =>
    have never : ∀ id ∈ available, Text.eqIgnoreAsciiCase id model = false := fun id member =>
      Bool.eq_false_iff.2 (List.find?_eq_none.1 exact id member)
    rw [and_iff_right never, Option.none_or]
    cases normal : available.find? fun id => normalizeModelName id.toList = normalizeModelName (bare model) with
    | some id =>
      obtain ⟨member, same⟩ := found_spelled normal
      rw [Option.some_or]
      apply iff_of_false
      · rintro ⟨id', ⟨⟩, other, told, differs⟩
        have normalized := tells_normalized told
        rw [same] at normalized
        have itself : Tells (bare model) tier := tells_bare.2 ((one tier).2 rfl)
        exact differs ((one other).1 (tells_bare.1 (tells_of_normalized itself normalized)))
      · rintro ⟨nowhere, -⟩
        exact nowhere id member same
    | none =>
      have nowhere : ∀ id ∈ available, normalizeModelName id.toList ≠ normalizeModelName (bare model) :=
        fun id member same => none_spelled normal ⟨id, member, same⟩
      rw [and_iff_right nowhere, Option.none_or, nearest]
      simp only [← maxBy_eq_some_iff_outlasts]
      cases begun : maxBy comparePrefixed (prefixed (normalizeModelName (bare model)) available) with
      | some best =>
        have some : prefixed (normalizeModelName (bare model)) available ≠ [] := by
          intro empty
          rw [maxBy_eq_none.2 empty] at begun
          cases begun
        rw [Option.some_or, or_iff_left fun none => some none.1]
      | none =>
        rw [Option.none_or, or_iff_right (by rintro ⟨id, ⟨⟩, -⟩), and_iff_right (maxBy_eq_none.1 begun)]
        cases matched : maxBy compareTokenMatches (tokenMatched (bare model) available) with
        | some best =>
          have among := maxBy_mem matched
          rw [Option.some_or]
          apply iff_of_false
          · rintro ⟨id, ⟨⟩, other, told, differs⟩
            have same : Tells best.toList other ↔ Tells (bare model) other :=
              tells_tokenMatch (List.mem_filter.1 among).2
            exact differs ((one other).1 (tells_bare.1 (same.1 told)))
          · rintro ⟨none, -⟩
            rw [none] at among
            cases among
        | none =>
          rw [Option.none_or, and_iff_right (maxBy_eq_none.1 matched)]
          cases ResolveModel.modelFamily (bare model) with
          | none => exact iff_of_false (by rintro ⟨id, ⟨⟩, -⟩) (by rintro ⟨family, version, id, ⟨⟩, -⟩)
          | some found =>
            have newest (id : String) : maxBy compareNewest (sameFamily found.1 available) = some id ↔
                Newest (versionIn found.1) compareVersion available id := by
              rw [← newest_eq, familyVersions_keyed, newest_iff]
            constructor
            · rintro ⟨id, chosen, crosses⟩
              exact ⟨found.1, found.2, id, rfl, (newest id).1 chosen, crosses⟩
            · rintro ⟨family, version, id, ⟨⟩, chosen, crosses⟩
              exact ⟨id, (newest id).2 chosen, crosses⟩

theorem fallback_crosses_iff (tier : List Char) (model : String) (models : List String) :
    (∃ id, findModelFallback model models = some id ∧ Crosses tier id) ↔ FallbackStrays tier model models := by
  unfold findModelFallback FallbackStrays
  cases modelFamily model.toList with
  | none => exact iff_of_false (by rintro ⟨id, ⟨⟩, -⟩) (by rintro ⟨family, version, id, ⟨⟩, -⟩)
  | some found =>
    obtain ⟨family, version⟩ := found
    constructor
    · rintro ⟨id, chosen, crosses⟩
      exact ⟨family, version, id, rfl, newest_iff.1 chosen, crosses⟩
    · rintro ⟨_, _, id, ⟨⟩, chosen, crosses⟩
      exact ⟨id, newest_iff.2 chosen, crosses⟩

theorem tells_one {cs : List Char} {tier : List Char} (only : (claudeFamilies.filter ((words cs).contains ·)) = [tier])
    (told : List Char) : Tells cs told ↔ told = tier := by
  have both : told ∈ claudeFamilies.filter ((words cs).contains ·) ↔
      told ∈ claudeFamilies ∧ (words cs).contains told = true := List.mem_filter
  rw [only, List.mem_singleton, List.contains_iff_mem] at both
  exact both.symm

end KiroProxy.ModelFallback

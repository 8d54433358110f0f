import KiroProxy.Translate.ResolveModel
import Mathlib.Data.List.Pairwise

/-! Where the resolved model depends on the order in which an account's ids are listed. -/
namespace KiroProxy.ResolveModel

open Greatest

section Version

def padded (size : Nat) (version : List Nat) : List Nat := (List.range size).map fun index => version[index]?.getD 0

theorem firstDifference_eq (f g : Nat → Nat) (indices : List Nat) :
    ((indices.map fun index => compare (f index) (g index)).find? (· ≠ .eq)).getD .eq =
      List.compareLex compare (indices.map f) (indices.map g) := by
  induction indices with
  | nil => rfl
  | cons index rest ih =>
    rw [List.map_cons, List.map_cons, List.map_cons, List.compareLex_cons_cons, ← ih]
    cases same : compare (f index) (g index) <;> simp

theorem compareVersion_padded {left right : List Nat} {size : Nat} (leftFits : left.length ≤ size)
    (rightFits : right.length ≤ size) :
    compareVersion left right = List.compareLex compare (padded size left) (padded size right) := by
  obtain ⟨more, rfl⟩ := Nat.exists_eq_add_of_le (Nat.max_le.2 ⟨leftFits, rightFits⟩)
  have beyond : ((((List.range more).map fun index => max left.length right.length + index).map fun index =>
      compare (left[index]?.getD 0) (right[index]?.getD 0)).find? (· ≠ .eq)) = none := by
    rw [List.find?_eq_none]
    intro ordering member differs
    obtain ⟨index, there, rfl⟩ := List.mem_map.1 member
    obtain ⟨step, -, rfl⟩ := List.mem_map.1 there
    rw [List.getElem?_eq_none (by omega), List.getElem?_eq_none (by omega)] at differs
    simp at differs
  rw [padded, padded, ← firstDifference_eq, List.range_add, List.map_append, List.find?_append, beyond,
    Option.or_none]
  rfl

instance compareVersion_trans : Std.TransCmp compareVersion where
  eq_swap {a b} := by
    rw [compareVersion_padded (Nat.le_max_left a.length b.length) (Nat.le_max_right a.length b.length),
      compareVersion_padded (Nat.le_max_right a.length b.length) (Nat.le_max_left a.length b.length)]
    exact Std.OrientedCmp.eq_swap
  isLE_trans {a b c} first second := by
    have ha : a.length ≤ a.length + b.length + c.length := by omega
    have hb : b.length ≤ a.length + b.length + c.length := by omega
    have hc : c.length ≤ a.length + b.length + c.length := by omega
    rw [compareVersion_padded ha hb] at first
    rw [compareVersion_padded hb hc] at second
    rw [compareVersion_padded ha hc]
    exact Std.TransCmp.isLE_trans first second

end Version

instance comparePrefixed_oriented : Std.OrientedCmp comparePrefixed where
  eq_swap {a b} := by
    have texts : compare (normalizeModelName a.toList) (normalizeModelName b.toList) =
        (compare (normalizeModelName b.toList) (normalizeModelName a.toList)).swap := Std.OrientedCmp.eq_swap
    unfold comparePrefixed
    cases modelFamily a.toList with
    | none =>
      cases modelFamily b.toList <;> exact texts
    | some left =>
      cases modelFamily b.toList with
      | none => exact texts
      | some right =>
        dsimp only
        by_cases same : left.1 = right.1
        · rw [if_pos same, if_pos same.symm]
          exact Std.OrientedCmp.eq_swap
        · rw [if_neg same, if_neg (Ne.symm same)]
          exact texts

theorem compareShortest_swap (a b : String) : compareShortest a b = (compareShortest b a).swap := by
  rw [compareShortest, compareShortest, Ordering.swap_then]
  congr 1
  · exact Std.OrientedCmp.eq_swap
  · exact Std.OrientedCmp.eq_swap

instance compareTokenMatches_oriented : Std.OrientedCmp compareTokenMatches where
  eq_swap {a b} := by
    have shortest := compareShortest_swap a b
    unfold compareTokenMatches
    cases modelFamily a.toList with
    | none =>
      cases modelFamily b.toList <;> exact shortest
    | some left =>
      cases modelFamily b.toList with
      | none => exact shortest
      | some right =>
        dsimp only
        by_cases same : left.1 = right.1
        · rw [if_pos same, if_pos same.symm, Ordering.swap_then, ← shortest]
          congr 1
          exact Std.OrientedCmp.eq_swap
        · rw [if_neg same, if_neg (Ne.symm same)]
          exact shortest

def versionOf (id : String) : List Nat := ((modelFamily id.toList).map (·.2)).getD []

def sameFamily (family : List Char) (available : List String) : List String :=
  available.filter fun id => (modelFamily id.toList).any (·.1 = family)

def compareNewest (left right : String) : Ordering := compareVersion (versionOf left) (versionOf right)

instance compareNewest_trans : Std.TransCmp compareNewest where
  eq_swap := compareVersion_trans.eq_swap
  isLE_trans := compareVersion_trans.isLE_trans

theorem familyVersions_eq (family : List Char) (available : List String) :
    familyVersions family available = (sameFamily family available).map fun id => (versionOf id, id) := by
  induction available with
  | nil => rfl
  | cons id rest ih =>
    unfold familyVersions sameFamily at ih ⊢
    rw [List.filterMap_cons, List.filter_cons, ih]
    cases known : modelFamily id.toList with
    | none => rfl
    | some found =>
      have version : versionOf id = found.2 := by
        rw [versionOf, known]
        rfl
      by_cases same : found.1 = family
      · simp [same, version]
      · simp [same]

theorem newest_eq (family : List Char) (available : List String) :
    (maxBy (fun left right => compareVersion left.1 right.1) (familyVersions family available)).map (·.2) =
      maxBy compareNewest (sameFamily family available) := by
  rw [familyVersions_eq]
  exact maxBy_key compareVersion versionOf _

theorem find?_perm {p : String → Bool} {ids available : List String}
    (unique : ∀ a ∈ available, ∀ b ∈ available, p a = true → p b = true → a = b) (same : ids.Perm available) :
    ids.find? p = available.find? p := by
  cases found : available.find? p with
  | none =>
    rw [List.find?_eq_none] at found ⊢
    exact fun id member => found id (same.mem_iff.1 member)
  | some id =>
    have holds := List.find?_some found
    have member := List.mem_of_find?_eq_some found
    cases other : ids.find? p with
    | none =>
      rw [List.find?_eq_none] at other
      exact absurd holds (other id (same.mem_iff.2 member))
    | some id' =>
      have holds' := List.find?_some other
      have member' := same.mem_iff.1 (List.mem_of_find?_eq_some other)
      rw [unique id' member' id member holds' holds]

theorem isWhitespace_toLower (c : Char) : Text.isWhitespace c.toLower = Text.isWhitespace c := by
  by_cases upper : 'A'.val ≤ c.val ∧ c.val ≤ 'Z'.val
  · have range : ∀ n, 65 ≤ n → n ≤ 90 →
        Text.isWhitespace (Char.ofNat n).toLower = Text.isWhitespace (Char.ofNat n) := by decide
    have bounds : 65 ≤ c.toNat ∧ c.toNat ≤ 90 := upper
    have here := range c.toNat bounds.1 bounds.2
    rwa [Char.ofNat_toNat] at here
  · rw [show c.toLower = c from dif_neg upper]

theorem trimChars_lower (cs : List Char) :
    (Text.trimChars cs).map Char.toLower = Text.trimChars (cs.map Char.toLower) := by
  have same : (Text.isWhitespace ∘ Char.toLower) = Text.isWhitespace := funext isWhitespace_toLower
  simp only [Text.trimChars, List.rdropWhile, List.dropWhile_map, same, ← List.map_reverse]

theorem normalizeModelName_congr {cs ds : List Char} (same : cs.map Char.toLower = ds.map Char.toLower) :
    normalizeModelName cs = normalizeModelName ds := by
  have plain : plainName cs = plainName ds := by
    rw [plainName, plainName, trimChars_lower, trimChars_lower, same]
  rw [normalizeModelName, normalizeModelName, plain]

def bare (model : String) : List Char := (ModelMapping.stripDiscoveryPrefix model).toList

/-- The id that comes nearest: the greatest that extends the name or is extended by it, else the greatest with the
name's words, else the newest of its family. -/
def nearest (model : List Char) (available : List String) : Option String :=
  (maxBy comparePrefixed (prefixed (normalizeModelName model) available)).or
    ((maxBy compareTokenMatches (tokenMatched model available)).or
      ((modelFamily model).bind fun found => maxBy compareNewest (sameFamily found.1 available)))

theorem resolve_eq (model : String) (available : List String) : resolveDynamicModel model available =
    (available.find? fun id => Text.eqIgnoreAsciiCase id model).or
      ((available.find? fun id => normalizeModelName id.toList = normalizeModelName (bare model)).or
        (nearest (bare model) available)) := by
  unfold resolveDynamicModel nearest
  split
  case isTrue empty =>
    rw [List.isEmpty_iff.1 empty]
    cases modelFamily (bare model) <;> rfl
  case isFalse =>
    cases available.find? fun id => Text.eqIgnoreAsciiCase id model with
    | some id => rfl
    | none =>
      rw [Option.none_or]
      dsimp only
      rw [← bare]
      cases available.find? fun id => normalizeModelName id.toList = normalizeModelName (bare model) with
      | some id => rfl
      | none =>
        rw [Option.none_or]
        cases maxBy comparePrefixed (prefixed (normalizeModelName (bare model)) available) with
        | some id => rfl
        | none =>
          rw [Option.none_or]
          cases maxBy compareTokenMatches (tokenMatched (bare model) available) with
          | some id => rfl
          | none =>
            rw [Option.none_or]
            cases modelFamily (bare model) with
            | none => rfl
            | some found => exact newest_eq found.1 available

def Unrivalled (cmp : String → String → Ordering) (ids : List String) : Prop :=
  ids = [] ∨ ∃ best, Champion cmp ids best

/-- An id is the name, but for its spelling, or the comparison that decides has one winner. -/
def Settled (model : String) (available : List String) : Prop :=
  (∃ id ∈ available, Text.eqIgnoreAsciiCase id model = true) ∨
  (∃ id ∈ available, normalizeModelName id.toList = normalizeModelName (bare model)) ∨
  Unrivalled comparePrefixed (prefixed (normalizeModelName (bare model)) available) ∧
    (prefixed (normalizeModelName (bare model)) available = [] →
      Unrivalled compareTokenMatches (tokenMatched (bare model) available) ∧
        (tokenMatched (bare model) available = [] → ∀ family version,
          modelFamily (bare model) = some (family, version) → Unrivalled compareNewest (sameFamily family available)))

theorem stage_perm_iff {cmp : String → String → Ordering} [Std.OrientedCmp cmp] {p : String → Bool}
    {available : List String} {next : List String → Option String} :
    (∀ ids : List String, ids.Perm available →
        (maxBy cmp (ids.filter p)).or (next ids) = (maxBy cmp (available.filter p)).or (next available)) ↔
      Unrivalled cmp (available.filter p) ∧
        (available.filter p = [] → ∀ ids : List String, ids.Perm available → next ids = next available) := by
  rw [Unrivalled, ← maxBy_filter_perm_iff]
  by_cases empty : available.filter p = []
  · have alike (ids : List String) (same : ids.Perm available) : ids.filter p = [] := by
      have moved := same.filter p
      rw [empty] at moved
      exact List.perm_nil.1 moved
    constructor
    · intro fixed
      refine ⟨fun ids same => by rw [alike ids same, empty], fun _ ids same => ?_⟩
      have both := fixed ids same
      rwa [alike ids same, empty] at both
    · intro fixed ids same
      rw [alike ids same, empty, fixed.2 empty ids same]
  · have some (ids : List String) (same : ids.Perm available) : ∃ id, maxBy cmp (ids.filter p) = some id := by
      rw [← Option.ne_none_iff_exists', Ne, maxBy_eq_none]
      intro none
      have moved := same.filter p
      rw [none] at moved
      exact empty (List.nil_perm.1 moved)
    obtain ⟨id, here⟩ := some available (List.Perm.refl _)
    constructor
    · intro fixed
      refine ⟨fun ids same => ?_, fun none => absurd none empty⟩
      obtain ⟨id', there⟩ := some ids same
      have both := fixed ids same
      rw [there, here] at both ⊢
      exact both
    · intro fixed ids same
      rw [fixed.1 ids same, here]
      rfl

theorem nearest_perm_iff (model : List Char) (available : List String) :
    (∀ ids : List String, ids.Perm available → nearest model ids = nearest model available) ↔
      Unrivalled comparePrefixed (prefixed (normalizeModelName model) available) ∧
        (prefixed (normalizeModelName model) available = [] →
          Unrivalled compareTokenMatches (tokenMatched model available) ∧
            (tokenMatched model available = [] → ∀ family version,
              modelFamily model = some (family, version) → Unrivalled compareNewest (sameFamily family available))) := by
  have newest : (∀ ids : List String, ids.Perm available →
      ((modelFamily model).bind fun found => maxBy compareNewest (sameFamily found.1 ids)) =
        (modelFamily model).bind fun found => maxBy compareNewest (sameFamily found.1 available)) ↔
      ∀ family version, modelFamily model = some (family, version) →
        Unrivalled compareNewest (sameFamily family available) := by
    cases modelFamily model with
    | none => exact iff_of_true (fun _ _ => rfl) fun _ _ other => nomatch other
    | some found =>
      obtain ⟨family, version⟩ := found
      have one : (∀ ids : List String, ids.Perm available →
          maxBy compareNewest (sameFamily family ids) = maxBy compareNewest (sameFamily family available)) ↔
          Unrivalled compareNewest (sameFamily family available) := maxBy_filter_perm_iff _
      constructor
      · rintro fixed _ _ ⟨⟩
        exact one.1 fixed
      · exact fun unrivalled => one.2 (unrivalled family version rfl)
  unfold nearest prefixed
  refine stage_perm_iff.trans (and_congr_right fun _ => imp_congr_right fun _ => ?_)
  unfold tokenMatched
  exact stage_perm_iff.trans (and_congr_right fun _ => imp_congr_right fun _ => newest)

theorem found_spelled {β : Type} [DecidableEq β] {f : String → β} {b : β} {ids : List String} {id : String}
    (found : (ids.find? fun id => f id = b) = some id) : id ∈ ids ∧ f id = b :=
  ⟨List.mem_of_find?_eq_some found, by simpa using List.find?_some found⟩

theorem none_spelled {β : Type} [DecidableEq β] {f : String → β} {b : β} {ids : List String}
    (none : (ids.find? fun id => f id = b) = none) : ¬ ∃ id ∈ ids, f id = b := by
  rintro ⟨id, member, same⟩
  exact List.find?_eq_none.1 none id member (decide_eq_true same)

theorem exact_alike {model : String} {a b : String} (left : Text.eqIgnoreAsciiCase a model = true)
    (right : Text.eqIgnoreAsciiCase b model = true) : normalizeModelName a.toList = normalizeModelName b.toList :=
  normalizeModelName_congr ((beq_iff_eq.1 left).trans (beq_iff_eq.1 right).symm)

/-- Every order of the list gives one answer exactly when the deciding comparison has one winner. -/
theorem resolve_order_iff (model : String) {available : List String}
    (distinct : available.Pairwise fun a b => normalizeModelName a.toList ≠ normalizeModelName b.toList) :
    (∀ one other : List String, one.Perm available → other.Perm available →
        resolveDynamicModel model one = resolveDynamicModel model other) ↔ Settled model available := by
  have symmetric : Std.Symm fun a b : String => normalizeModelName a.toList ≠ normalizeModelName b.toList :=
    ⟨fun _ _ unlike => unlike.symm⟩
  have apart : ∀ a ∈ available, ∀ b ∈ available, normalizeModelName a.toList = normalizeModelName b.toList → a = b := by
    intro a here b there alike
    by_contra differ
    exact distinct.forall here there differ alike
  have exactly (ids : List String) (same : ids.Perm available) :
      (ids.find? fun id => Text.eqIgnoreAsciiCase id model) = available.find? fun id => Text.eqIgnoreAsciiCase id model :=
    find?_perm (fun a here b there left right => apart a here b there (exact_alike left right)) same
  have normally (ids : List String) (same : ids.Perm available) :
      (ids.find? fun id => normalizeModelName id.toList = normalizeModelName (bare model)) =
        available.find? fun id => normalizeModelName id.toList = normalizeModelName (bare model) := by
    apply find?_perm _ same
    intro a here b there left right
    exact apart a here b there ((of_decide_eq_true left).trans (of_decide_eq_true right).symm)
  -- it is enough to compare each order with the order at hand
  have based : (∀ one other : List String, one.Perm available → other.Perm available →
      resolveDynamicModel model one = resolveDynamicModel model other) ↔
      ∀ ids : List String, ids.Perm available → resolveDynamicModel model ids = resolveDynamicModel model available :=
    ⟨fun fixed ids same => fixed ids available same (.refl _),
      fun fixed one other first second => (fixed one first).trans (fixed other second).symm⟩
  rw [based, Settled, ← nearest_perm_iff]
  simp only [resolve_eq]
  cases first : available.find? fun id => Text.eqIgnoreAsciiCase id model with
  | some id =>
    have found := List.find?_some (p := fun id => Text.eqIgnoreAsciiCase id model) first
    refine iff_of_true (fun ids same => ?_) (.inl ⟨id, List.mem_of_find?_eq_some first, found⟩)
    rw [exactly ids same, first]
    rfl
  | none =>
    have never : ¬ ∃ id ∈ available, Text.eqIgnoreAsciiCase id model = true := by
      rintro ⟨id, member, found⟩
      exact List.find?_eq_none.1 first id member found
    rw [or_iff_right never]
    cases second : available.find? fun id => normalizeModelName id.toList = normalizeModelName (bare model) with
    | some id =>
      have spelled := found_spelled (f := fun id : String => normalizeModelName id.toList) second
      refine iff_of_true (fun ids same => ?_) (.inl ⟨id, spelled⟩)
      rw [exactly ids same, first, normally ids same, second]
      rfl
    | none =>
      have unspelled := none_spelled (f := fun id : String => normalizeModelName id.toList) second
      rw [or_iff_right unspelled]
      refine forall₂_congr fun ids same => ?_
      rw [exactly ids same, first, normally ids same, second]
      rfl

theorem resolve_order_iff_opus :
    resolveDynamicModel "claude-opus" ["claude-opus-4", "claude-opus-5"] =
      resolveDynamicModel "claude-opus" ["claude-opus-5", "claude-opus-4"] := by
  refine (resolve_order_iff "claude-opus" (by decide)).2 (.inr (.inr ?_)) _ _ (.refl _) (.swap _ _ _)
  have both : prefixed (normalizeModelName (bare "claude-opus")) ["claude-opus-4", "claude-opus-5"] =
      ["claude-opus-4", "claude-opus-5"] := by decide
  rw [both]
  refine ⟨.inr ⟨"claude-opus-5", by simp, ?_⟩, fun none => nomatch none⟩
  intro x member other
  obtain rfl : x = "claude-opus-4" := by simpa [other] using member
  decide

/-- A missing component is a 0, and of two ids that tie the later one in the list is taken. -/
theorem resolve_order_matters :
    ["claude-opus-4", "claude-opus-4-0"].Pairwise
      (fun a b => normalizeModelName a.toList ≠ normalizeModelName b.toList) ∧
    ["claude-opus-4-0", "claude-opus-4"].Perm ["claude-opus-4", "claude-opus-4-0"] ∧
    resolveDynamicModel "claude-opus" ["claude-opus-4", "claude-opus-4-0"] = some "claude-opus-4-0" ∧
    resolveDynamicModel "claude-opus" ["claude-opus-4-0", "claude-opus-4"] = some "claude-opus-4" := by
  refine ⟨by decide, .swap _ _ [], by decide, by decide⟩

end KiroProxy.ResolveModel

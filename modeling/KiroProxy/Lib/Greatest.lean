import Mathlib.Data.List.Induction
import Mathlib.Data.List.Perm.Basic
import Mathlib.Order.Defs.LinearOrder

/-! The greatest item of a list under a comparison that may have ties and may not be transitive. -/
namespace KiroProxy.Greatest

variable {α β : Type} {cmp : α → α → Ordering} {xs : List α} {best x : α}

def later (cmp : α → α → Ordering) (best x : α) : α := if cmp best x = .gt then best else x

/-- The items one after the other, each compared with the best one so far. -/
def maxBy (cmp : α → α → Ordering) : List α → Option α
  | [] => none
  | x :: rest => some (rest.foldl (later cmp) x)

theorem maxBy_concat (xs : List α) (x : α) :
    maxBy cmp (xs ++ [x]) = some ((maxBy cmp xs).elim x fun best => later cmp best x) := by
  cases xs with
  | nil => rfl
  | cons y rest =>
    rw [List.cons_append, maxBy, maxBy, List.foldl_append]
    rfl

@[simp] theorem maxBy_eq_none : maxBy cmp xs = none ↔ xs = [] := by
  cases xs <;> simp [maxBy]

theorem maxBy_mem (chosen : maxBy cmp xs = some best) : best ∈ xs := by
  induction xs using List.reverseRecOn generalizing best with
  | nil => cases chosen
  | append_singleton xs x ih =>
    rw [maxBy_concat] at chosen
    cases before : maxBy cmp xs with
    | none =>
      rw [before] at chosen
      cases chosen
      exact List.mem_append_right _ List.mem_cons_self
    | some champion =>
      rw [before] at chosen
      obtain rfl : later cmp champion x = best := Option.some.inj chosen
      unfold later
      split
      · exact List.mem_append_left _ (ih before)
      · exact List.mem_append_right _ List.mem_cons_self

theorem maxBy_map (cmp : β → β → Ordering) (f : α → β) (xs : List α) :
    maxBy cmp (xs.map f) = (maxBy (fun a b => cmp (f a) (f b)) xs).map f := by
  induction xs using List.reverseRecOn with
  | nil => rfl
  | append_singleton xs x ih =>
    rw [List.map_append, List.map_singleton, maxBy_concat, maxBy_concat, ih, Option.map_some]
    cases maxBy (fun a b => cmp (f a) (f b)) xs with
    | none => rfl
    | some best =>
      simp only [Option.map_some, Option.elim_some, later, apply_ite f]

theorem maxBy_key (cmp : β → β → Ordering) (key : α → β) (xs : List α) :
    (maxBy (fun left right => cmp left.1 right.1) (xs.map fun x => (key x, x))).map (·.2) =
      maxBy (fun a b => cmp (key a) (key b)) xs := by
  rw [maxBy_map, Option.map_map]
  exact Option.map_id_apply

structure Champion (cmp : α → α → Ordering) (xs : List α) (best : α) : Prop where
  mem : best ∈ xs
  above : ∀ x ∈ xs, x ≠ best → cmp best x = .gt

theorem Champion.perm {ys : List α} (champion : Champion cmp xs best) (same : ys.Perm xs) : Champion cmp ys best where
  mem := same.mem_iff.2 champion.mem
  above x member := champion.above x (same.mem_iff.1 member)

theorem Champion.maxBy [Std.OrientedCmp cmp] (champion : Champion cmp xs best) : maxBy cmp xs = some best := by
  -- once the champion has been met, it stays the best
  have met (ys : List α) (within : ∀ y ∈ ys, y ∈ xs) (member : best ∈ ys) : Greatest.maxBy cmp ys = some best := by
    induction ys using List.reverseRecOn with
    | nil => exact absurd member List.not_mem_nil
    | append_singleton ys y ih =>
      rw [maxBy_concat]
      have within' : ∀ z ∈ ys, z ∈ xs := fun z there => within z (List.mem_append_left _ there)
      have here : y ∈ xs := within y (List.mem_append_right _ List.mem_cons_self)
      by_cases before : best ∈ ys
      · rw [ih within' before]
        by_cases same : y = best
        · simp [later, same]
        · simp [later, champion.above y here same]
      · obtain rfl : best = y := by simpa [before] using member
        cases earlier : Greatest.maxBy cmp ys with
        | none => rfl
        | some other =>
          have there := maxBy_mem earlier
          have apart : other ≠ best := fun same => before (same ▸ there)
          have less := Std.OrientedCmp.lt_of_gt (champion.above other (within' other there) apart)
          simp [later, less]
  exact met xs (fun _ member => member) champion.mem

theorem maxBy_perm_iff [DecidableEq α] [Std.OrientedCmp cmp] :
    (∀ ys, ys.Perm xs → maxBy cmp ys = maxBy cmp xs) ↔ xs = [] ∨ ∃ best, Champion cmp xs best := by
  constructor
  · intro fixed
    cases chosen : maxBy cmp xs with
    | none => exact .inl (maxBy_eq_none.1 chosen)
    | some best =>
      refine .inr ⟨best, maxBy_mem chosen, fun x member other => ?_⟩
      -- with this item in the last place
      have last := fixed (xs.erase x ++ [x]) ((List.perm_append_singleton _ _).trans (List.perm_cons_erase member).symm)
      rw [chosen, maxBy_concat] at last
      cases earlier : maxBy cmp (xs.erase x) with
      | none =>
        rw [earlier] at last
        exact absurd (Option.some.inj last) other
      | some before =>
        rw [earlier] at last
        have kept : later cmp before x = best := Option.some.inj last
        unfold later at kept
        split at kept
        case isTrue greater => exact kept ▸ greater
        case isFalse => exact absurd kept other
  · rintro (rfl | ⟨best, champion⟩) ys same
    · rw [List.perm_nil.1 same]
    · rw [champion.maxBy, (champion.perm same).maxBy]

theorem maxBy_filter_perm_iff [DecidableEq α] [Std.OrientedCmp cmp] (p : α → Bool) :
    (∀ ys : List α, ys.Perm xs → maxBy cmp (ys.filter p) = maxBy cmp (xs.filter p)) ↔
      xs.filter p = [] ∨ ∃ best, Champion cmp (xs.filter p) best := by
  rw [← maxBy_perm_iff]
  constructor
  · intro fixed ys same
    have whole : (ys ++ xs.filter (!p ·)).Perm xs :=
      (same.append_right _).trans (List.filter_append_perm p xs)
    have kept : ys.filter p = ys := by
      rw [List.filter_eq_self]
      exact fun y member => (List.mem_filter.1 (same.mem_iff.1 member)).2
    have dropped : (xs.filter (!p ·)).filter p = [] := by
      rw [List.filter_eq_nil_iff]
      intro y member holds
      have fails := (List.mem_filter.1 member).2
      rw [holds] at fails
      cases fails
    have moved := fixed _ whole
    rwa [List.filter_append, kept, dropped, List.append_nil] at moved
  · exact fun fixed ys same => fixed _ (same.filter p)

/-- Not below the greatest of those in front of it, and above each of those behind it. -/
def Outlasts (cmp : α → α → Ordering) (xs : List α) (best : α) : Prop :=
  ∃ front back, xs = front ++ best :: back ∧ (∀ before, maxBy cmp front = some before → cmp before best ≠ .gt) ∧
    ∀ x ∈ back, cmp best x = .gt

theorem maxBy_eq_some_iff_outlasts : maxBy cmp xs = some best ↔ Outlasts cmp xs best := by
  constructor
  · intro chosen
    induction xs using List.reverseRecOn generalizing best with
    | nil => cases chosen
    | append_singleton xs x ih =>
      rw [maxBy_concat] at chosen
      cases earlier : maxBy cmp xs with
      | none =>
        rw [earlier] at chosen
        obtain rfl : x = best := Option.some.inj chosen
        refine ⟨xs, [], rfl, fun before found => ?_, by simp⟩
        rw [earlier] at found
        cases found
      | some before =>
        rw [earlier] at chosen
        have kept : later cmp before x = best := Option.some.inj chosen
        unfold later at kept
        split at kept
        case isTrue greater =>
          subst kept
          obtain ⟨front, back, rfl, below, above⟩ := ih earlier
          refine ⟨front, back ++ [x], by simp, below, fun y member => ?_⟩
          rcases List.mem_append.1 member with there | here
          · exact above y there
          · rw [List.mem_singleton.1 here]
            exact greater
        case isFalse notGreater =>
          subst kept
          refine ⟨xs, [], rfl, fun other found => ?_, by simp⟩
          rw [earlier] at found
          cases found
          exact notGreater
  · rintro ⟨front, back, rfl, below, above⟩
    induction back using List.reverseRecOn with
    | nil =>
      rw [maxBy_concat]
      cases earlier : maxBy cmp front with
      | none => rfl
      | some before => simp [later, below before earlier]
    | append_singleton back x ih =>
      have whole : front ++ best :: (back ++ [x]) = (front ++ best :: back) ++ [x] := by simp
      rw [whole, maxBy_concat, ih fun y member => above y (List.mem_append_left _ member)]
      simp [later, above x (List.mem_append_right _ List.mem_cons_self)]

theorem maxBy_reached [Std.TransCmp cmp] (chosen : maxBy cmp xs = some best) : ∀ x ∈ xs, (cmp x best).isLE := by
  have self (x : α) : cmp x x = .eq := Std.ReflCmp.compare_self
  induction xs using List.reverseRecOn generalizing best with
  | nil => cases chosen
  | append_singleton xs y ih =>
    rw [maxBy_concat] at chosen
    intro x member
    cases earlier : maxBy cmp xs with
    | none =>
      rw [earlier] at chosen
      obtain rfl : y = best := Option.some.inj chosen
      rw [maxBy_eq_none.1 earlier] at member
      rw [List.mem_singleton.1 member, self]
      rfl
    | some before =>
      rw [earlier] at chosen
      obtain rfl : later cmp before y = best := Option.some.inj chosen
      have within := ih earlier
      unfold later
      split
      case isTrue greater =>
        rcases List.mem_append.1 member with there | here
        · exact within x there
        · rw [List.mem_singleton.1 here, Std.OrientedCmp.lt_of_gt greater]
          rfl
      case isFalse notGreater =>
        rcases List.mem_append.1 member with there | here
        · exact Std.TransCmp.isLE_trans (within x there) (Ordering.isLE_iff_ne_gt.2 notGreater)
        · rw [List.mem_singleton.1 here, self]
          rfl

/-- Under a transitive comparison the one that is chosen is not below those in front of it and above those behind it. -/
theorem maxBy_eq_some_iff [Std.TransCmp cmp] : maxBy cmp xs = some best ↔
    ∃ front back, xs = front ++ best :: back ∧ (∀ x ∈ front, (cmp x best).isLE) ∧ ∀ x ∈ back, cmp best x = .gt := by
  rw [maxBy_eq_some_iff_outlasts]
  constructor
  · rintro ⟨front, back, rfl, below, above⟩
    refine ⟨front, back, rfl, fun x member => ?_, above⟩
    cases earlier : maxBy cmp front with
    | none =>
      rw [maxBy_eq_none.1 earlier] at member
      cases member
    | some before =>
      exact Std.TransCmp.isLE_trans (maxBy_reached earlier x member) (Ordering.isLE_iff_ne_gt.2 (below before earlier))
  · rintro ⟨front, back, rfl, below, above⟩
    exact ⟨front, back, rfl, fun before found => Ordering.isLE_iff_ne_gt.1 (below before (maxBy_mem found)), above⟩

/-- Among the items that have a key: no greater key in front, and only smaller ones behind. -/
def Newest (key : α → Option β) (cmp : β → β → Ordering) (xs : List α) (best : α) : Prop :=
  ∃ front back k, xs = front ++ best :: back ∧ key best = some k ∧
    (∀ x ∈ front, ∀ l, key x = some l → (cmp l k).isLE) ∧ ∀ x ∈ back, ∀ l, key x = some l → cmp k l = .gt

theorem newest_iff {key : α → Option β} {cmp : β → β → Ordering} [Std.TransCmp cmp] :
    (maxBy (fun left right => cmp left.1 right.1) (xs.filterMap fun x => (key x).map (·, x))).map (·.2) = some best ↔
      Newest key cmp xs best := by
  have pairs : Std.TransCmp fun left right : β × α => cmp left.1 right.1 :=
    { eq_swap := Std.OrientedCmp.eq_swap, isLE_trans := Std.TransCmp.isLE_trans }
  have listed (ys : List α) (k : β) (y : α) : (k, y) ∈ ys.filterMap (fun x => (key x).map (·, x)) ↔
      y ∈ ys ∧ key y = some k := by
    simp only [List.mem_filterMap, Option.map_eq_some_iff, Prod.mk.injEq]
    constructor
    · rintro ⟨x, member, l, known, rfl, rfl⟩
      exact ⟨member, known⟩
    · rintro ⟨member, known⟩
      exact ⟨y, member, k, known, rfl, rfl⟩
  constructor
  · intro chosen
    obtain ⟨⟨k, y⟩, found, rfl⟩ := Option.map_eq_some_iff.1 chosen
    obtain ⟨front, back, whole, below, above⟩ := maxBy_eq_some_iff.1 found
    obtain ⟨front', rest, rfl, rfl, whole'⟩ := List.filterMap_eq_append_iff.1 whole
    obtain ⟨skipped, x, back', rfl, none, known, rfl⟩ := List.filterMap_eq_cons_iff.1 whole'
    obtain ⟨l, key_x, same⟩ := Option.map_eq_some_iff.1 known
    obtain ⟨rfl, rfl⟩ := Prod.mk.inj same
    refine ⟨front' ++ skipped, back', l, by simp, key_x, fun z member m key_z => ?_, fun z member m key_z => ?_⟩
    · rcases List.mem_append.1 member with there | passed
      · exact below (m, z) ((listed front' m z).2 ⟨there, key_z⟩)
      · have unkeyed := none z passed
        rw [key_z] at unkeyed
        cases unkeyed
    · exact above (m, z) ((listed back' m z).2 ⟨member, key_z⟩)
  · rintro ⟨front, back, k, rfl, known, below, above⟩
    have whole : maxBy (fun left right : β × α => cmp left.1 right.1)
        ((front ++ best :: back).filterMap fun x => (key x).map (·, x)) = some (k, best) := by
      rw [List.filterMap_append, List.filterMap_cons, known]
      refine maxBy_eq_some_iff.2 ⟨_, _, rfl, fun pair member => ?_, fun pair member => ?_⟩
      · obtain ⟨there, key_x⟩ := (listed front pair.1 pair.2).1 member
        exact below pair.2 there pair.1 key_x
      · obtain ⟨there, key_x⟩ := (listed back pair.1 pair.2).1 member
        exact above pair.2 there pair.1 key_x
    rw [whole]
    rfl

end KiroProxy.Greatest

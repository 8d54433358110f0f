import Mathlib.Data.List.Basic

/-! Counters that say how many actors stand at a certain place. One actor moves at a time;
the counter is right as long as every move pays for its change of place. -/
namespace KiroProxy.Census

variable {π : Type} {actors : List π} {i : Nat} {old new : π} {counted : π → Bool}

theorem counted_pos (here : actors[i]? = some old) (there : counted old = true) : 0 < actors.countP counted :=
  List.countP_pos_iff.mpr ⟨old, List.mem_of_getElem? here, there⟩

theorem countP_set_balance (counted : π → Bool) (new : π) (here : actors[i]? = some old) :
    (actors.set i new).countP counted + (counted old).toNat = actors.countP counted + (counted new).toNat := by
  obtain ⟨inside, rfl⟩ := List.getElem?_eq_some_iff.mp here
  rw [List.countP_set inside]
  cases was : counted actors[i] with
  | false => cases counted new <;> simp
  | true =>
    have := counted_pos here was
    cases counted new <;> simp <;> omega

theorem counter_moves {before after : Nat} (here : actors[i]? = some old) (right : before = actors.countP counted)
    (paid : after + (counted old).toNat = before + (counted new).toNat) :
    after = (actors.set i new).countP counted := by
  have := countP_set_balance counted new here
  omega

theorem countP_set_le (here : actors[i]? = some old) (fewer : counted new = true → counted old = true) :
    (actors.set i new).countP counted ≤ actors.countP counted := by
  have := countP_set_balance counted new here
  cases now : counted new with
  | false => simp [now] at this; omega
  | true => simp [now, fewer now] at this; omega

theorem all_set {Q : π → Prop} (all : ∀ actor ∈ actors, Q actor) (moved : Q new) :
    ∀ actor ∈ actors.set i new, Q actor := by
  intro actor member
  rcases List.mem_or_eq_of_mem_set member with old | rfl
  · exact all actor old
  · exact moved

theorem all_of_set {Q : π → Prop} (here : actors[i]? = some old) (own : Q old)
    (all : ∀ actor ∈ actors.set i new, Q actor) : ∀ actor ∈ actors, Q actor := by
  intro actor member
  obtain ⟨j, there⟩ := List.mem_iff_getElem?.mp member
  rcases eq_or_ne i j with rfl | other
  · rw [here, Option.some.injEq] at there
    exact there ▸ own
  · refine all actor (List.mem_iff_getElem?.mpr ⟨j, ?_⟩)
    rw [List.getElem?_set_ne other, there]

theorem exists_set {Q : π → Prop} (here : actors[i]? = some old) (moved : Q old → Q new)
    (some : ∃ actor ∈ actors, Q actor) : ∃ actor ∈ actors.set i new, Q actor := by
  obtain ⟨actor, member, holds⟩ := some
  obtain ⟨j, there⟩ := List.mem_iff_getElem?.mp member
  rcases eq_or_ne i j with rfl | other
  · rw [here, Option.some.injEq] at there
    have inside := (List.getElem?_eq_some_iff.mp here).1
    exact ⟨new, List.mem_of_getElem? (List.getElem?_set_self inside), moved (there ▸ holds)⟩
  · refine ⟨actor, List.mem_of_getElem? (i := j) ?_, holds⟩
    rw [List.getElem?_set_ne other, there]

theorem getElem?_set_cases {j : Nat} {actor : π} (there : (actors.set i new)[j]? = some actor) :
    actors[j]? = some actor ∨ i = j ∧ actor = new := by
  rcases eq_or_ne i j with rfl | other
  · rcases Nat.lt_or_ge i actors.length with inside | outside
    · rw [List.getElem?_set_self inside, Option.some.injEq] at there
      exact .inr ⟨rfl, there.symm⟩
    · rw [List.getElem?_eq_none (by simpa using outside)] at there
      cases there
  · rw [List.getElem?_set_ne other] at there
    exact .inl there

theorem getElem?_snoc_cases {j : Nat} {actor : π} (there : (actors ++ [new])[j]? = some actor) :
    actors[j]? = some actor ∨ actor = new := by
  rcases Nat.lt_or_ge j actors.length with inside | outside
  · rw [List.getElem?_append_left inside] at there
    exact .inl there
  · rw [List.getElem?_append_right outside] at there
    exact .inr (List.mem_singleton.mp (List.mem_of_getElem? there))

end KiroProxy.Census

import KiroProxy.Kiro.Endpoint
import KiroProxy.Lib.Aged
import KiroProxy.Lib.Run

/-! How the endpoint cache is represented: three tables of limited size, each with the queue of its keys, and no
preference for an endpoint that is disabled. -/
namespace KiroProxy.Kiro.EndpointCacheState

open Aged Run

structure Represented (state : EndpointCacheState) : Prop where
  preferred : Listed state.preferred state.preferredOrder
  disabled : Listed state.disabled state.disabledOrder
  revisions : Listed state.revisions state.revisionOrder
  preferredSize : state.preferred.size ≤ maxEndpointCacheSize
  disabledSize : state.disabled.size ≤ maxEndpointCacheSize
  revisionsSize : state.revisions.size ≤ maxEndpointCacheSize
  filled : ∀ key failures, state.disabled.get? key = some failures → failures.size ≠ 0
  apart : ∀ key endpoint, state.preferred.get? key = some endpoint → state.disabledUntil key endpoint = none

theorem represented_empty : Represented {} where
  preferred := listed_empty
  disabled := listed_empty
  revisions := listed_empty
  preferredSize := Nat.zero_le _
  disabledSize := Nat.zero_le _
  revisionsSize := Nat.zero_le _
  filled := by simp
  apart := by simp

/-! ### Evictions -/

section Evictions

variable {state : EndpointCacheState}

theorem evictOldestPreferred_eq (state : EndpointCacheState) :
    let evicted := evict maxEndpointCacheSize state.preferred state.preferredOrder
    state.evictOldestPreferredIfFull = { state with preferred := evicted.1, preferredOrder := evicted.2 } := by
  obtain ⟨preferred, order, _, _, _, _⟩ := state
  unfold evictOldestPreferredIfFull evict
  dsimp only
  split
  · rfl
  · cases order <;> rfl

theorem evictOldestDisabled_eq (state : EndpointCacheState) :
    let evicted := evict maxEndpointCacheSize state.disabled state.disabledOrder
    state.evictOldestDisabledIfFull = { state with disabled := evicted.1, disabledOrder := evicted.2 } := by
  obtain ⟨_, _, disabled, order, _, _⟩ := state
  unfold evictOldestDisabledIfFull evict
  dsimp only
  split
  · rfl
  · cases order <;> rfl

theorem evictOldestRevision_eq (state : EndpointCacheState) :
    let evicted := evict maxEndpointCacheSize state.revisions state.revisionOrder
    state.evictOldestRevisionIfFull = { state with revisions := evicted.1, revisionOrder := evicted.2 } := by
  obtain ⟨_, _, _, _, revisions, order⟩ := state
  unfold evictOldestRevisionIfFull evict
  dsimp only
  split
  · rfl
  · cases order <;> rfl

theorem room : 0 < maxEndpointCacheSize := by decide

theorem evictPreferred_represented (kept : state.Represented) : state.evictOldestPreferredIfFull.Represented := by
  rw [evictOldestPreferred_eq]
  exact { kept with
    preferred := kept.preferred.evict _
    preferredSize := Nat.le_of_lt (evict_size kept.preferred room kept.preferredSize)
    apart := fun key endpoint found => kept.apart key endpoint (evict_kept found) }

theorem evictDisabled_represented (kept : state.Represented) : state.evictOldestDisabledIfFull.Represented := by
  have within := evictOldestDisabled_within state
  rw [evictOldestDisabled_eq] at within ⊢
  refine { kept with
    disabled := kept.disabled.evict _
    disabledSize := Nat.le_of_lt (evict_size kept.disabled room kept.disabledSize)
    filled := fun key failures found => kept.filled key failures (evict_kept found)
    apart := fun key endpoint found => ?_ }
  refine Option.eq_none_iff_forall_ne_some.2 fun until_ here => ?_
  have before := within key endpoint until_ here
  rw [kept.apart key endpoint found] at before
  cases before

end Evictions

/-! ### Expiry -/

section Expiry

variable {state : EndpointCacheState} {now : Nat} {cacheKey : PurposeKey} {endpoint : EndpointKey}

theorem clearEndpointFailure_until (state : EndpointCacheState) (cacheKey key : PurposeKey) (failed endpoint : EndpointKey) :
    (state.clearEndpointFailure cacheKey failed).disabledUntil key endpoint =
      if key = cacheKey ∧ endpoint = failed then none else state.disabledUntil key endpoint := by
  unfold clearEndpointFailure
  split
  · rename_i absent
    split
    · rename_i same
      simp [disabledUntil, same.1, absent]
    · rfl
  · rename_i failures found
    dsimp only
    by_cases here : key = cacheKey
    · subst here
      have after : (failures.erase failed).get? endpoint = if endpoint = failed then none else failures.get? endpoint :=
        Table.get?_erase failures failed endpoint
      split
      · rename_i empty
        have gone : (failures.erase failed).get? endpoint = none := by
          have nothing : (failures.erase failed).entries = [] := List.length_eq_zero_iff.1 empty
          unfold Table.get?
          rw [nothing, List.lookup_nil]
        rw [gone] at after
        by_cases same : endpoint = failed
        · simp [disabledUntil, same]
        · rw [if_neg same] at after
          simp [disabledUntil, same, found, ← after]
      · simp only [disabledUntil, Table.get?_insert, if_pos, Option.bind_some, after, found, true_and]
    · split <;> simp [disabledUntil, here]

theorem clearEndpointFailure_represented (kept : state.Represented) (cacheKey : PurposeKey) (failed : EndpointKey) :
    (state.clearEndpointFailure cacheKey failed).Represented := by
  have within := clearEndpointFailure_within state cacheKey failed
  have apart : ∀ key endpoint, state.preferred.get? key = some endpoint →
      (state.clearEndpointFailure cacheKey failed).disabledUntil key endpoint = none := by
    intro key endpoint found
    rw [clearEndpointFailure_until, kept.apart key endpoint found, ite_self]
  unfold clearEndpointFailure at apart ⊢
  split
  · exact kept
  · rename_i failures found
    simp only [found] at apart
    dsimp only
    split
    · rename_i empty
      simp only [if_pos empty] at apart
      refine { kept with
        disabled := kept.disabled.erase cacheKey
        disabledSize := (size_erase _ _).trans kept.disabledSize
        filled := fun key others there => ?_
        apart }
      rw [Table.get?_erase] at there
      split at there
      · cases there
      · exact kept.filled key others there
    · rename_i some
      simp only [if_neg some] at apart
      have here : (state.disabled.get? cacheKey).isSome := by rw [found, Option.isSome_some]
      refine { kept with
        disabled := kept.disabled.update here _
        disabledSize := size_insert_le kept.disabledSize fun absent => ?_
        filled := fun key others there => ?_
        apart }
      · rw [absent] at here
        cases here
      · rw [Table.get?_insert] at there
        split at there
        · obtain rfl := Option.some.inj there
          exact some
        · exact kept.filled key others there

theorem isDisabled_represented (kept : state.Represented) (now : Nat) (cacheKey : PurposeKey) (endpoint : EndpointKey) :
    (state.isDisabled now cacheKey endpoint).1.Represented := by
  unfold isDisabled
  split
  · exact kept
  · split
    · exact kept
    · exact clearEndpointFailure_represented kept cacheKey endpoint

end Expiry

/-! ### The order -/

section Order

variable {state : EndpointCacheState} {now : Nat} {cacheKey : PurposeKey} {found : EndpointCacheState × List EndpointKey}

def Disables (state : EndpointCacheState) (now : Nat) (cacheKey : PurposeKey) (endpoint : EndpointKey) : Prop :=
  ∃ until_, state.disabledUntil cacheKey endpoint = some until_ ∧ now < until_

/-- The candidates taken so far; what is said of the others has not been looked at. -/
structure Searched (state : EndpointCacheState) (now : Nat) (cacheKey : PurposeKey)
    (found : EndpointCacheState × List EndpointKey) : Prop where
  represented : found.1.Represented
  once : found.2.Nodup
  enabled : ∀ endpoint ∈ found.2, ¬ state.Disables now cacheKey endpoint
  others : ∀ endpoint ∉ found.2, found.1.disabledUntil cacheKey endpoint = state.disabledUntil cacheKey endpoint

theorem isDisabled_cases (state : EndpointCacheState) (now : Nat) (cacheKey : PurposeKey) (endpoint : EndpointKey) :
    state.isDisabled now cacheKey endpoint = (state, true) ∨
      ¬ state.Disables now cacheKey endpoint ∧ (state.isDisabled now cacheKey endpoint).2 = false ∧
        ∀ other, other ≠ endpoint →
          (state.isDisabled now cacheKey endpoint).1.disabledUntil cacheKey other = state.disabledUntil cacheKey other := by
  unfold isDisabled
  split
  · rename_i absent
    refine .inr ⟨?_, rfl, fun other _ => rfl⟩
    rintro ⟨until_, here, -⟩
    rw [absent] at here
    cases here
  · rename_i until_ here
    split
    · exact .inl rfl
    · rename_i expired
      refine .inr ⟨?_, rfl, fun other apart => ?_⟩
      · rintro ⟨later, there, future⟩
        obtain rfl := Option.some.inj (here.symm.trans there)
        exact expired future
      · rw [clearEndpointFailure_until, if_neg fun same => apart same.2]

theorem pushEnabled_searched (searched : Searched state now cacheKey found) (candidate : EndpointKey) :
    Searched state now cacheKey (pushEnabled now cacheKey found candidate) := by
  obtain ⟨middle, order⟩ := found
  have represented := isDisabled_represented searched.represented now cacheKey candidate
  unfold pushEnabled
  split
  · exact searched
  · rename_i fresh
    have absent : candidate ∉ order := by simpa using fresh
    rcases isDisabled_cases middle now cacheKey candidate with disabled | ⟨enabled, answer, others⟩
    · dsimp only
      rw [disabled]
      exact searched
    · dsimp only
      rw [answer]
      have untouched := searched.others candidate absent
      refine ⟨represented, ?_, ?_, ?_⟩
      · exact List.nodup_append.2 ⟨searched.once, List.nodup_singleton _, fun endpoint inside last member => by
          rw [List.mem_singleton.1 member]
          rintro rfl
          exact absent inside⟩
      · intro endpoint member
        rcases List.mem_append.1 member with before | last
        · exact searched.enabled endpoint before
        · obtain rfl := List.mem_singleton.1 last
          rwa [Disables, ← untouched]
      · intro endpoint outside
        have apart : endpoint ∉ order ∧ endpoint ≠ candidate := by simpa using outside
        exact (others endpoint apart.2).trans (searched.others endpoint apart.1)

theorem foldl_searched (candidates : List EndpointKey) (searched : Searched state now cacheKey found) :
    Searched state now cacheKey (candidates.foldl (pushEnabled now cacheKey) found) := by
  induction candidates generalizing found with
  | nil => exact searched
  | cons candidate rest ih => exact ih (pushEnabled_searched searched candidate)

theorem order_searched (kept : state.Represented) (now : Nat) (account : Account) (explicit : Option EndpointKey)
    (purpose : EndpointPurpose) :
    Searched state now (account.id, purpose) (state.order now account explicit purpose) := by
  have start : Searched state now (account.id, purpose) (state, []) :=
    ⟨kept, List.nodup_nil, fun _ member => absurd member List.not_mem_nil, fun _ _ => rfl⟩
  unfold order
  split
  · exact pushEnabled_searched start .runtime
  · exact foldl_searched _ start

end Order

/-! ### Reports and clears -/

section Reports

variable {state : EndpointCacheState} {accountId : String} {purpose : EndpointPurpose} {endpoint : EndpointKey}

theorem prefer_represented (kept : state.Represented) (key : PurposeKey) (enabled : state.disabledUntil key endpoint = none)
    (room : state.preferred.get? key = none → state.preferred.size < maxEndpointCacheSize) :
    Represented { state with
      preferred := state.preferred.insert key endpoint
      preferredOrder := state.preferredOrder.filter (· ≠ key) ++ [key] } := by
  refine { kept with
    preferred := kept.preferred.insert key endpoint
    preferredSize := size_insert_le kept.preferredSize room
    apart := fun other preferred found => ?_ }
  rw [Table.get?_insert] at found
  split at found
  · rename_i same
    obtain rfl := Option.some.inj found
    rw [same]
    exact enabled
  · exact kept.apart other preferred found

theorem markSuccess_represented (kept : state.Represented) (accountId : String) (purpose : EndpointPurpose)
    (endpoint : EndpointKey) : (state.markSuccess accountId purpose endpoint).Represented := by
  have cleared := clearEndpointFailure_represented kept (accountId, purpose) endpoint
  have enabled : (state.clearEndpointFailure (accountId, purpose) endpoint).disabledUntil (accountId, purpose) endpoint =
      none := by
    rw [clearEndpointFailure_until, if_pos ⟨rfl, rfl⟩]
  unfold markSuccess
  dsimp only
  generalize state.clearEndpointFailure (accountId, purpose) endpoint = middle at cleared enabled ⊢
  split
  · rename_i absent
    have evicted := evictPreferred_represented cleared
    refine prefer_represented evicted _ ?_ fun _ => ?_
    · rw [evictOldestPreferred_eq]
      exact enabled
    · rw [evictOldestPreferred_eq]
      exact evict_size cleared.preferred EndpointCacheState.room cleared.preferredSize
  · rename_i present
    exact prefer_represented cleared _ enabled fun absent => absurd (by rw [absent]; rfl) present

theorem reject_represented (kept : state.Represented) (key : PurposeKey) (until_ : Nat)
    (room : state.disabled.get? key = none → state.disabled.size < maxEndpointCacheSize) :
    let marked := { state with
      disabled := state.disabled.insert key (((state.disabled.get? key).getD ∅).insert endpoint until_)
      disabledOrder := state.disabledOrder.filter (· ≠ key) ++ [key] }
    Represented (if marked.preferred.get? key = some endpoint then
      { marked with
        preferred := marked.preferred.erase key
        preferredOrder := marked.preferredOrder.filter (· ≠ key) }
      else marked) := by
  have filled : ∀ other failures, (state.disabled.insert key
      (((state.disabled.get? key).getD ∅).insert endpoint until_)).get? other = some failures → failures.size ≠ 0 := by
    intro other failures found
    rw [Table.get?_insert] at found
    split at found
    · obtain rfl := Option.some.inj found
      exact Nat.succ_ne_zero _
    · exact kept.filled other failures found
  -- what is preferred beside the rejected endpoint was not disabled, and is not now
  have apart : ∀ other preferred, state.preferred.get? other = some preferred → ¬ (other = key ∧ preferred = endpoint) →
      ((state.disabled.insert key (((state.disabled.get? key).getD ∅).insert endpoint until_)).get? other).bind
        (·.get? preferred) = none := by
    intro other preferred found different
    have before := kept.apart other preferred found
    rw [Table.get?_insert]
    split
    · rename_i same
      rw [Option.bind_some, Table.get?_insert, if_neg fun marked => different ⟨same, marked⟩]
      rw [disabledUntil, same] at before
      cases there : state.disabled.get? key with
      | none => rfl
      | some failures => rwa [there] at before
    · exact before
  intro marked
  split
  · refine { kept with
      preferred := kept.preferred.erase key
      preferredSize := (size_erase _ _).trans kept.preferredSize
      disabled := kept.disabled.insert key _
      disabledSize := size_insert_le kept.disabledSize room
      filled
      apart := fun other preferred found => ?_ }
    rw [Table.get?_erase] at found
    split at found
    · cases found
    · rename_i different
      exact apart other preferred found fun same => different same.1
  · rename_i unrelated
    refine { kept with
      disabled := kept.disabled.insert key _
      disabledSize := size_insert_le kept.disabledSize room
      filled
      apart := fun other preferred found => ?_ }
    refine apart other preferred found ?_
    rintro ⟨rfl, rfl⟩
    exact unrelated found

theorem markDisabled_represented (kept : state.Represented) (ttl now : Nat) (accountId : String)
    (purpose : EndpointPurpose) (endpoint : EndpointKey) :
    (state.markDisabled ttl now accountId purpose endpoint).Represented := by
  unfold markDisabled
  dsimp only
  split
  · have evicted := evictDisabled_represented kept
    refine reject_represented evicted _ _ fun _ => ?_
    rw [evictOldestDisabled_eq]
    exact evict_size kept.disabled EndpointCacheState.room kept.disabledSize
  · rename_i present
    exact reject_represented kept _ _ fun absent => absurd (by rw [absent]; rfl) present

theorem bumpRevision_represented (kept : state.Represented) (accountId : String) :
    (state.bumpRevision accountId).Represented := by
  unfold bumpRevision
  dsimp only
  split
  · rename_i here
    exact { kept with
      revisions := kept.revisions.update here _
      revisionsSize := size_insert_le kept.revisionsSize fun absent => by rw [absent] at here; cases here }
  · rename_i absent
    have fresh : state.revisions.get? accountId = none := Option.not_isSome_iff_eq_none.mp absent
    rw [evictOldestRevision_eq]
    exact { kept with
      revisions := (kept.revisions.evict _).snoc (evict_absent fresh) _
      revisionsSize := size_insert_le (Nat.le_of_lt (evict_size kept.revisions EndpointCacheState.room kept.revisionsSize))
        fun _ => evict_size kept.revisions EndpointCacheState.room kept.revisionsSize }

theorem removeFailures_represented (kept : state.Represented) (accountId : String) :
    (state.removeFailures accountId).Represented := by
  refine { kept with
    disabled := kept.disabled.retain fun key => key.1 ≠ accountId
    disabledSize := (size_retain _ _).trans kept.disabledSize
    filled := fun key failures found => ?_
    apart := fun key endpoint found => ?_ }
  · rw [removeFailures, Table.get?_retain] at found
    split at found
    · exact kept.filled key failures found
    · cases found
  · refine Option.eq_none_iff_forall_ne_some.2 fun until_ here => ?_
    have before := (removeFailures_cases here).2
    rw [kept.apart key endpoint found] at before
    cases before

theorem clearAccount_represented (kept : state.Represented) (accountId : String) :
    (state.clearAccount accountId).Represented := by
  have bumped := bumpRevision_represented kept accountId
  refine removeFailures_represented ?_ accountId
  refine { bumped with
    preferred := bumped.preferred.retain fun key => key.1 ≠ accountId
    preferredSize := (size_retain _ _).trans bumped.preferredSize
    apart := fun key endpoint found => ?_ }
  rw [Table.get?_retain] at found
  split at found
  · exact bumped.apart key endpoint found
  · cases found

end Reports

/-! ### Runs -/

inductive Operation where
  | order (now : Nat) (account : Account) (explicit : Option EndpointKey) (purpose : EndpointPurpose)
  | markSuccess (accountId : String) (purpose : EndpointPurpose) (endpoint : EndpointKey)
  | markSuccessIfRevision (accountId : String) (purpose : EndpointPurpose) (endpoint : EndpointKey) (expectedRevision : Nat)
  | markDisabled (now : Nat) (accountId : String) (purpose : EndpointPurpose) (endpoint : EndpointKey)
  | markDisabledIfRevision (now : Nat) (accountId : String) (purpose : EndpointPurpose) (endpoint : EndpointKey)
      (expectedRevision : Nat)
  | clearFailures (accountId : String)
  | clearAccount (accountId : String)

def perform (ttl : Nat) (state : EndpointCacheState) : Operation → EndpointCacheState
  | .order now account explicit purpose => (state.order now account explicit purpose).1
  | .markSuccess accountId purpose endpoint => state.markSuccess accountId purpose endpoint
  | .markSuccessIfRevision accountId purpose endpoint expected =>
    state.markSuccessIfRevision accountId purpose endpoint expected
  | .markDisabled now accountId purpose endpoint => state.markDisabled ttl now accountId purpose endpoint
  | .markDisabledIfRevision now accountId purpose endpoint expected =>
    state.markDisabledIfRevision ttl now accountId purpose endpoint expected
  | .clearFailures accountId => state.clearFailures accountId
  | .clearAccount accountId => state.clearAccount accountId

theorem perform_represented (ttl : Nat) (state : EndpointCacheState) (operation : Operation) (kept : state.Represented) :
    (state.perform ttl operation).Represented := by
  cases operation with
  | order now account explicit purpose => exact (order_searched kept now account explicit purpose).represented
  | markSuccess accountId purpose endpoint => exact markSuccess_represented kept accountId purpose endpoint
  | markSuccessIfRevision accountId purpose endpoint expected =>
    dsimp only [perform, markSuccessIfRevision]
    split
    · exact kept
    · exact markSuccess_represented kept accountId purpose endpoint
  | markDisabled now accountId purpose endpoint => exact markDisabled_represented kept ttl now accountId purpose endpoint
  | markDisabledIfRevision now accountId purpose endpoint expected =>
    dsimp only [perform, markDisabledIfRevision]
    split
    · exact kept
    · exact markDisabled_represented kept ttl now accountId purpose endpoint
  | clearFailures accountId => exact removeFailures_represented (bumpRevision_represented kept accountId) accountId
  | clearAccount accountId => exact clearAccount_represented kept accountId

/-- Whatever is done to a new cache, it stays represented, and the order it gives names no endpoint twice and none that
is still disabled. -/
theorem representation_kept (ttl : Nat) (operations : List Operation) :
    let state := run (perform ttl) {} operations
    state.Represented ∧ ∀ now account explicit purpose,
      let order := (state.order now account explicit purpose).2
      order.Nodup ∧ ∀ endpoint ∈ order, ¬ state.Disables now (account.id, purpose) endpoint := by
  intro state
  have kept : state.Represented := run_always (perform_represented ttl) operations represented_empty
  refine ⟨kept, fun now account explicit purpose => ?_⟩
  have searched := order_searched kept now account explicit purpose
  exact ⟨searched.once, searched.enabled⟩

end KiroProxy.Kiro.EndpointCacheState

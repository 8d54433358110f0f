import KiroProxy.Daemon.Usage
import KiroProxy.Lib.Run

/-! What a restart does to recorded usage. A dimension that has taken 255 names and then
`other` holds 256 keys; the restart rebuilds such a map through the insertion rule, and
a name met after `other` no longer finds room. -/
namespace KiroProxy.Usage

open Maps
open Run (run)

/-! ### The insertion rule -/

section Rule

variable {ν : Type}

theorem boundedKey_cases (m : Named ν) (key : String) :
    (boundedKey m key = key ∧ key ∈ m) ∨
      (boundedKey m key = key ∧ key ∉ m ∧ key ≠ otherUsageDimension ∧
        size m < maxUsageDimensionKeys - 1) ∨
      (boundedKey m key = otherUsageDimension ∧ key ∉ m ∧
        (key = otherUsageDimension ∨ maxUsageDimensionKeys - 1 ≤ size m)) := by
  unfold boundedKey
  by_cases known : key ∈ m
  · exact .inl ⟨if_pos (.inl known), known⟩
  · by_cases room : key ≠ otherUsageDimension ∧ size m < maxUsageDimensionKeys - 1
    · exact .inr (.inl ⟨if_pos (.inr room), known, room⟩)
    · refine .inr (.inr ⟨if_neg ?_, known, ?_⟩)
      · rintro (old | fits)
        · exact known old
        · exact room fits
      · rcases not_and_or.mp room with same | crowded
        · exact .inl (not_not.mp same)
        · exact .inr (Nat.le_of_not_lt crowded)

variable (empty : ν) (m : Named ν) (key : String) (change : ν → ν)

theorem size_boundedEntry : size (boundedEntry empty m key change) =
    if boundedKey m key ∈ m then size m else size m + 1 :=
  size_insert m _ _

theorem mem_boundedEntry (k : String) :
    k ∈ boundedEntry empty m key change ↔ k = boundedKey m key ∨ k ∈ m :=
  Finmap.mem_insert

theorem size_boundedEntry_le : size (boundedEntry empty m key change) ≤ size m + 1 := by
  rw [size_boundedEntry]
  split <;> omega

/-- At most 256 keys, and the 256th is `other`. -/
structure Bounded (m : Named ν) : Prop where
  size_le : size m ≤ maxUsageDimensionKeys
  other : size m = maxUsageDimensionKeys → otherUsageDimension ∈ m

theorem bounded_empty : Bounded (∅ : Named ν) := by
  constructor
  · simp [maxUsageDimensionKeys]
  · intro full
    simp [maxUsageDimensionKeys] at full

theorem boundedEntry_bounded (bounded : Bounded m) : Bounded (boundedEntry empty m key change) := by
  have limit := bounded.size_le
  have last := bounded.other
  have grown := size_boundedEntry empty m key change
  rcases boundedKey_cases m key with ⟨same, known⟩ | ⟨same, fresh, _, room⟩ | ⟨same, fresh, _⟩
  · rw [same, if_pos known] at grown
    constructor
    · omega
    · intro full
      exact (mem_boundedEntry empty m key change _).mpr (.inr (last (by omega)))
  · rw [same, if_neg fresh] at grown
    constructor
    · omega
    · intro full
      rw [maxUsageDimensionKeys] at *
      omega
  · rw [same] at grown
    constructor
    · by_cases known : otherUsageDimension ∈ m
      · rw [if_pos known] at grown
        omega
      · have below : size m ≠ maxUsageDimensionKeys := fun full => known (last full)
        rw [if_neg known] at grown
        omega
    · intro _
      exact (mem_boundedEntry empty m key change _).mpr (.inl same.symm)

theorem boundedEntry_other (small : size m ≤ maxUsageDimensionKeys - 1)
    (other : otherUsageDimension ∈ m) :
    size (boundedEntry empty m key change) ≤ maxUsageDimensionKeys - 1 ∧
      otherUsageDimension ∈ boundedEntry empty m key change := by
  have grown := size_boundedEntry empty m key change
  refine ⟨?_, (mem_boundedEntry empty m key change _).mpr (.inr other)⟩
  rcases boundedKey_cases m key with ⟨same, known⟩ | ⟨same, fresh, _, room⟩ | ⟨same, _, _⟩
  · rw [same, if_pos known] at grown
    omega
  · rw [same, if_neg fresh] at grown
    omega
  · rw [same, if_pos other] at grown
    omega

theorem mergeEntries_other (merge : String → ν → ν → ν) (entries : List (String × ν)) (m : Named ν)
    (small : size m ≤ maxUsageDimensionKeys - 1) (other : otherUsageDimension ∈ m) :
    size (mergeEntries empty merge m entries) ≤ maxUsageDimensionKeys - 1 := by
  induction entries generalizing m with
  | nil => exact small
  | cons entry rest ih =>
    have kept := boundedEntry_other empty m entry.1 (fun value => merge entry.1 value entry.2)
      small other
    exact ih _ kept.1 kept.2

theorem rebuild_shrinks (merge : String → ν → ν → ν) (other : otherUsageDimension ∈ m) :
    size (mergeEntries empty merge ∅ ((Traversal.startingAt otherUsageDimension).order m)) ≤
      maxUsageDimensionKeys - 1 := by
  obtain ⟨value, rest, listed⟩ := startingAt_head otherUsageDimension m other
  rw [listed, mergeEntries, List.foldl_cons, ← mergeEntries]
  have key : boundedKey (∅ : Named ν) otherUsageDimension = otherUsageDimension := by
    rcases boundedKey_cases (∅ : Named ν) otherUsageDimension with one | two | three
    · exact one.1
    · exact two.1
    · exact three.1
  apply mergeEntries_other
  · rw [size_boundedEntry, if_neg (by rw [key]; exact Finmap.notMem_empty), size_empty]
    decide
  · exact (mem_boundedEntry _ _ _ _ _).mpr (.inl key.symm)

end Rule

/-! ### Reachable usage is bounded -/

structure ProviderApiKeyUsage.Bounded (usage : ProviderApiKeyUsage) : Prop where
  daily : size usage.daily ≤ maxUsageDays
  byModel : Usage.Bounded usage.byModel
  byOriginalModel : Usage.Bounded usage.byOriginalModel
  byKiroModel : Usage.Bounded usage.byKiroModel
  byPath : Usage.Bounded usage.byPath

structure ApiKeyUsage.Bounded (usage : ApiKeyUsage) : Prop where
  daily : size usage.daily ≤ maxUsageDays
  byProvider : Usage.Bounded usage.byProvider
  providers : Usage.Bounded usage.providerDetails
  details : ∀ provider details, usage.providerDetails.lookup provider = some details →
    details.Bounded
  byModel : Usage.Bounded usage.byModel
  byOriginalModel : Usage.Bounded usage.byOriginalModel
  byKiroModel : Usage.Bounded usage.byKiroModel
  byPath : Usage.Bounded usage.byPath
  history : usage.history.length ≤ maxUsageHistory

theorem size_addDay (daily : Dimension) (record : UsageRecord) :
    size (addDay daily record) ≤ maxUsageDays := by
  unfold addDay
  exact size_keepLast maxUsageDays _

theorem usageDimensionEntry_bounded {m : Dimension} (bounded : Bounded m) (key : String)
    (change : UsageBucket → UsageBucket) : Bounded (usageDimensionEntry m key change) := by
  unfold usageDimensionEntry
  exact boundedEntry_bounded _ m key change bounded

theorem providerUsageEntry_bounded {m : Named ProviderApiKeyUsage} (bounded : Bounded m)
    (provider : String) (change : ProviderApiKeyUsage → ProviderApiKeyUsage) :
    Bounded (providerUsageEntry m provider change) := by
  unfold providerUsageEntry
  exact boundedEntry_bounded _ m provider change bounded

theorem addOptional_bounded {m : Dimension} (bounded : Bounded m) (key : Option String)
    (record : UsageRecord) : Bounded (addOptional m key record) := by
  cases key with
  | none => exact bounded
  | some key => exact usageDimensionEntry_bounded bounded key _

theorem keepRecent_length (limit : Nat) (history : List UsageRecord) :
    (keepRecent limit history).length ≤ limit := by
  rw [keepRecent, List.length_drop]
  omega

theorem provider_empty_bounded : ProviderApiKeyUsage.Bounded {} :=
  ⟨by simp [maxUsageDays], bounded_empty, bounded_empty, bounded_empty, bounded_empty⟩

variable {usage : ProviderApiKeyUsage} {n : Nat}

theorem provider_add_bounded (bounded : usage.Bounded) (record : UsageRecord) : (usage.add record).Bounded where
  daily := size_addDay usage.daily record
  byModel := usageDimensionEntry_bounded bounded.byModel record.model (·.add record)
  byOriginalModel := addOptional_bounded bounded.byOriginalModel record.originalModel record
  byKiroModel := addOptional_bounded bounded.byKiroModel record.kiroModel record
  byPath := usageDimensionEntry_bounded bounded.byPath record.path (·.add record)

theorem providerUsageEntry_keeps {P : ProviderApiKeyUsage → Prop} (m : Named ProviderApiKeyUsage)
    (provider : String) (change : ProviderApiKeyUsage → ProviderApiKeyUsage) (fresh : P {})
    (keeps : ∀ details, P details → P (change details))
    (before : ∀ name details, m.lookup name = some details → P details) :
    ∀ name details, (providerUsageEntry m provider change).lookup name = some details →
      P details := by
  intro name details found
  by_cases same : name = boundedKey m provider
  · subst same
    rw [providerUsageEntry, boundedEntry, Maps.modify, Finmap.lookup_insert] at found
    cases found
    apply keeps
    cases old : m.lookup (boundedKey m provider) with
    | none => exact fresh
    | some details => exact before _ _ old
  · rw [providerUsageEntry, boundedEntry, Maps.modify, Finmap.lookup_insert_of_ne _ same] at found
    exact before name details found

theorem empty_bounded : ApiKeyUsage.Bounded {} where
  daily := by simp [maxUsageDays]
  byProvider := bounded_empty
  providers := bounded_empty
  details := by
    intro provider details found
    rw [Finmap.lookup_empty] at found
    cases found
  byModel := bounded_empty
  byOriginalModel := bounded_empty
  byKiroModel := bounded_empty
  byPath := bounded_empty
  history := by simp

theorem add_bounded (usage : ApiKeyUsage) (record : UsageRecord) (bounded : usage.Bounded) :
    (usage.add record).Bounded where
  daily := size_addDay usage.daily record
  byProvider := usageDimensionEntry_bounded bounded.byProvider (providerOf record) (·.add record)
  providers := providerUsageEntry_bounded bounded.providers (providerOf record) (·.add record)
  details := providerUsageEntry_keeps usage.providerDetails (providerOf record) (·.add record)
    provider_empty_bounded (fun _ old => provider_add_bounded old record) bounded.details
  byModel := usageDimensionEntry_bounded bounded.byModel record.model (·.add record)
  byOriginalModel := addOptional_bounded bounded.byOriginalModel record.originalModel record
  byKiroModel := addOptional_bounded bounded.byKiroModel record.kiroModel record
  byPath := usageDimensionEntry_bounded bounded.byPath record.path (·.add record)
  history := keepRecent_length maxUsageHistory (usage.history ++ [record])

theorem recorded_bounded (records : List UsageRecord) : (run ApiKeyUsage.add {} records).Bounded :=
  Run.run_always add_bounded records empty_bounded

/-! ### Which usage a restart leaves alone -/

structure ProviderApiKeyUsage.Unfilled (usage : ProviderApiKeyUsage) : Prop where
  byModel : size usage.byModel < maxUsageDimensionKeys
  byOriginalModel : size usage.byOriginalModel < maxUsageDimensionKeys
  byKiroModel : size usage.byKiroModel < maxUsageDimensionKeys
  byPath : size usage.byPath < maxUsageDimensionKeys

structure ApiKeyUsage.Unfilled (usage : ApiKeyUsage) : Prop where
  byModel : size usage.byModel < maxUsageDimensionKeys
  byProvider : size usage.byProvider < maxUsageDimensionKeys
  byOriginalModel : size usage.byOriginalModel < maxUsageDimensionKeys
  byKiroModel : size usage.byKiroModel < maxUsageDimensionKeys
  byPath : size usage.byPath < maxUsageDimensionKeys
  providers : size usage.providerDetails < maxUsageDimensionKeys
  details : ∀ provider details, usage.providerDetails.lookup provider = some details →
    details.Unfilled

theorem boundUsageDimensions_unfilled {m : Dimension} (order : Traversal String UsageBucket)
    (unfilled : size m < maxUsageDimensionKeys) : boundUsageDimensions order m = m := by
  rw [boundUsageDimensions, if_pos unfilled]

theorem unfilled_of_boundUsageDimensions {m : Dimension} (bounded : Bounded m)
    (fixed : boundUsageDimensions (Traversal.startingAt otherUsageDimension) m = m) :
    size m < maxUsageDimensionKeys := by
  by_contra filled
  have full : size m = maxUsageDimensionKeys :=
    Nat.le_antisymm bounded.size_le (Nat.le_of_not_lt filled)
  have shrunk := rebuild_shrinks ({} : UsageBucket) m (fun _ => UsageBucket.merge) (bounded.other full)
  rw [boundUsageDimensions, if_neg filled] at fixed
  rw [fixed, full] at shrunk
  revert shrunk
  decide

theorem provider_bound_unfilled (orders : ProviderOrders) (bounded : usage.Bounded) (unfilled : usage.Unfilled) :
    usage.bound orders = usage := by
  rw [ProviderApiKeyUsage.bound, keepLast_of_le bounded.daily,
    boundUsageDimensions_unfilled _ unfilled.byModel,
    boundUsageDimensions_unfilled _ unfilled.byOriginalModel,
    boundUsageDimensions_unfilled _ unfilled.byKiroModel,
    boundUsageDimensions_unfilled _ unfilled.byPath]

theorem boundProviderUsage_unfilled {m : Named ProviderApiKeyUsage} (orders : Orders)
    (small : size m < maxUsageDimensionKeys)
    (bounded : ∀ provider details, m.lookup provider = some details → details.Bounded)
    (unfilled : ∀ provider details, m.lookup provider = some details → details.Unfilled) :
    boundProviderUsage orders m = m := by
  rw [boundProviderUsage, if_pos small]
  apply Finmap.ext_lookup
  intro provider
  rw [lookup_mapValues]
  cases found : m.lookup provider with
  | none => rfl
  | some details =>
    rw [Option.map_some, provider_bound_unfilled _ (bounded _ _ found) (unfilled _ _ found)]

theorem migrate_recorded (records : List UsageRecord) (recorded : records ≠ []) :
    (run ApiKeyUsage.add {} records).migrateLegacyKiroDimensions =
      run ApiKeyUsage.add {} records := by
  obtain ⟨front, last, rfl⟩ := List.eq_nil_or_concat' records |>.resolve_left recorded
  rw [Run.run_append]
  let before := run ApiKeyUsage.add {} front
  have named : size (before.add last).byProvider ≠ 0 := by
    have key := (mem_boundedEntry {} before.byProvider (providerOf last) (·.add last) _).mpr (.inl rfl)
    exact Finset.card_ne_zero_of_mem (Finmap.mem_keys.mpr key)
  exact if_pos (.inr (.inl named))

theorem restart_unfilled (orders : Orders) (records : List UsageRecord) (recorded : records ≠ [])
    (unfilled : (run ApiKeyUsage.add {} records).Unfilled) :
    (run ApiKeyUsage.add {} records).restart orders = run ApiKeyUsage.add {} records := by
  have bounded := recorded_bounded records
  have recent : keepRecent maxUsageHistory (run ApiKeyUsage.add {} records).history =
      (run ApiKeyUsage.add {} records).history := by
    rw [keepRecent, Nat.sub_eq_zero_of_le bounded.history, List.drop_zero]
  rw [ApiKeyUsage.restart, migrate_recorded records recorded, ApiKeyUsage.bound,
    keepLast_of_le bounded.daily, recent,
    boundUsageDimensions_unfilled _ unfilled.byModel,
    boundUsageDimensions_unfilled _ unfilled.byProvider,
    boundUsageDimensions_unfilled _ unfilled.byOriginalModel,
    boundUsageDimensions_unfilled _ unfilled.byKiroModel,
    boundUsageDimensions_unfilled _ unfilled.byPath,
    boundProviderUsage_unfilled orders unfilled.providers bounded.details unfilled.details]

noncomputable def otherFirstProvider : ProviderOrders where
  byModel := .startingAt otherUsageDimension
  byOriginalModel := .startingAt otherUsageDimension
  byKiroModel := .startingAt otherUsageDimension
  byPath := .startingAt otherUsageDimension

/-- Every iteration happens to meet `other` before the other keys. -/
noncomputable def otherFirst : Orders where
  byModel := .startingAt otherUsageDimension
  byProvider := .startingAt otherUsageDimension
  byOriginalModel := .startingAt otherUsageDimension
  byKiroModel := .startingAt otherUsageDimension
  byPath := .startingAt otherUsageDimension
  providers := .startingAt otherUsageDimension
  merging _ := otherFirstProvider
  bounding _ := otherFirstProvider

theorem provider_unfilled_of_fixed (bounded : usage.Bounded) (fixed : usage.bound otherFirstProvider = usage) :
    usage.Unfilled where
  byModel := unfilled_of_boundUsageDimensions bounded.byModel
    (congrArg ProviderApiKeyUsage.byModel fixed)
  byOriginalModel := unfilled_of_boundUsageDimensions bounded.byOriginalModel
    (congrArg ProviderApiKeyUsage.byOriginalModel fixed)
  byKiroModel := unfilled_of_boundUsageDimensions bounded.byKiroModel
    (congrArg ProviderApiKeyUsage.byKiroModel fixed)
  byPath := unfilled_of_boundUsageDimensions bounded.byPath
    (congrArg ProviderApiKeyUsage.byPath fixed)

theorem providers_unfilled_of_fixed {m : Named ProviderApiKeyUsage} (bounded : Bounded m)
    (inner : ∀ provider details, m.lookup provider = some details → details.Bounded)
    (fixed : boundProviderUsage otherFirst m = m) :
    size m < maxUsageDimensionKeys ∧
      ∀ provider details, m.lookup provider = some details → details.Unfilled := by
  have small : size m < maxUsageDimensionKeys := by
    by_contra filled
    have full : size m = maxUsageDimensionKeys :=
      Nat.le_antisymm bounded.size_le (Nat.le_of_not_lt filled)
    have shrunk := rebuild_shrinks ({} : ProviderApiKeyUsage) m
      (fun provider => ProviderApiKeyUsage.merge (otherFirst.merging provider)) (bounded.other full)
    rw [boundProviderUsage, if_neg filled] at fixed
    have sizes := congrArg size fixed
    rw [size_mapValues, full] at sizes
    have limit : size (mergeEntries {} (fun provider =>
        ProviderApiKeyUsage.merge (otherFirst.merging provider)) ∅ (otherFirst.providers.order m)) ≤
        maxUsageDimensionKeys - 1 := shrunk
    rw [sizes] at limit
    revert limit
    decide
  refine ⟨small, ?_⟩
  intro provider details found
  have here := congrArg (Finmap.lookup provider) fixed
  rw [boundProviderUsage, if_pos small, lookup_mapValues, found, Option.map_some] at here
  exact provider_unfilled_of_fixed (inner _ _ found) (Option.some.inj here)

theorem unfilled_of_restart (records : List UsageRecord) (recorded : records ≠ [])
    (fixed : (run ApiKeyUsage.add {} records).restart otherFirst = run ApiKeyUsage.add {} records) :
    (run ApiKeyUsage.add {} records).Unfilled := by
  have bounded := recorded_bounded records
  rw [ApiKeyUsage.restart, migrate_recorded records recorded] at fixed
  have inside := providers_unfilled_of_fixed bounded.providers bounded.details
    (congrArg ApiKeyUsage.providerDetails fixed)
  exact {
    byModel := unfilled_of_boundUsageDimensions bounded.byModel
      (congrArg ApiKeyUsage.byModel fixed)
    byProvider := unfilled_of_boundUsageDimensions bounded.byProvider
      (congrArg ApiKeyUsage.byProvider fixed)
    byOriginalModel := unfilled_of_boundUsageDimensions bounded.byOriginalModel
      (congrArg ApiKeyUsage.byOriginalModel fixed)
    byKiroModel := unfilled_of_boundUsageDimensions bounded.byKiroModel
      (congrArg ApiKeyUsage.byKiroModel fixed)
    byPath := unfilled_of_boundUsageDimensions bounded.byPath
      (congrArg ApiKeyUsage.byPath fixed)
    providers := inside.1
    details := inside.2 }

/-! ### Small usage and filled usage -/

/-- Every map has at most `n` keys. -/
structure ProviderApiKeyUsage.Within (n : Nat) (usage : ProviderApiKeyUsage) : Prop where
  byModel : size usage.byModel ≤ n
  byOriginalModel : size usage.byOriginalModel ≤ n
  byKiroModel : size usage.byKiroModel ≤ n
  byPath : size usage.byPath ≤ n

structure ApiKeyUsage.Within (n : Nat) (usage : ApiKeyUsage) : Prop where
  byModel : size usage.byModel ≤ n
  byProvider : size usage.byProvider ≤ n
  byOriginalModel : size usage.byOriginalModel ≤ n
  byKiroModel : size usage.byKiroModel ≤ n
  byPath : size usage.byPath ≤ n
  providers : size usage.providerDetails ≤ n
  details : ∀ provider details, usage.providerDetails.lookup provider = some details →
    details.Within n

theorem usageDimensionEntry_within {m : Dimension} (within : size m ≤ n) (key : String)
    (change : UsageBucket → UsageBucket) : size (usageDimensionEntry m key change) ≤ n + 1 := by
  have grown := size_boundedEntry_le {} m key change
  unfold usageDimensionEntry
  omega

theorem providerUsageEntry_within {m : Named ProviderApiKeyUsage} (within : size m ≤ n) (provider : String)
    (change : ProviderApiKeyUsage → ProviderApiKeyUsage) :
    size (providerUsageEntry m provider change) ≤ n + 1 := by
  have grown := size_boundedEntry_le {} m provider change
  unfold providerUsageEntry
  omega

theorem addOptional_within {m : Dimension} (within : size m ≤ n) (key : Option String) (record : UsageRecord) :
    size (addOptional m key record) ≤ n + 1 := by
  cases key with
  | none => exact Nat.le_succ_of_le within
  | some key => exact usageDimensionEntry_within within key _

theorem provider_within_succ (within : usage.Within n) :
    usage.Within (n + 1) where
  byModel := Nat.le_succ_of_le within.byModel
  byOriginalModel := Nat.le_succ_of_le within.byOriginalModel
  byKiroModel := Nat.le_succ_of_le within.byKiroModel
  byPath := Nat.le_succ_of_le within.byPath

theorem provider_add_within (within : usage.Within n) (record : UsageRecord) : (usage.add record).Within (n + 1) where
  byModel := usageDimensionEntry_within within.byModel record.model (·.add record)
  byOriginalModel := addOptional_within within.byOriginalModel record.originalModel record
  byKiroModel := addOptional_within within.byKiroModel record.kiroModel record
  byPath := usageDimensionEntry_within within.byPath record.path (·.add record)

theorem add_details_within {usage : ApiKeyUsage} (within : usage.Within n) (record : UsageRecord) :
    ∀ provider details,
    (usage.add record).providerDetails.lookup provider = some details → details.Within (n + 1) := by
  intro provider details found
  have here : (providerUsageEntry usage.providerDetails (providerOf record) (·.add record)).lookup
      provider = some details := found
  rw [providerUsageEntry, boundedEntry, Maps.modify] at here
  by_cases same : provider = boundedKey usage.providerDetails (providerOf record)
  · subst same
    rw [Finmap.lookup_insert] at here
    cases here
    apply provider_add_within
    cases old : usage.providerDetails.lookup (boundedKey usage.providerDetails (providerOf record)) with
    | none => exact ⟨Nat.zero_le n, Nat.zero_le n, Nat.zero_le n, Nat.zero_le n⟩
    | some details => exact within.details _ _ old
  · rw [Finmap.lookup_insert_of_ne _ same] at here
    exact provider_within_succ (within.details _ _ here)

theorem add_within {usage : ApiKeyUsage} (within : usage.Within n) (record : UsageRecord) :
    (usage.add record).Within (n + 1) where
  byModel := usageDimensionEntry_within within.byModel record.model (·.add record)
  byProvider := usageDimensionEntry_within within.byProvider (providerOf record) (·.add record)
  byOriginalModel := addOptional_within within.byOriginalModel record.originalModel record
  byKiroModel := addOptional_within within.byKiroModel record.kiroModel record
  byPath := usageDimensionEntry_within within.byPath record.path (·.add record)
  providers := providerUsageEntry_within within.providers (providerOf record) (·.add record)
  details := add_details_within within record

theorem run_within {usage : ApiKeyUsage} (within : usage.Within n) (records : List UsageRecord) :
    (run ApiKeyUsage.add usage records).Within (n + records.length) := by
  induction records generalizing n usage with
  | nil => exact within
  | cons record rest ih =>
    have tail := ih (add_within within record)
    rw [List.length_cons, show n + (rest.length + 1) = n + 1 + rest.length by omega]
    exact tail

theorem empty_within : ApiKeyUsage.Within 0 {} where
  byModel := Nat.le_refl 0
  byProvider := Nat.le_refl 0
  byOriginalModel := Nat.le_refl 0
  byKiroModel := Nat.le_refl 0
  byPath := Nat.le_refl 0
  providers := Nat.le_refl 0
  details := by
    intro provider details found
    rw [Finmap.lookup_empty] at found
    cases found

theorem unfilled_of_few (records : List UsageRecord) (few : records.length < maxUsageDimensionKeys) :
    (run ApiKeyUsage.add {} records).Unfilled := by
  have within := run_within empty_within records
  rw [Nat.zero_add] at within
  exact {
    byModel := within.byModel.trans_lt few
    byProvider := within.byProvider.trans_lt few
    byOriginalModel := within.byOriginalModel.trans_lt few
    byKiroModel := within.byKiroModel.trans_lt few
    byPath := within.byPath.trans_lt few
    providers := within.providers.trans_lt few
    details := fun provider details found =>
      have inner := within.details provider details found
      ⟨inner.byModel.trans_lt few, inner.byOriginalModel.trans_lt few,
        inner.byKiroModel.trans_lt few, inner.byPath.trans_lt few⟩ }

theorem run_models (records : List UsageRecord) (usage : ApiKeyUsage)
    (room : size usage.byModel + records.length ≤ maxUsageDimensionKeys - 1)
    (named : ∀ record ∈ records, record.model ≠ otherUsageDimension ∧ record.model ∉ usage.byModel)
    (distinct : (records.map (·.model)).Nodup) :
    (run ApiKeyUsage.add usage records).byModel.keys =
      usage.byModel.keys ∪ (records.map (·.model)).toFinset := by
  induction records generalizing usage with
  | nil => simp
  | cons record rest ih =>
    rw [List.length_cons] at room
    obtain ⟨proper, fresh⟩ := named record List.mem_cons_self
    have key : boundedKey usage.byModel record.model = record.model :=
      if_pos (.inr ⟨proper, by omega⟩)
    have keys : (usage.add record).byModel.keys = insert record.model usage.byModel.keys := by
      simp only [ApiKeyUsage.add, usageDimensionEntry, boundedEntry, Maps.modify, key]
      exact keys_insert usage.byModel record.model _
    have grown : size (usage.add record).byModel = size usage.byModel + 1 := by
      rw [size, keys, Finset.card_insert_of_notMem (fun old => fresh (Finmap.mem_keys.mp old)), size]
    rw [List.map_cons, List.nodup_cons] at distinct
    have tail := ih (usage.add record) (by omega)
      (by
        intro other later
        obtain ⟨properOther, freshOther⟩ := named other (List.mem_cons_of_mem _ later)
        refine ⟨properOther, ?_⟩
        rw [← Finmap.mem_keys, keys, Finset.mem_insert, Finmap.mem_keys]
        rintro (same | old)
        · exact distinct.1 (same ▸ List.mem_map_of_mem later)
        · exact freshOther old) distinct.2
    rw [Run.run_cons, tail, keys]
    simp

def requestFor (model : String) : UsageRecord where
  timestamp := 0
  model := model
  originalModel := none
  kiroModel := none
  inputTokens := 1
  outputTokens := 1
  credits := 1
  cacheReadTokens := none
  cacheWriteTokens := none
  reasoningTokens := none
  tokenUsageSource := "server"
  path := "/v1/messages"

def modelName (i : Nat) : String := String.ofList (List.replicate (i + 1) 'm')

/-- One request for each of `n` different models. -/
def requestsForModels (n : Nat) : List UsageRecord :=
  (List.range n).map (fun i => requestFor (modelName i))

theorem modelName_injective : Function.Injective modelName := by
  intro i j same
  have lists := String.ofList_injective same
  have lengths := congrArg List.length lists
  simpa using lengths

theorem modelName_proper (i : Nat) : modelName i ≠ otherUsageDimension := by
  intro same
  have lists := congrArg String.toList same
  rw [modelName, String.toList_ofList, List.replicate_succ] at lists
  cases lists

theorem models_keys : (run ApiKeyUsage.add {} (requestsForModels 255)).byModel.keys =
    ((List.range 255).map modelName).toFinset := by
  have names : (requestsForModels 255).map (·.model) = (List.range 255).map modelName := by
    simp [requestsForModels, requestFor, Function.comp_def]
  rw [run_models, names]
  · exact Finset.empty_union _
  · simp [requestsForModels, maxUsageDimensionKeys]
  · intro record member
    obtain ⟨i, _, rfl⟩ := List.mem_map.mp member
    exact ⟨modelName_proper i, Finmap.notMem_empty⟩
  · rw [names]
    exact List.Nodup.map modelName_injective List.nodup_range

theorem models_fill : size (run ApiKeyUsage.add {} (requestsForModels 256)).byModel = 256 := by
  have split : requestsForModels 256 = requestsForModels 255 ++ [requestFor (modelName 255)] := by
    rw [requestsForModels, show (256 : Nat) = 255 + 1 from rfl, List.range_succ, List.map_append]
    rfl
  rw [split, Run.run_append]
  have keys := models_keys
  revert keys
  generalize run ApiKeyUsage.add {} (requestsForModels 255) = usage
  intro keys
  have count : size usage.byModel = 255 := by
    rw [size, keys, List.toFinset_card_of_nodup (List.Nodup.map modelName_injective List.nodup_range),
      List.length_map, List.length_range]
  have absent : ∀ name, (∀ i < 255, modelName i ≠ name) → name ∉ usage.byModel := by
    intro name other member
    rw [← Finmap.mem_keys, keys, List.mem_toFinset] at member
    obtain ⟨i, inside, same⟩ := List.mem_map.mp member
    exact other i (List.mem_range.mp inside) same
  have fresh := absent (modelName 255) (fun i below same => by
    have := modelName_injective same
    omega)
  have key : boundedKey usage.byModel (modelName 255) = otherUsageDimension := by
    apply if_neg
    rintro (old | room)
    · exact fresh old
    · rw [count] at room
      exact absurd room.2 (by decide)
  have grown := size_boundedEntry {} usage.byModel (modelName 255) (·.add (requestFor (modelName 255)))
  rw [key, if_neg (absent _ (fun i _ => modelName_proper i)), count] at grown
  exact grown

/-- A restart leaves recorded usage as it is under every iteration order exactly when no
dimension has reached 256 keys. -/
theorem restart_fixed_iff (records : List UsageRecord) (recorded : records ≠ []) :
    (∀ orders, (run ApiKeyUsage.add {} records).restart orders = run ApiKeyUsage.add {} records) ↔
      (run ApiKeyUsage.add {} records).Unfilled := by
  constructor
  · intro fixed
    exact unfilled_of_restart records recorded (fixed otherFirst)
  · intro unfilled orders
    exact restart_unfilled orders records recorded unfilled

theorem restart_keeps_one_request : [requestFor "m"] ≠ [] ∧
    ∀ orders, (run ApiKeyUsage.add {} [requestFor "m"]).restart orders =
      run ApiKeyUsage.add {} [requestFor "m"] :=
  ⟨by simp, (restart_fixed_iff [requestFor "m"] (by simp)).mpr (unfilled_of_few _ (by decide))⟩

/-- 256 requests for as many models: the last name went to `other`, and a restart that
meets `other` first moves one more model there. -/
theorem restart_reclassifies : requestsForModels 256 ≠ [] ∧
    (run ApiKeyUsage.add {} (requestsForModels 256)).restart otherFirst ≠
      run ApiKeyUsage.add {} (requestsForModels 256) := by
  have recorded : requestsForModels 256 ≠ [] := by simp [requestsForModels]
  refine ⟨recorded, ?_⟩
  intro fixed
  have small := (unfilled_of_restart _ recorded fixed).byModel
  rw [models_fill] at small
  revert small
  decide

end KiroProxy.Usage

import KiroProxy.Daemon.UsageBound

/-! Every record is counted once in each dimension of a key's usage, also where a name without room is
counted under another. -/
namespace KiroProxy.Usage

open Maps
open Run (run)

structure AddsUp {ν : Type} (bucket : ν → UsageBucket) (m : Named ν) (whole : UsageBucket) : Prop where
  requests : total (fun value => (bucket value).requests) m = whole.requests
  credits : total (fun value => (bucket value).credits) m = whole.credits
  inputTokens : total (fun value => (bucket value).inputTokens) m = whole.inputTokens
  outputTokens : total (fun value => (bucket value).outputTokens) m = whole.outputTokens

theorem addsUp_empty {ν : Type} (bucket : ν → UsageBucket) : AddsUp bucket ∅ {} := ⟨rfl, rfl, rfl, rfl⟩

theorem AddsUp.add {ν : Type} {bucket : ν → UsageBucket} {m : Named ν} {whole : UsageBucket}
    (sums : AddsUp bucket m whole) {empty : ν} (nothing : bucket empty = {}) {change : ν → ν} {record : UsageRecord}
    (counts : ∀ value, bucket (change value) = (bucket value).add record) (key : String) :
    AddsUp bucket (boundedEntry empty m key change) (whole.add record) := by
  unfold boundedEntry
  constructor
  · rw [total_modify (by rw [nothing]) (fun value => by rw [counts]; rfl), sums.requests]
    rfl
  · rw [total_modify (by rw [nothing]) (fun value => by rw [counts]; rfl), sums.credits]
    rfl
  · rw [total_modify (by rw [nothing]) (fun value => by rw [counts]; rfl), sums.inputTokens]
    rfl
  · rw [total_modify (by rw [nothing]) (fun value => by rw [counts]; rfl), sums.outputTokens]
    rfl

structure ProviderApiKeyUsage.Exact (usage : ProviderApiKeyUsage) : Prop where
  byModel : AddsUp id usage.byModel usage.total
  byPath : AddsUp id usage.byPath usage.total

def ApiKeyUsage.whole (usage : ApiKeyUsage) : UsageBucket where
  requests := usage.totalRequests
  credits := usage.totalCredits
  inputTokens := usage.totalInputTokens
  outputTokens := usage.totalOutputTokens

structure ApiKeyUsage.Exact (usage : ApiKeyUsage) : Prop where
  byModel : AddsUp id usage.byModel usage.whole
  byPath : AddsUp id usage.byPath usage.whole
  byProvider : AddsUp id usage.byProvider usage.whole
  providers : AddsUp ProviderApiKeyUsage.total usage.providerDetails usage.whole
  details : ∀ provider details, usage.providerDetails.lookup provider = some details → details.Exact

theorem provider_add_exact {usage : ProviderApiKeyUsage} (exact : usage.Exact) (record : UsageRecord) :
    (usage.add record).Exact where
  byModel := exact.byModel.add rfl (fun _ => rfl) record.model
  byPath := exact.byPath.add rfl (fun _ => rfl) record.path

theorem provider_add_total (record : UsageRecord) (usage : ProviderApiKeyUsage) :
    (usage.add record).total = usage.total.add record := rfl

theorem add_exact (usage : ApiKeyUsage) (record : UsageRecord) (exact : usage.Exact) : (usage.add record).Exact where
  byModel := exact.byModel.add rfl (fun _ => rfl) record.model
  byPath := exact.byPath.add rfl (fun _ => rfl) record.path
  byProvider := exact.byProvider.add rfl (fun _ => rfl) (providerOf record)
  providers := exact.providers.add rfl (provider_add_total record) (providerOf record)
  details := providerUsageEntry_keeps usage.providerDetails (providerOf record) (·.add record)
    ⟨addsUp_empty id, addsUp_empty id⟩ (fun _ before => provider_add_exact before record) exact.details

theorem empty_exact : ApiKeyUsage.Exact {} where
  byModel := addsUp_empty id
  byPath := addsUp_empty id
  byProvider := addsUp_empty id
  providers := addsUp_empty _
  details := by
    intro provider details found
    rw [Finmap.lookup_empty] at found
    cases found

/-- Nothing is lost or counted twice in a bounded dimension, and every bound holds, for each provider too. -/
theorem recorded_exact (records : List UsageRecord) :
    let usage := run ApiKeyUsage.add {} records
    usage.Exact ∧ size usage.byModel ≤ 256 ∧ size usage.byPath ≤ 256 ∧ size usage.byProvider ≤ 256 ∧
      size usage.providerDetails ≤ 256 ∧ size usage.byOriginalModel ≤ 256 ∧ size usage.byKiroModel ≤ 256 ∧
      size usage.daily ≤ 366 ∧ usage.history.length ≤ 100 ∧
      ∀ provider details, usage.providerDetails.lookup provider = some details →
        size details.byModel ≤ 256 ∧ size details.byPath ≤ 256 ∧ size details.byOriginalModel ≤ 256 ∧
          size details.byKiroModel ≤ 256 ∧ size details.daily ≤ 366 := by
  have bounded := recorded_bounded records
  refine ⟨Run.run_always add_exact records empty_exact, bounded.byModel.size_le, bounded.byPath.size_le,
    bounded.byProvider.size_le, bounded.providers.size_le, bounded.byOriginalModel.size_le,
    bounded.byKiroModel.size_le, bounded.daily, bounded.history, ?_⟩
  intro provider details found
  have inner := bounded.details provider details found
  exact ⟨inner.byModel.size_le, inner.byPath.size_le, inner.byOriginalModel.size_le, inner.byKiroModel.size_le,
    inner.daily⟩

end KiroProxy.Usage

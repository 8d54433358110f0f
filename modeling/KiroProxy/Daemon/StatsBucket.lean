import KiroProxy.Lib.Capped
import KiroProxy.Lib.Saturating
import Mathlib.Algebra.Order.Ring.Rat

/-! What is counted of requests: counters, and buckets of counters by provider, account, endpoint
and model. -/
namespace KiroProxy.Stats

open Capped (Fits weight)

def maxDimensionKeys : Nat := 1024

def maxBucketDimensionKeys : Nat := maxDimensionKeys

def maxBucketLatencies : Nat := 256

def maxLatencies : Nat := 10000

def otherDimension : String := "other"

abbrev Count := Saturating (2 ^ 64 - 1)

structure RequestLog where
  timestamp : Int
  providerId : String
  model : String
  accountId : String
  endpoint : String
  durationMs : Nat
  status : Nat
  inputTokens : Nat
  outputTokens : Nat
  credits : Rat
  deriving DecidableEq

def requestProvider (request : RequestLog) : String :=
  if request.providerId = "" then "kiro" else request.providerId

@[ext] structure Counter where
  requests : Nat := 0
  successes : Nat := 0
  failures : Nat := 0
  credits : Rat := 0
  inputTokens : Nat := 0
  outputTokens : Nat := 0
  durationMs : Count := 0
  durationSamples : Count := 0
  deriving DecidableEq

namespace Counter

def record (counter : Counter) (request : RequestLog) : Counter where
  requests := counter.requests + 1
  successes := counter.successes + (decide (request.status < 400)).toNat
  failures := counter.failures + (decide (request.status ≥ 400)).toNat
  credits := counter.credits + request.credits
  inputTokens := counter.inputTokens + request.inputTokens
  outputTokens := counter.outputTokens + request.outputTokens
  durationMs := counter.durationMs.saturatingAdd request.durationMs
  durationSamples := counter.durationSamples.saturatingAdd 1

def merge (counter other : Counter) : Counter where
  requests := counter.requests + other.requests
  successes := counter.successes + other.successes
  failures := counter.failures + other.failures
  credits := counter.credits + other.credits
  inputTokens := counter.inputTokens + other.inputTokens
  outputTokens := counter.outputTokens + other.outputTokens
  durationMs := counter.durationMs.saturatingAdd other.durationMs.value
  durationSamples := counter.durationSamples.saturatingAdd other.durationSamples.value

instance : Zero Counter := ⟨{}⟩

instance : Add Counter := ⟨merge⟩

instance : AddCommMonoid Counter where
  add_assoc a b c := Counter.ext (Nat.add_assoc ..) (Nat.add_assoc ..) (Nat.add_assoc ..) (Rat.add_assoc ..)
    (Nat.add_assoc ..) (Nat.add_assoc ..) (add_assoc a.durationMs ..) (add_assoc a.durationSamples ..)
  zero_add a := Counter.ext (Nat.zero_add _) (Nat.zero_add _) (Nat.zero_add _) (Rat.zero_add _) (Nat.zero_add _)
    (Nat.zero_add _) (zero_add a.durationMs) (zero_add a.durationSamples)
  add_zero a := Counter.ext (Nat.add_zero _) (Nat.add_zero _) (Nat.add_zero _) (Rat.add_zero _) (Nat.add_zero _)
    (Nat.add_zero _) (add_zero a.durationMs) (add_zero a.durationSamples)
  add_comm a b := Counter.ext (Nat.add_comm ..) (Nat.add_comm ..) (Nat.add_comm ..) (Rat.add_comm ..) (Nat.add_comm ..)
    (Nat.add_comm ..) (add_comm a.durationMs _) (add_comm a.durationSamples _)
  nsmul := nsmulRec

def ofRequest (request : RequestLog) : Counter := record 0 request

theorem record_eq (counter : Counter) (request : RequestLog) : counter.record request = counter + ofRequest request := by
  apply Counter.ext
  · exact congrArg (counter.requests + ·) (Nat.zero_add 1).symm
  · exact congrArg (counter.successes + ·) (Nat.zero_add _).symm
  · exact congrArg (counter.failures + ·) (Nat.zero_add _).symm
  · exact congrArg (counter.credits + ·) (Rat.zero_add _).symm
  · exact congrArg (counter.inputTokens + ·) (Nat.zero_add _).symm
  · exact congrArg (counter.outputTokens + ·) (Nat.zero_add _).symm
  · refine (Saturating.saturatingAdd_eq ..).trans (congrArg (counter.durationMs + ·) ?_)
    exact ((Saturating.saturatingAdd_eq 0 _).trans (zero_add _)).symm
  · refine (Saturating.saturatingAdd_eq ..).trans (congrArg (counter.durationSamples + ·) ?_)
    exact ((Saturating.saturatingAdd_eq 0 _).trans (zero_add _)).symm

end Counter

abbrev Dimensions := Table String Counter

/-- Hash maps are walked in an order of their own; names of models are shortened for the log. -/
structure Outside where
  order : {ν : Type} → List (String × ν) → List (String × ν)
  perm : ∀ {ν : Type} (entries : List (String × ν)), (order entries).Perm entries
  logModel : String → String

def keepLast (maximum : Nat) (latencies : List Nat) : List Nat := latencies.drop (latencies.length - maximum)

def recordDimensionWithLimit (dimensions : Dimensions) (key : String) (request : RequestLog) (maximum : Nat) :
    Dimensions :=
  Capped.alter maximum otherDimension 0 key (·.record request) dimensions

section Merging

variable (outside : Outside)

def mergeDimensionsWithLimit (target source : Dimensions) (maximum : Nat) : Dimensions :=
  Capped.mergeAll maximum otherDimension 0 Counter.merge (outside.order source.entries) target

/-- Rebuilt under the limit; a table that is not full stays as it is. -/
def boundDimensionsTo (dimensions : Dimensions) (maximum : Nat) : Dimensions :=
  if dimensions.size < maximum then dimensions
  else Capped.mergeAll maximum otherDimension 0 Counter.merge (outside.order dimensions.entries) ∅

/-! ### Buckets -/

structure ProviderStatsBreakdown where
  total : Counter := 0
  byAccount : Dimensions := ∅
  byEndpoint : Dimensions := ∅
  byModel : Dimensions := ∅
  latenciesMs : List Nat := []
  deriving DecidableEq

namespace ProviderStatsBreakdown

def record (details : ProviderStatsBreakdown) (request : RequestLog) (maximum : Nat) : ProviderStatsBreakdown where
  total := details.total.record request
  byAccount := recordDimensionWithLimit details.byAccount request.accountId request maximum
  byEndpoint := recordDimensionWithLimit details.byEndpoint request.endpoint request maximum
  byModel := recordDimensionWithLimit details.byModel request.model request maximum
  latenciesMs := keepLast maxBucketLatencies (details.latenciesMs ++ [request.durationMs])

def merge (details other : ProviderStatsBreakdown) (maximum maximumLatencies : Nat) : ProviderStatsBreakdown where
  total := details.total.merge other.total
  byAccount := mergeDimensionsWithLimit outside details.byAccount other.byAccount maximum
  byEndpoint := mergeDimensionsWithLimit outside details.byEndpoint other.byEndpoint maximum
  byModel := mergeDimensionsWithLimit outside details.byModel other.byModel maximum
  latenciesMs := keepLast maximumLatencies (details.latenciesMs ++ other.latenciesMs)

def bound (details : ProviderStatsBreakdown) (maximum maximumLatencies : Nat) : ProviderStatsBreakdown :=
  { details with
    byAccount := boundDimensionsTo outside details.byAccount maximum
    byEndpoint := boundDimensionsTo outside details.byEndpoint maximum
    byModel := boundDimensionsTo outside details.byModel maximum
    latenciesMs := keepLast maximumLatencies details.latenciesMs }

end ProviderStatsBreakdown

abbrev ProviderDetails := Table String ProviderStatsBreakdown

def mergeProviderBreakdowns (target source : ProviderDetails) (maximum maximumLatencies : Nat) : ProviderDetails :=
  Capped.mergeAll maximum otherDimension {} (fun details other => details.merge outside other maximum maximumLatencies)
    (outside.order source.entries) target

def boundProviderBreakdowns (details : ProviderDetails) (maximum maximumLatencies : Nat) : ProviderDetails :=
  if details.size < maximum then details
  else mergeProviderBreakdowns outside ∅ details maximum maximumLatencies

structure WindowBucket where
  total : Counter := 0
  byProvider : Dimensions := ∅
  providerDetails : ProviderDetails := ∅
  byAccount : Dimensions := ∅
  byEndpoint : Dimensions := ∅
  byModel : Dimensions := ∅
  latenciesMs : List Nat := []
  deriving DecidableEq

namespace WindowBucket

def record (bucket : WindowBucket) (request : RequestLog) : WindowBucket where
  total := bucket.total.record request
  providerDetails := Capped.alter maxBucketDimensionKeys otherDimension {} (requestProvider request)
    (·.record request maxBucketDimensionKeys) bucket.providerDetails
  byProvider := recordDimensionWithLimit bucket.byProvider (requestProvider request) request maxBucketDimensionKeys
  byAccount := recordDimensionWithLimit bucket.byAccount request.accountId request maxBucketDimensionKeys
  byEndpoint := recordDimensionWithLimit bucket.byEndpoint request.endpoint request maxBucketDimensionKeys
  byModel := recordDimensionWithLimit bucket.byModel request.model request maxBucketDimensionKeys
  latenciesMs := keepLast maxBucketLatencies (bucket.latenciesMs ++ [request.durationMs])

/-- Buckets from before providers were counted are all of Kiro. -/
def migrateLegacyKiroDimensions (bucket : WindowBucket) : WindowBucket :=
  if bucket.total.requests = 0 ∨ bucket.byProvider.size ≠ 0 ∨ bucket.providerDetails.size ≠ 0 then bucket
  else { bucket with
    byProvider := bucket.byProvider.insert "kiro" bucket.total
    providerDetails := bucket.providerDetails.insert "kiro"
      { total := bucket.total
        byAccount := bucket.byAccount
        byEndpoint := bucket.byEndpoint
        byModel := bucket.byModel
        latenciesMs := bucket.latenciesMs } }

/-- The part of `ProxyStats::bound_dimensions` for one bucket. -/
def boundDimensions (bucket : WindowBucket) : WindowBucket :=
  { bucket with
    byProvider := boundDimensionsTo outside bucket.byProvider maxBucketDimensionKeys
    providerDetails :=
      let details := boundProviderBreakdowns outside bucket.providerDetails maxBucketDimensionKeys maxBucketLatencies
      { entries := details.entries.map fun entry => (entry.1, entry.2.bound outside maxBucketDimensionKeys maxBucketLatencies)
        distinct := by simpa [List.map_map, Function.comp_def] using details.distinct }
    byAccount := boundDimensionsTo outside bucket.byAccount maxBucketDimensionKeys
    byEndpoint := boundDimensionsTo outside bucket.byEndpoint maxBucketDimensionKeys
    byModel := boundDimensionsTo outside bucket.byModel maxBucketDimensionKeys
    latenciesMs := keepLast maxBucketLatencies bucket.latenciesMs }

end WindowBucket

/-- A bucket is added to the statistics of a window, or of the whole history. -/
def mergeBucket (output bucket : WindowBucket) : WindowBucket where
  total := output.total.merge bucket.total
  byProvider := mergeDimensionsWithLimit outside output.byProvider bucket.byProvider maxDimensionKeys
  providerDetails :=
    mergeProviderBreakdowns outside output.providerDetails bucket.providerDetails maxDimensionKeys maxLatencies
  byAccount := mergeDimensionsWithLimit outside output.byAccount bucket.byAccount maxDimensionKeys
  byEndpoint := mergeDimensionsWithLimit outside output.byEndpoint bucket.byEndpoint maxDimensionKeys
  byModel := mergeDimensionsWithLimit outside output.byModel bucket.byModel maxDimensionKeys
  latenciesMs := keepLast maxLatencies (output.latenciesMs ++ bucket.latenciesMs)

end Merging

/-! ### What a bucket counts -/

inductive Dimension where
  | provider
  | account
  | endpoint
  | model

def WindowBucket.dimension (bucket : WindowBucket) : Dimension → Dimensions
  | .provider => bucket.byProvider
  | .account => bucket.byAccount
  | .endpoint => bucket.byEndpoint
  | .model => bucket.byModel

def RequestLog.key (request : RequestLog) : Dimension → String
  | .provider => requestProvider request
  | .account => request.accountId
  | .endpoint => request.endpoint
  | .model => request.model

/-- The counters of the keys add up to the total, and there are not too many of them. -/
structure Balanced (total : Counter) (dimensions : Dimensions) : Prop where
  total : weight id dimensions = total
  fits : Fits maxDimensionKeys otherDimension dimensions

def WindowBucket.Sound (bucket : WindowBucket) : Prop := ∀ d, Balanced bucket.total (bucket.dimension d)

def tally (requests : List RequestLog) : Counter := (requests.map Counter.ofRequest).sum

structure Counts (bucket : WindowBucket) (requests : List RequestLog) : Prop where
  total : bucket.total = tally requests
  sound : bucket.Sound

section Counting

variable {outside : Outside} {bucket output : WindowBucket} {requests : List RequestLog} {request : RequestLog}

theorem balanced_empty : Balanced 0 ∅ := ⟨rfl, Capped.fits_empty⟩

theorem counts_empty : Counts {} [] := by
  refine ⟨rfl, fun d => ?_⟩
  cases d with
  | provider | account | endpoint | model => exact balanced_empty

theorem Balanced.record {total : Counter} {dimensions : Dimensions} (balanced : Balanced total dimensions) (key : String)
    (request : RequestLog) :
    Balanced (total.record request) (recordDimensionWithLimit dimensions key request maxDimensionKeys) := by
  constructor
  · have grows : ∀ counter : Counter, id (counter.record request) = id counter + Counter.ofRequest request :=
      fun counter => counter.record_eq request
    refine (Capped.weight_alter (rfl : id (0 : Counter) = 0) grows).trans ?_
    rw [balanced.total, Counter.record_eq]
  · exact Capped.fits_alter balanced.fits

theorem merge_weight (outside : Outside) (target source : Dimensions) (maximum : Nat) :
    weight id (mergeDimensionsWithLimit outside target source maximum) = weight id target + weight id source := by
  have grows : ∀ counter other : Counter, id (counter.merge other) = id counter + id other := fun _ _ => rfl
  refine (Capped.weight_mergeAll (rfl : id (0 : Counter) = 0) grows _).trans ?_
  exact congrArg (weight id target + ·) ((outside.perm source.entries).map _).sum_eq

theorem Balanced.merge {total added : Counter} {target source : Dimensions} (balanced : Balanced total target)
    (other : weight id source = added) :
    Balanced (total.merge added) (mergeDimensionsWithLimit outside target source maxDimensionKeys) := by
  constructor
  · rw [merge_weight, balanced.total, other]
    rfl
  · exact Capped.fits_mergeAll _ balanced.fits

theorem Balanced.bound {total : Counter} {dimensions : Dimensions} (balanced : Balanced total dimensions) :
    Balanced total (boundDimensionsTo outside dimensions maxDimensionKeys) := by
  unfold boundDimensionsTo
  split
  · exact balanced
  · constructor
    · have whole := merge_weight outside ∅ dimensions maxDimensionKeys
      rw [Capped.weight_empty, zero_add, balanced.total] at whole
      exact whole
    · exact Capped.fits_mergeAll _ Capped.fits_empty

theorem Counts.record (counts : Counts bucket requests) (request : RequestLog) :
    Counts (bucket.record request) (requests ++ [request]) := by
  constructor
  · show bucket.total.record request = _
    rw [counts.total, Counter.record_eq, tally, tally, List.map_append, List.sum_append]
    exact congrArg (_ + ·) (add_zero _).symm
  · intro d
    have before := counts.sound d
    cases d with
    | provider | account | endpoint | model => exact before.record _ request

theorem Counts.bound (counts : Counts bucket requests) : Counts (bucket.boundDimensions outside) requests := by
  refine ⟨counts.total, fun d => ?_⟩
  have before := counts.sound d
  cases d with
  | provider | account | endpoint | model => exact before.bound

theorem Counts.migrate (counts : Counts bucket requests) : bucket.migrateLegacyKiroDimensions = bucket := by
  unfold WindowBucket.migrateLegacyKiroDimensions
  split
  · rfl
  · rename_i legacy
    simp only [not_or, ne_eq, not_not] at legacy
    obtain ⟨counted, unkeyed, -⟩ := legacy
    have none_there : bucket.byProvider.entries = [] := List.eq_nil_of_length_eq_zero unkeyed
    have zero : weight id bucket.byProvider = 0 := by rw [weight, none_there]; rfl
    have total := (counts.sound .provider).total
    rw [WindowBucket.dimension, zero] at total
    exact absurd (congrArg Counter.requests total).symm counted

theorem mergeBucket_sound (sound : output.Sound) (other : bucket.Sound) : (mergeBucket outside output bucket).Sound := by
  intro d
  have before := sound d
  have added := (other d).total
  cases d with
  | provider | account | endpoint | model => exact before.merge added

end Counting
end KiroProxy.Stats

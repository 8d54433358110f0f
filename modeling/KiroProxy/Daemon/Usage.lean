import KiroProxy.Json
import KiroProxy.Lib.Maps
import KiroProxy.Daemon.Calendar
import Mathlib.Data.Finset.Sort
import Mathlib.Data.Rat.Defs
import Mathlib.Data.String.Basic

/-! Persistent multi-dimensional usage of one API key. Counters are natural numbers and
credits are rationals. A hash map is a finite map; where the code iterates over one, the
order is a parameter. The ordered map of days pops its least day first. -/
namespace KiroProxy.Usage

open Maps (Traversal size keepLast modify mapValues)
open Calendar (utcDay)

def maxUsageDays : Nat := 366
def maxUsageDimensionKeys : Nat := 256
def otherUsageDimension : String := "other"
def maxUsageHistory : Nat := 100

structure ProviderBilling where
  schemaVersion : Nat
  source : String
  unit : Option String := none
  amount : Option Nat := none
  raw : Value

structure UsageRecord where
  timestamp : Int
  providerId : String := ""
  model : String
  originalModel : Option String
  kiroModel : Option String
  inputTokens : Nat
  outputTokens : Nat
  credits : Rat
  cacheReadTokens : Option Nat
  cacheWriteTokens : Option Nat
  reasoningTokens : Option Nat
  tokenUsageSource : String
  providerBilling : Option ProviderBilling := none
  path : String

structure UsageBucket where
  requests : Nat := 0
  credits : Rat := 0
  inputTokens : Nat := 0
  outputTokens : Nat := 0
  deriving DecidableEq

def UsageBucket.add (bucket : UsageBucket) (record : UsageRecord) : UsageBucket :=
  { requests := bucket.requests + 1
    credits := bucket.credits + record.credits
    inputTokens := bucket.inputTokens + record.inputTokens
    outputTokens := bucket.outputTokens + record.outputTokens }

def UsageBucket.merge (bucket other : UsageBucket) : UsageBucket :=
  { requests := bucket.requests + other.requests
    credits := bucket.credits + other.credits
    inputTokens := bucket.inputTokens + other.inputTokens
    outputTokens := bucket.outputTokens + other.outputTokens }

abbrev Named (ν : Type) := Finmap (fun _ : String => ν)

abbrev Dimension := Named UsageBucket

/-! ### Bounded dimensions -/

section Bounded

variable {ν : Type}

/-- A known key is itself; a new one is itself only while there is room for it. -/
def boundedKey (dimensions : Named ν) (key : String) : String :=
  if key ∈ dimensions ∨ (key ≠ otherUsageDimension ∧ size dimensions < maxUsageDimensionKeys - 1)
  then key else otherUsageDimension

def boundedEntry (empty : ν) (dimensions : Named ν) (key : String) (change : ν → ν) : Named ν :=
  modify dimensions empty (boundedKey dimensions key) change

def mergeEntries (empty : ν) (merge : String → ν → ν → ν) (target : Named ν)
    (entries : List (String × ν)) : Named ν :=
  entries.foldl (fun target entry =>
    boundedEntry empty target entry.1 (fun value => merge entry.1 value entry.2)) target

end Bounded

def usageDimensionEntry (dimensions : Dimension) (key : String)
    (change : UsageBucket → UsageBucket) : Dimension :=
  boundedEntry {} dimensions key change

def boundUsageDimensions (order : Traversal String UsageBucket) (dimensions : Dimension) : Dimension :=
  if size dimensions < maxUsageDimensionKeys then dimensions
  else mergeEntries {} (fun _ => UsageBucket.merge) ∅ (order.order dimensions)

def mergeUsageDimensions (order : Traversal String UsageBucket) (target source : Dimension) :
    Dimension :=
  mergeEntries {} (fun _ => UsageBucket.merge) target (order.order source)

def addDay (daily : Dimension) (record : UsageRecord) : Dimension :=
  keepLast maxUsageDays (modify daily {} (utcDay record.timestamp) (·.add record))

def addOptional (dimensions : Dimension) (key : Option String) (record : UsageRecord) : Dimension :=
  match key with
  | none => dimensions
  | some key => usageDimensionEntry dimensions key (·.add record)

/-! ### One provider -/

structure ProviderApiKeyUsage where
  total : UsageBucket := {}
  daily : Dimension := ∅
  byModel : Dimension := ∅
  byOriginalModel : Dimension := ∅
  byKiroModel : Dimension := ∅
  byPath : Dimension := ∅

structure ProviderOrders where
  byModel : Traversal String UsageBucket
  byOriginalModel : Traversal String UsageBucket
  byKiroModel : Traversal String UsageBucket
  byPath : Traversal String UsageBucket

noncomputable instance : Inhabited ProviderOrders := ⟨default, default, default, default⟩

def ProviderApiKeyUsage.add (usage : ProviderApiKeyUsage) (record : UsageRecord) :
    ProviderApiKeyUsage :=
  { total := usage.total.add record
    daily := addDay usage.daily record
    byModel := usageDimensionEntry usage.byModel record.model (·.add record)
    byOriginalModel := addOptional usage.byOriginalModel record.originalModel record
    byKiroModel := addOptional usage.byKiroModel record.kiroModel record
    byPath := usageDimensionEntry usage.byPath record.path (·.add record) }

def mergeDays (target source : Dimension) : Dimension :=
  keepLast maxUsageDays ((source.keys.sort (· ≤ ·)).foldl
    (fun target day => modify target {} day (·.merge ((source.lookup day).getD {}))) target)

def ProviderApiKeyUsage.merge (orders : ProviderOrders) (usage other : ProviderApiKeyUsage) :
    ProviderApiKeyUsage :=
  { total := usage.total.merge other.total
    daily := mergeDays usage.daily other.daily
    byModel := mergeUsageDimensions orders.byModel usage.byModel other.byModel
    byOriginalModel :=
      mergeUsageDimensions orders.byOriginalModel usage.byOriginalModel other.byOriginalModel
    byKiroModel := mergeUsageDimensions orders.byKiroModel usage.byKiroModel other.byKiroModel
    byPath := mergeUsageDimensions orders.byPath usage.byPath other.byPath }

def ProviderApiKeyUsage.bound (orders : ProviderOrders) (usage : ProviderApiKeyUsage) :
    ProviderApiKeyUsage :=
  { usage with
    daily := keepLast maxUsageDays usage.daily
    byModel := boundUsageDimensions orders.byModel usage.byModel
    byOriginalModel := boundUsageDimensions orders.byOriginalModel usage.byOriginalModel
    byKiroModel := boundUsageDimensions orders.byKiroModel usage.byKiroModel
    byPath := boundUsageDimensions orders.byPath usage.byPath }

def providerUsageEntry (dimensions : Named ProviderApiKeyUsage) (provider : String)
    (change : ProviderApiKeyUsage → ProviderApiKeyUsage) : Named ProviderApiKeyUsage :=
  boundedEntry {} dimensions provider change

structure Orders where
  byModel : Traversal String UsageBucket
  byProvider : Traversal String UsageBucket
  byOriginalModel : Traversal String UsageBucket
  byKiroModel : Traversal String UsageBucket
  byPath : Traversal String UsageBucket
  providers : Traversal String ProviderApiKeyUsage
  merging : String → ProviderOrders
  bounding : String → ProviderOrders

noncomputable instance : Inhabited Orders :=
  ⟨default, default, default, default, default, default, default, default⟩

def boundProviderUsage (orders : Orders) (dimensions : Named ProviderApiKeyUsage) :
    Named ProviderApiKeyUsage :=
  let rebuilt := if size dimensions < maxUsageDimensionKeys then dimensions
    else mergeEntries {} (fun provider => ProviderApiKeyUsage.merge (orders.merging provider)) ∅
      (orders.providers.order dimensions)
  mapValues (fun provider usage => usage.bound (orders.bounding provider)) rebuilt

/-! ### One key -/

structure ApiKeyUsage where
  totalRequests : Nat := 0
  totalCredits : Rat := 0
  totalInputTokens : Nat := 0
  totalOutputTokens : Nat := 0
  daily : Dimension := ∅
  byProvider : Dimension := ∅
  providerDetails : Named ProviderApiKeyUsage := ∅
  byModel : Dimension := ∅
  byOriginalModel : Dimension := ∅
  byKiroModel : Dimension := ∅
  byPath : Dimension := ∅
  history : List UsageRecord := []

def providerOf (record : UsageRecord) : String :=
  if record.providerId = "" then "kiro" else record.providerId

/-- `pop_front` until at most `limit` records are left. -/
def keepRecent (limit : Nat) (history : List UsageRecord) : List UsageRecord :=
  history.drop (history.length - limit)

def ApiKeyUsage.add (usage : ApiKeyUsage) (record : UsageRecord) : ApiKeyUsage :=
  let provider := providerOf record
  { totalRequests := usage.totalRequests + 1
    totalCredits := usage.totalCredits + record.credits
    totalInputTokens := usage.totalInputTokens + record.inputTokens
    totalOutputTokens := usage.totalOutputTokens + record.outputTokens
    daily := addDay usage.daily record
    byProvider := usageDimensionEntry usage.byProvider provider (·.add record)
    providerDetails := providerUsageEntry usage.providerDetails provider (·.add record)
    byModel := usageDimensionEntry usage.byModel record.model (·.add record)
    byOriginalModel := addOptional usage.byOriginalModel record.originalModel record
    byKiroModel := addOptional usage.byKiroModel record.kiroModel record
    byPath := usageDimensionEntry usage.byPath record.path (·.add record)
    history := keepRecent maxUsageHistory (usage.history ++ [record]) }

def ApiKeyUsage.migrateLegacyKiroDimensions (usage : ApiKeyUsage) : ApiKeyUsage :=
  if usage.totalRequests = 0 ∨ size usage.byProvider ≠ 0 ∨ size usage.providerDetails ≠ 0 then usage
  else
    let total : UsageBucket :=
      { requests := usage.totalRequests, credits := usage.totalCredits
        inputTokens := usage.totalInputTokens, outputTokens := usage.totalOutputTokens }
    { usage with
      byProvider := usage.byProvider.insert "kiro" total
      providerDetails := usage.providerDetails.insert "kiro"
        { total := total, daily := usage.daily, byModel := usage.byModel
          byOriginalModel := usage.byOriginalModel, byKiroModel := usage.byKiroModel
          byPath := usage.byPath } }

def ApiKeyUsage.bound (orders : Orders) (usage : ApiKeyUsage) : ApiKeyUsage :=
  { usage with
    daily := keepLast maxUsageDays usage.daily
    byModel := boundUsageDimensions orders.byModel usage.byModel
    byProvider := boundUsageDimensions orders.byProvider usage.byProvider
    providerDetails := boundProviderUsage orders usage.providerDetails
    byOriginalModel := boundUsageDimensions orders.byOriginalModel usage.byOriginalModel
    byKiroModel := boundUsageDimensions orders.byKiroModel usage.byKiroModel
    byPath := boundUsageDimensions orders.byPath usage.byPath
    history := keepRecent maxUsageHistory usage.history }

def ApiKeyUsage.restart (orders : Orders) (usage : ApiKeyUsage) : ApiKeyUsage :=
  usage.migrateLegacyKiroDimensions.bound orders

end KiroProxy.Usage

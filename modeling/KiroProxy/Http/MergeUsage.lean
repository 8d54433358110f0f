import KiroProxy.Http.Decode
import KiroProxy.Lib.Run

/-! `merge_usage`: a usage report is merged into what is known of an answer's usage, and when the counts stay
consistent. -/
namespace KiroProxy.Http

open Kiro
open KiroProxy.Run (Along)

/-! ### The readings of a report -/

/-- The conversions of doubles: a count is there for the finite ones that are not negative. -/
structure Doubles where
  floatAsU64 : String → Option Nat
  textAsU64 : String → Option Nat
  numberAsF64 : Number → Option Rat
  textAsF64 : String → Option Rat

def isNumberOrString : Value → Bool
  | .number _ | .string _ => true
  | _ => false

mutual

/-- The first of the names with a number or a text; without one, the first one inside of the fields. -/
def findNumericValue (keys : List String) : Value → Option Value
  | .object fields => ((keys.filterMap fun key => fields.lookup key).find? isNumberOrString).or (findInFields keys fields)
  | .array items => findInItems keys items
  | _ => none

def findInFields (keys : List String) : List (String × Value) → Option Value
  | [] => none
  | (_, child) :: rest => (findNumericValue keys child).or (findInFields keys rest)

def findInItems (keys : List String) : List Value → Option Value
  | [] => none
  | child :: rest => (findNumericValue keys child).or (findInItems keys rest)

end

def findNumber (doubles : Doubles) (value : Value) (keys : List String) : Option Nat :=
  (findNumericValue keys value).bind fun found =>
    match found with
    | .number (.posInt n) => some n
    | .number (.negInt _) => none
    | .number (.float text) => doubles.floatAsU64 text
    | .string text => doubles.textAsU64 text
    | _ => none

def findFloat (doubles : Doubles) (value : Value) (keys : List String) : Option Rat :=
  (findNumericValue keys value).bind fun found =>
    match found with
    | .number n => doubles.numberAsF64 n
    | .string text => doubles.textAsF64 text
    | _ => none

structure UsageReport where
  uncached : Option Nat := none
  totalInput : Option Nat := none
  cacheRead : Option Nat := none
  cacheWrite : Option Nat := none
  outputTokens : Option Nat := none
  totalTokens : Option Nat := none
  reasoningTokens : Option Nat := none
  credits : Option Rat := none

def usageReport (doubles : Doubles) (value : Value) : UsageReport where
  uncached := findNumber doubles value ["uncachedInputTokens"]
  totalInput := findNumber doubles value ["inputTokens", "input_tokens"]
  cacheRead := findNumber doubles value
    ["cacheReadInputTokens", "cacheReadTokens", "cache_read_input_tokens", "cache_read_tokens"]
  cacheWrite := findNumber doubles value
    ["cacheWriteInputTokens", "cacheWriteTokens", "cache_creation_input_tokens", "cache_write_tokens"]
  outputTokens := findNumber doubles value ["outputTokens", "output_tokens"]
  totalTokens := findNumber doubles value ["totalTokens", "total_tokens"]
  reasoningTokens := findNumber doubles value ["reasoningTokens", "reasoning_tokens"]
  credits := findFloat doubles value ["credits", "creditsConsumed", "creditsUsed", "creditUsage", "billedCredits",
    "usedCredits", "charge", "cost", "meteredUsage", "usage"]

/-! ### The merge -/

namespace UsageReport

def cacheTokens (report : UsageReport) : Nat := saturatingAdd (report.cacheRead.getD 0) (report.cacheWrite.getD 0)

/-- The input before the total of all tokens is looked at. A plain input is the whole prompt: the cache counters
describe subsets of it. -/
def promptTokens (report : UsageReport) (known : Nat) : Nat :=
  match report.uncached, report.totalInput with
  | some uncached, _ => saturatingAdd uncached report.cacheTokens
  | none, some input => max input report.cacheTokens
  | none, none => if report.cacheTokens > 0 then report.cacheTokens else known

def mergeInto (report : UsageReport) (output : UsageInfo) : UsageInfo :=
  let inputTokens := report.promptTokens output.inputTokens
  let outputTokens := report.outputTokens.getD output.outputTokens
  { inputTokens := match report.totalTokens with
      | some total => if inputTokens = 0 then total - outputTokens else inputTokens
      | none => inputTokens
    outputTokens := outputTokens
    cacheReadTokens := report.cacheRead.getD output.cacheReadTokens
    cacheWriteTokens := report.cacheWrite.getD output.cacheWriteTokens
    reasoningTokens := report.reasoningTokens.getD output.reasoningTokens
    credits := if output.credits ≤ 0 then (report.credits.filter (0 < ·)).getD output.credits else output.credits }

end UsageReport

def mergeUsage (doubles : Doubles) (output : UsageInfo) (value : Value) : UsageInfo :=
  (usageReport doubles value).mergeInto output

/-! ### What a report has to cover -/

def Covers (usage : UsageInfo) : Prop := usage.cacheReadTokens + usage.cacheWriteTokens ≤ usage.inputTokens

namespace UsageReport

def Partial (report : UsageReport) : Prop :=
  report.uncached = none ∧ report.totalInput = none ∧ report.totalTokens = none

def reported (report : UsageReport) : Nat := report.cacheRead.getD 0 + report.cacheWrite.getD 0

/-- The cached tokens that stay from before, because the report does not count them. -/
def kept (report : UsageReport) (usage : UsageInfo) : Nat :=
  (if report.cacheRead.isSome then 0 else usage.cacheReadTokens) +
    (if report.cacheWrite.isSome then 0 else usage.cacheWriteTokens)

def leftOver (report : UsageReport) (usage : UsageInfo) : Nat :=
  report.totalTokens.getD 0 - report.outputTokens.getD usage.outputTokens

/-- The input that a report declares has room for the cached tokens that stay, and cache counters alone come where
nothing has been counted that they would replace. -/
def Fits (report : UsageReport) (usage : UsageInfo) : Prop :=
  match report.uncached, report.totalInput with
  | some uncached, _ =>
    if uncached = 0 ∧ report.reported = 0 then report.kept usage ≤ report.leftOver usage
    else report.kept usage ≤ uncached ∧ report.kept usage + report.reported ≤ 2 ^ 64 - 1
  | none, some input =>
    if input = 0 ∧ report.reported = 0 then report.kept usage ≤ report.leftOver usage
    else report.kept usage + report.reported ≤ input ∨ report.kept usage = 0 ∧ report.reported ≤ 2 ^ 64 - 1
  | none, none =>
    report.reported = 0 ∨ report.kept usage = 0 ∧ report.reported ≤ 2 ^ 64 - 1 ∧
      (report.totalTokens = none → usage.inputTokens ≤ report.reported)

theorem merged_cached (report : UsageReport) (usage : UsageInfo) :
    (report.mergeInto usage).cacheReadTokens + (report.mergeInto usage).cacheWriteTokens =
      report.kept usage + report.reported := by
  unfold mergeInto kept reported
  cases report.cacheRead <;> cases report.cacheWrite <;> simp [Nat.add_comm]

theorem kept_le (report : UsageReport) (usage : UsageInfo) :
    report.kept usage ≤ usage.cacheReadTokens + usage.cacheWriteTokens := by
  unfold kept
  split <;> split <;> omega

theorem cacheTokens_eq (report : UsageReport) : report.cacheTokens = min report.reported (2 ^ 64 - 1) := rfl

theorem merged_input (report : UsageReport) (usage : UsageInfo) :
    (report.mergeInto usage).inputTokens =
      if report.promptTokens usage.inputTokens = 0 ∧ report.totalTokens.isSome then report.leftOver usage
      else report.promptTokens usage.inputTokens := by
  unfold mergeInto leftOver
  cases report.totalTokens with
  | none => simp
  | some total => by_cases empty : report.promptTokens usage.inputTokens = 0 <;> simp [empty]

theorem leftOver_none {report : UsageReport} (none : report.totalTokens.isSome = false) (usage : UsageInfo) :
    report.leftOver usage = 0 := by
  unfold leftOver
  rw [Option.isSome_eq_false_iff.1 none |> Option.isNone_iff_eq_none.1]
  exact Nat.zero_sub _

theorem consistent_iff_fits (report : UsageReport) {usage : UsageInfo} (covers : Covers usage) :
    Covers (report.mergeInto usage) ∧
        (report.Partial → usage.inputTokens ≤ (report.mergeInto usage).inputTokens) ↔ report.Fits usage := by
  have stays := report.kept_le usage
  have nothing : report.totalTokens.isSome = false → report.leftOver usage = 0 := fun none => leftOver_none none usage
  unfold Covers at covers ⊢
  rw [merged_cached, merged_input]
  unfold promptTokens Fits Partial
  rw [cacheTokens_eq]
  generalize report.kept usage = kept at stays ⊢
  generalize report.reported = reported
  generalize report.leftOver usage = room at nothing ⊢
  generalize report.totalTokens = total at nothing ⊢
  cases report.uncached with
  | some amount =>
    unfold saturatingAdd
    cases total <;> simp only [Option.isSome_none, Option.isSome_some] at nothing ⊢ <;> grind
  | none =>
    cases report.totalInput with
    | some amount => cases total <;> simp only [Option.isSome_none, Option.isSome_some] at nothing ⊢ <;> grind
    | none => cases total <;> simp only [Option.isSome_none, Option.isSome_some] at nothing ⊢ <;> grind

end UsageReport

/-! ### Whole answers -/

def reportOf : KiroEvent → Option Value
  | .messageMetadata usage | .usage usage => some usage
  | _ => none

section Answer

variable (doubles : Doubles) (fromStr : String → Option Value)

def merging : Outside := ⟨fromStr, mergeUsage doubles⟩

/-- One event more; one that ends the answer with an error leaves what is known. -/
def heard (decoded : DecodedResponse) (event : KiroEvent) : DecodedResponse :=
  match decoded.push (merging doubles fromStr) event with
  | .ok after => after
  | .error _ => decoded

/-- After the event the input covers the cached tokens, and it has not become smaller where the event says nothing of
the input as a whole. -/
def Consistent (decoded : DecodedResponse) (event : KiroEvent) : Prop :=
  Covers (heard doubles fromStr decoded event).usage ∧
    ∀ report ∈ reportOf event, (usageReport doubles report).Partial →
      decoded.usage.inputTokens ≤ (heard doubles fromStr decoded event).usage.inputTokens

def EventFits (decoded : DecodedResponse) (event : KiroEvent) : Prop :=
  ∀ report ∈ reportOf event, (usageReport doubles report).Fits decoded.usage

variable {doubles fromStr}

theorem heard_report {event : KiroEvent} {report : Value} (found : reportOf event = some report)
    (decoded : DecodedResponse) :
    heard doubles fromStr decoded event =
      { decoded with usage := (usageReport doubles report).mergeInto decoded.usage } := by
  cases event with
  | messageMetadata usage =>
    cases found
    rfl
  | usage usage =>
    cases found
    rfl
  | _ => cases found

theorem heard_other {event : KiroEvent} (none : reportOf event = none) (decoded : DecodedResponse) :
    (heard doubles fromStr decoded event).usage = decoded.usage := by
  cases event with
  | messageMetadata usage => cases none
  | usage usage => cases none
  | toolUse id name inputDelta stop =>
    unfold heard DecodedResponse.push
    by_cases large : decoded.toolBytes + inputDelta.utf8ByteSize > maxCumulativeToolInputBytes
    · simp [large]
    · simp [large]
  | _ => rfl

variable (doubles fromStr) in
theorem consistent_iff {decoded : DecodedResponse} (covers : Covers decoded.usage) (event : KiroEvent) :
    Consistent doubles fromStr decoded event ↔ EventFits doubles decoded event := by
  unfold Consistent EventFits
  cases found : reportOf event with
  | none =>
    rw [heard_other found]
    simp [covers]
  | some report =>
    rw [heard_report found]
    simp only [Option.mem_def, Option.some.injEq, forall_eq']
    exact (usageReport doubles report).consistent_iff_fits covers

theorem along_iff {decoded : DecodedResponse} (covers : Covers decoded.usage) (events : List KiroEvent) :
    Along (heard doubles fromStr) (Consistent doubles fromStr) decoded events ↔
      Along (heard doubles fromStr) (EventFits doubles) decoded events := by
  induction events generalizing decoded with
  | nil => exact Iff.rfl
  | cons event rest ih =>
    have here := consistent_iff doubles fromStr covers event
    constructor
    · exact fun along => ⟨here.1 along.1, (ih along.1.1).1 along.2⟩
    · exact fun along => ⟨here.2 along.1, (ih (here.2 along.1).1).2 along.2⟩

end Answer

/-- The usage of an answer stays consistent just as long as every report fits what was known before it. -/
theorem usage_consistent_iff (doubles : Doubles) (fromStr : String → Option Value) (events : List KiroEvent) :
    Along (heard doubles fromStr) (Consistent doubles fromStr) {} events ↔
      Along (heard doubles fromStr) (EventFits doubles) {} events :=
  along_iff (show Covers ({} : DecodedResponse).usage from Nat.le_refl 0) events

/-- First a hundred tokens read from the cache, then fifty written to it: fifty are left as the input. -/
theorem usage_inconsistent : ¬ Along (heard ⟨fun _ => none, fun _ => none, fun _ => none, fun _ => none⟩ fun _ => none)
    (Consistent ⟨fun _ => none, fun _ => none, fun _ => none, fun _ => none⟩ fun _ => none) {}
    [.usage (.object [("cacheReadInputTokens", .number (.posInt 100))]),
      .usage (.object [("cacheWriteInputTokens", .number (.posInt 50))])] := by
  intro along
  have covers : 150 ≤ 50 := along.2.1.1
  exact absurd covers (by decide)

end KiroProxy.Http

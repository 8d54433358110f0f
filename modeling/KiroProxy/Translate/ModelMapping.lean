import KiroProxy.Lib.Text
import Mathlib.Algebra.GroupWithZero.Nat
import Mathlib.Data.List.Sort
import Mathlib.Data.Rat.Defs

/-! The model mapping rules: which of them applies to a model, and the target that it chooses. -/
namespace KiroProxy

/-- `start` and `end` of the configuration are `startClock` and `endClock` here. -/
structure ModelMappingSchedule where
  mode : String := "always"
  daysOfWeek : Option (List Nat) := none
  days : Option (List String) := none
  startMinutes : Option Nat := none
  startClock : Option String := none
  endMinutes : Option Nat := none
  endClock : Option String := none
  startAt : Option Int := none
  endAt : Option Int := none

structure ModelMappingRule where
  name : String := ""
  enabled : Bool := true
  kind : String := "replace"
  sourceModels : List String := []
  targetModels : List String := []
  providers : List String := []
  serviceIds : List String := []
  priority : Int := 0
  weights : Option (List Nat) := none
  maxRemainingCreditPercent : Option Rat := none
  apiKeyIds : Option (List String) := none
  schedule : Option ModelMappingSchedule := none

structure ModelRoute where
  original : String
  mapped : String
  rule : Option String := none
  ruleIndex : Option Nat := none

structure ModelMappingContext where
  providerId : String
  serviceId : Option String := none
  apiKeyId : Option String := none
  remainingPercent : Option Rat := none

structure LocalTime where
  timestampMs : Int := 0
  day : Nat := 0
  minutes : Nat := 0

structure MappingDraws where
  clock : Nat → LocalTime
  number : Nat → Nat

namespace ModelMapping

def stripDiscoveryPrefix (model : String) : String :=
  let (front, rest) := model.toList.splitAt 10
  if Text.eqIgnoreAsciiCase (String.ofList front) "anthropic." then String.ofList rest else model

/-- `str::parse::<u16>`: one sign, then at least one digit. -/
def parseU16 (s : String) : Option Nat :=
  let digits := match s.toList with
    | '+' :: rest => rest
    | cs => cs
  if digits ≠ [] ∧ digits.all Char.isDigit then
    let n := digits.foldl (fun n c => n * 10 + (c.toNat - 48)) 0
    if n < 2 ^ 16 then some n else none
  else none

def parseClock (value : String) : Option Nat := do
  let (hour, minute) ← Text.splitOnce value ":"
  let hour ← parseU16 hour
  let minute ← parseU16 minute
  if hour < 24 ∧ minute < 60 then some (hour * 60 + minute) else none

def parseWeekday (value : String) : Option Nat :=
  match Text.toAsciiLowercase (Text.trim value) with
  | "sun" | "sunday" => some 0
  | "mon" | "monday" => some 1
  | "tue" | "tues" | "tuesday" => some 2
  | "wed" | "wednesday" => some 3
  | "thu" | "thur" | "thurs" | "thursday" => some 4
  | "fri" | "friday" => some 5
  | "sat" | "saturday" => some 6
  | _ => none

def scheduleMode (schedule : ModelMappingSchedule) : String :=
  if schedule.mode = "always" ∧ (schedule.startClock.isSome ∨ schedule.endClock.isSome ∨
      schedule.startMinutes.isSome ∨ schedule.endMinutes.isSome ∨ schedule.days.isSome ∨
      schedule.daysOfWeek.isSome) then "daily"
  else if schedule.mode = "always" ∧ (schedule.startAt.isSome ∨ schedule.endAt.isSome) then "range"
  else schedule.mode

def scheduleActiveAt (schedule : ModelMappingSchedule) (now : LocalTime) : Bool :=
  match scheduleMode schedule with
  | "range" =>
    schedule.startAt.all (· ≤ now.timestampMs) && schedule.endAt.all (now.timestampMs ≤ ·)
  | "daily" =>
    let configuredDays := schedule.daysOfWeek <|> schedule.days.map (·.filterMap parseWeekday)
    if configuredDays.any fun days => !days.isEmpty && !days.contains now.day then false
    else
      let start := schedule.startMinutes <|> schedule.startClock.bind parseClock
      let stop := schedule.endMinutes <|> schedule.endClock.bind parseClock
      match start, stop with
      | some start, some stop =>
        if start ≤ stop then start ≤ now.minutes ∧ now.minutes < stop
        else start ≤ now.minutes ∨ now.minutes < stop
      | _, _ => true
  | _ => true

def scheduleActive (schedule : Option ModelMappingSchedule) (now : LocalTime) : Bool :=
  schedule.all (scheduleActiveAt · now)

def glob (pattern value : String) : Bool :=
  if pattern = "*" then true
  else match Text.splitOnce pattern "*" with
    | some (front, back) => Text.startsWith value front && Text.endsWith value back
    | none => Text.eqIgnoreAsciiCase pattern value

/-- `WeightedIndex`: no index where all weights are zero, else the one in whose share the number falls. -/
def weightedIndex (weights : List Nat) (number : Nat) : Option Nat :=
  if weights.sum = 0 then none
  else
    let chosen := number % weights.sum
    some ((List.range weights.length).countP fun i => 0 < i ∧ (weights.take i).sum ≤ chosen)

def chooseTarget (rule : ModelMappingRule) (number : Nat) : Option String :=
  if rule.targetModels.isEmpty then none
  else if rule.kind ≠ "loadbalance" ∨ rule.targetModels.length = 1 then rule.targetModels.head?
  else
    let weights := (rule.weights.filter (·.length = rule.targetModels.length)).getD
      (List.replicate rule.targetModels.length 1)
    (weightedIndex weights number).bind (rule.targetModels[·]?)

def applies (rule : ModelMappingRule) (model : String) (context : ModelMappingContext) (now : LocalTime) : Bool :=
  (if rule.providers.isEmpty then context.providerId = "kiro" else rule.providers.contains context.providerId) &&
  (rule.serviceIds.isEmpty || context.serviceId.any rule.serviceIds.contains) &&
  scheduleActive rule.schedule now &&
  rule.sourceModels.any (fun pattern => glob pattern model || glob pattern (stripDiscoveryPrefix model)) &&
  rule.apiKeyIds.all (fun ids => ids.isEmpty || context.apiKeyId.any ids.contains) &&
  rule.maxRemainingCreditPercent.all fun maximum => context.remainingPercent.any (· < maximum)

def unqualified (mapped providerId : String) : String :=
  match Text.splitOnce mapped "/" with
  | some (provider, model) => if provider = providerId then model else mapped
  | none => mapped

def ordered (rules : List ModelMappingRule) : List (ModelMappingRule × Nat) :=
  (rules.zipIdx.filter (·.1.enabled)).insertionSort fun a b => a.1.priority ≤ b.1.priority

/-- A rule that applies but has no target is passed over. -/
def mapModelForProvider (model : String) (rules : List ModelMappingRule) (context : ModelMappingContext)
    (defaultModel : String) (draws : MappingDraws) : ModelRoute :=
  let matching := (ordered rules).findSome? fun (rule, index) =>
    if applies rule model context (draws.clock index) then
      (chooseTarget rule (draws.number index)).map fun mapped =>
        { original := model, mapped := unqualified mapped context.providerId, rule := some rule.name,
          ruleIndex := some index : ModelRoute }
    else none
  matching.getD
    { original := model
      mapped := if Text.trim defaultModel = "" then stripDiscoveryPrefix model else defaultModel }

/-- `model_glob_matches` -/
def modelGlobMatches (pattern model : String) : Bool := glob pattern model

end ModelMapping

end KiroProxy

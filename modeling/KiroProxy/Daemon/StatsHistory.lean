import KiroProxy.Daemon.Calendar
import KiroProxy.Daemon.StatsBucket
import KiroProxy.Lib.Run
import Mathlib.Data.Int.Order.Basic
import Mathlib.Data.List.Dedup
import Mathlib.Data.List.Lex
import Mathlib.Data.List.Sort

/-! The statistics store: buckets of minutes in memory, the document that checkpoints them, and a shard
of history for every hour. -/
namespace KiroProxy.Stats

open Calendar (civilFromDays daysFromCivil)

abbrev Minutes := Table Int WindowBucket

def inOrder (minutes : Minutes) : List (Int × WindowBucket) := minutes.entries.insertionSort (·.1 ≤ ·.1)

/-! ### Names of shards -/

structure ShardName where
  year : Int
  month : Int
  date : Int
  hour : Option Int
  deriving DecidableEq

namespace ShardName

def day (name : ShardName) : Int × Int × Int := (name.year, name.month, name.date)

def numbers (name : ShardName) : List Int := [name.year, name.month, name.date] ++ name.hour.toList

end ShardName

def utcDayFromMinute (minute : Int) : ShardName :=
  let (year, month, date) := civilFromDays (minute / 1440)
  ⟨year, month, date, none⟩

def utcHourFromMinute (minute : Int) : ShardName :=
  { utcDayFromMinute minute with hour := some (minute % 1440 / 60) }

/-- A name has room for four digits of the year. -/
def historyRangeFromShardName (name : ShardName) : Option (Int × Int) :=
  let days := daysFromCivil name.year name.month name.date
  if ¬ (0 ≤ name.year ∧ name.year ≤ 9999) ∨ civilFromDays days ≠ name.day then none
  else match name.hour with
    | none => some (days * 86400, days * 86400 + 86399)
    | some hour =>
      if 0 ≤ hour ∧ hour < 24 then some (days * 86400 + hour * 3600, days * 86400 + hour * 3600 + 3599) else none

/-! ### Documents -/

structure ProxyStats extends WindowBucket where
  minuteBuckets : Minutes := ∅
  historyStartedAt : Option Int := none

namespace ProxyStats

def migrateLegacyKiroDimensions (stats : ProxyStats) : ProxyStats where
  toWindowBucket := stats.toWindowBucket.migrateLegacyKiroDimensions
  minuteBuckets := stats.minuteBuckets.mapValues WindowBucket.migrateLegacyKiroDimensions
  historyStartedAt := stats.historyStartedAt

def boundDimensions (outside : Outside) (stats : ProxyStats) : ProxyStats where
  total := stats.total
  byProvider := boundDimensionsTo outside stats.byProvider maxDimensionKeys
  providerDetails := (boundProviderBreakdowns outside stats.providerDetails maxDimensionKeys maxLatencies).mapValues
    (·.bound outside maxDimensionKeys maxLatencies)
  byAccount := boundDimensionsTo outside stats.byAccount maxDimensionKeys
  byEndpoint := boundDimensionsTo outside stats.byEndpoint maxDimensionKeys
  byModel := boundDimensionsTo outside stats.byModel maxDimensionKeys
  latenciesMs := stats.latenciesMs
  minuteBuckets := stats.minuteBuckets.mapValues (·.boundDimensions outside)
  historyStartedAt := stats.historyStartedAt.or ((inOrder stats.minuteBuckets).head?.map (·.1 * 60))

end ProxyStats

def recordPersistent (state : ProxyStats) (request : RequestLog) : ProxyStats where
  total := state.total.record request
  byProvider := recordDimensionWithLimit state.byProvider (requestProvider request) request maxDimensionKeys
  providerDetails := Capped.alter maxDimensionKeys otherDimension {} (requestProvider request)
    (·.record request maxDimensionKeys) state.providerDetails
  byAccount := recordDimensionWithLimit state.byAccount request.accountId request maxDimensionKeys
  byEndpoint := recordDimensionWithLimit state.byEndpoint request.endpoint request maxDimensionKeys
  byModel := recordDimensionWithLimit state.byModel request.model request maxDimensionKeys
  latenciesMs := keepLast maxLatencies (state.latenciesMs ++ [request.durationMs])
  minuteBuckets := state.minuteBuckets
  historyStartedAt :=
    let minute := request.timestamp / 60
    some (state.historyStartedAt.elim (minute * 60) (min · (minute * 60)))

def compactSnapshot (state : ProxyStats) : ProxyStats := { state with minuteBuckets := ∅ }

structure Files where
  stats : Option ProxyStats := none
  history : Table ShardName Minutes := ∅

def readHistoryDay (files : Files) (name : ShardName) : Minutes :=
  ((files.history.get? name).getD ∅).mapValues WindowBucket.migrateLegacyKiroDimensions

/-! ### The store -/

structure StatsRuntimeState where
  persistent : ProxyStats := {}
  activeMinutes : Minutes := ∅
  dirtyMinutes : List Int := []

section Store

variable (outside : Outside)

/-- What the document has of a minute takes the place of what the shards have. -/
def load (now : Int) (files : Files) : StatsRuntimeState :=
  let persistent := (files.stats.getD {}).migrateLegacyKiroDimensions.boundDimensions outside
  let minute := now / 60
  let today : Minutes := (readHistoryDay files (utcDayFromMinute minute)).retain (· / 60 = minute / 60)
  { persistent := compactSnapshot persistent
    activeMinutes := (today.extend (readHistoryDay files (utcHourFromMinute minute))).extend persistent.minuteBuckets
    dirtyMinutes := persistent.minuteBuckets.entries.map Prod.fst }

def StatsRuntimeState.record (state : StatsRuntimeState) (request : RequestLog) : StatsRuntimeState :=
  let request := { request with model := outside.logModel request.model }
  let minute := request.timestamp / 60
  { persistent := recordPersistent state.persistent request
    activeMinutes := state.activeMinutes.insert minute (((state.activeMinutes.get? minute).getD {}).record request)
    dirtyMinutes := state.dirtyMinutes.insert minute }

/-! ### Persisting -/

/-- What a persist has still to do: the checkpoint; the shards of these hours and then the compact
document; or to let go of what was written. -/
inductive Phase where
  | checkpointing
  | sharding (hours : List ShardName)
  | releasing

structure Persist where
  snapshot : ProxyStats
  dirty : Minutes
  phase : Phase

def hoursOf (minutes : Minutes) : List ShardName :=
  (minutes.entries.map fun entry => utcHourFromMinute entry.1).dedup.insertionSort (·.numbers ≤ ·.numbers)

def StatsRuntimeState.snapshot (state : StatsRuntimeState) : Persist :=
  let dirty := state.activeMinutes.retain (state.dirtyMinutes.contains ·)
  { snapshot := compactSnapshot state.persistent
    dirty := dirty
    phase := if dirty.size = 0 then .sharding [] else .checkpointing }

def persistHour (files : Files) (minutes : Minutes) (hour : ShardName) : Files :=
  { files with
    history := files.history.insert hour
      ((readHistoryDay files hour).extend (minutes.retain (utcHourFromMinute · = hour))) }

def Persist.write (persist : Persist) (files : Files) : Files × Persist :=
  match persist.phase with
  | .checkpointing =>
    ({ files with stats := some { persist.snapshot with minuteBuckets := persist.dirty } },
      { persist with phase := .sharding (hoursOf persist.dirty) })
  | .sharding (hour :: hours) =>
    (persistHour files persist.dirty hour, { persist with phase := .sharding hours })
  | .sharding [] => ({ files with stats := some persist.snapshot }, { persist with phase := .releasing })
  | .releasing => (files, persist)

def StatsRuntimeState.release (state : StatsRuntimeState) (now : Int) (persisted : Minutes) : StatsRuntimeState :=
  let dirty := state.dirtyMinutes.filter fun minute =>
    (persisted.get? minute).isNone ∨ state.activeMinutes.get? minute ≠ persisted.get? minute
  { state with
    dirtyMinutes := dirty
    activeMinutes := state.activeMinutes.retain fun minute => now / 3600 ≤ minute / 60 ∨ minute ∈ dirty }

/-! ### Windows -/

def i64Min : Int := -2 ^ 63

def i64Max : Int := 2 ^ 63 - 1

def reversed (start finish : Option Int) : Bool :=
  match start, finish with
  | some start, some finish => start > finish
  | _, _ => false

def between (start finish : Option Int) (minute : Int) : Bool :=
  start.getD i64Min / 60 ≤ minute ∧ minute ≤ finish.getD i64Max / 60

def activeBucketsBetween (minutes : Minutes) (start finish : Option Int) : Minutes :=
  if reversed start finish then ∅ else minutes.retain (between start finish)

/-- The shards of the history that a range meets, in the order of their names. -/
def shardsBetween (files : Files) (start finish : Option Int) : List ShardName :=
  let meeting := fun name => (historyRangeFromShardName name).any fun range =>
    start.getD i64Min ≤ range.2 ∧ range.1 ≤ finish.getD i64Max
  ((files.history.entries.map Prod.fst).filter meeting).insertionSort (·.numbers ≤ ·.numbers)

def dayMinutes (files : Files) (start finish : Option Int) (shards : List ShardName) : Minutes :=
  shards.foldl (fun minutes name => minutes.extend ((readHistoryDay files name).retain (between start finish))) ∅

def readHistoryBetween (files : Files) (start finish : Option Int) (active : Minutes) : WindowBucket :=
  if reversed start finish then {}
  else
    let shards := shardsBetween files start finish
    (shards.map ShardName.day).dedup.foldl (fun output day =>
      (inOrder (dayMinutes files start finish (shards.filter (·.day = day)))).foldl (fun output entry =>
        if (active.get? entry.1).isSome then output else mergeBucket outside output entry.2) output) {}

def windowBetween (state : StatsRuntimeState) (files : Files) (start finish : Option Int) : ProxyStats :=
  if start = none ∧ finish = none then compactSnapshot state.persistent
  else
    let active := activeBucketsBetween state.activeMinutes start finish
    let output := readHistoryBetween outside files start finish active
    { toWindowBucket := (inOrder active).foldl (fun output entry => mergeBucket outside output entry.2) output
      historyStartedAt := state.persistent.historyStartedAt }

/-! ### Runs -/

/-- A file is replaced or not; the writer may be told that it was not though it was. -/
inductive Outcome where
  | done
  | refused
  | unacknowledged
  deriving DecidableEq

structure System where
  clock : Nat
  files : Files := {}
  state : StatsRuntimeState := {}
  persist : Option Persist := none

inductive Action where
  | tick (seconds : Nat)
  | record (request : RequestLog)
  | begin
  | write (outcome : Outcome)
  | release
  | crash

/-- A persist waits for the one in progress, and a write that fails ends it. -/
def System.step (s : System) : Action → System
  | .tick seconds => { s with clock := s.clock + seconds }
  | .record request => { s with state := s.state.record outside { request with timestamp := s.clock } }
  | .begin => if s.persist.isSome then s else { s with persist := some s.state.snapshot }
  | .write outcome =>
    match s.persist with
    | none => s
    | some persist =>
      match outcome with
      | .done => { s with files := (persist.write s.files).1, persist := some (persist.write s.files).2 }
      | .refused => { s with persist := none }
      | .unacknowledged => { s with files := (persist.write s.files).1, persist := none }
  | .release =>
    match s.persist with
    | some ⟨_, dirty, .releasing⟩ => { s with state := s.state.release s.clock dirty, persist := none }
    | _ => s
  | .crash => { s with state := load outside s.clock s.files, persist := none }

end Store
end KiroProxy.Stats

import KiroProxy.Daemon.StatsHistory

/-! Every minute's bucket counts the requests of that minute, over every run of records, persists and
crashes. -/
namespace KiroProxy.Stats

/-! ### What should be counted -/

/-- The requests recorded; those of them that the persist in progress knows; and those that the last
checkpoint knew that was written. A crash leaves these. -/
structure Ledger where
  requests : List RequestLog := []
  known : List RequestLog := []
  durable : List RequestLog := []

structure Observed where
  system : System
  ledger : Ledger := {}

section Observing

variable (outside : Outside)

def noted (clock : Nat) (request : RequestLog) : RequestLog :=
  { request with timestamp := clock, model := outside.logModel request.model }

def System.checkpoints (s : System) : Bool :=
  match s.persist with
  | some ⟨_, _, .checkpointing⟩ => true
  | _ => false

def Ledger.step (s : System) (ledger : Ledger) : Action → Ledger
  | .record request => { ledger with requests := ledger.requests ++ [noted outside s.clock request] }
  | .begin => if s.persist.isSome then ledger else { ledger with known := ledger.requests }
  | .write outcome => if s.checkpoints ∧ outcome ≠ .refused then { ledger with durable := ledger.known } else ledger
  | .crash => { ledger with requests := ledger.durable }
  | .tick _ | .release => ledger

def Observed.step (o : Observed) (action : Action) : Observed where
  system := o.system.step outside action
  ledger := o.ledger.step outside o.system action

end Observing

def minuteOf (request : RequestLog) : Int := request.timestamp / 60

def atMinute (requests : List RequestLog) (minute : Int) : List RequestLog :=
  requests.filter (minuteOf · = minute)

def Held : Option WindowBucket → List RequestLog → Prop
  | none, requests => requests = []
  | some bucket, requests => Counts bucket requests

def shard (files : Files) (minute : Int) : Option WindowBucket :=
  (readHistoryDay files (utcHourFromMinute minute)).get? minute

def checkpointed (files : Files) (minute : Int) : Option WindowBucket :=
  (files.stats.getD {}).minuteBuckets.get? minute

def System.counting (s : System) (minute : Int) : Option WindowBucket :=
  (s.state.activeMinutes.get? minute).or (shard s.files minute)

/-! ### Shards -/

variable {bucket : WindowBucket}

section Shards

variable {files : Files} {minutes : Minutes} {name hour : ShardName} {minute other : Int}

def Filed (files : Files) : Prop :=
  ∀ name minute, ((readHistoryDay files name).get? minute).isSome → utcHourFromMinute minute = name

theorem migrate_twice (bucket : WindowBucket) :
    bucket.migrateLegacyKiroDimensions.migrateLegacyKiroDimensions = bucket.migrateLegacyKiroDimensions := by
  by_cases current : bucket.total.requests = 0 ∨ bucket.byProvider.size ≠ 0 ∨ bucket.providerDetails.size ≠ 0
  · have kept : bucket.migrateLegacyKiroDimensions = bucket := if_pos current
    rw [kept, kept]
  · generalize migrated : bucket.migrateLegacyKiroDimensions = after
    have keyed : after.byProvider.size ≠ 0 := by
      rw [← migrated, WindowBucket.migrateLegacyKiroDimensions, if_neg current]
      exact Nat.succ_ne_zero _
    exact if_pos (.inr (.inl keyed))

theorem utcHour_ne_day : utcHourFromMinute minute ≠ utcDayFromMinute other := fun same =>
  Option.some_ne_none _ (congrArg ShardName.hour same)

theorem utcHour_congr (same : minute / 60 = other / 60) : utcHourFromMinute minute = utcHourFromMinute other := by
  have days : minute / 1440 = other / 1440 := by omega
  have hours : minute % 1440 / 60 = other % 1440 / 60 := by omega
  rw [utcHourFromMinute, utcHourFromMinute, utcDayFromMinute, utcDayFromMinute, days, hours]

theorem shard_of_read (filed : Filed files) (here : (readHistoryDay files name).get? minute = some bucket) :
    shard files minute = some bucket := by
  have named : utcHourFromMinute minute = name := filed name minute (by rw [here]; rfl)
  rw [shard, named]
  exact here

theorem read_other (filed : Filed files) (other : utcHourFromMinute minute ≠ name) :
    (readHistoryDay files name).get? minute = none := by
  cases here : (readHistoryDay files name).get? minute with
  | none => rfl
  | some bucket => exact absurd (filed name minute (by rw [here]; rfl)) other

theorem read_persistHour : (readHistoryDay (persistHour files minutes hour) name).get? minute =
    if name = hour then
      ((if utcHourFromMinute minute = hour then minutes.get? minute else none).or
        ((readHistoryDay files hour).get? minute)).map WindowBucket.migrateLegacyKiroDimensions
    else (readHistoryDay files name).get? minute := by
  unfold readHistoryDay persistHour
  dsimp only
  rw [Table.get?_mapValues, Table.get?_insert]
  by_cases same : name = hour
  · rw [if_pos same, if_pos same]
    simp only [Option.getD_some, Table.get?_extend, Table.get?_retain, decide_eq_true_eq]
    rfl
  · rw [if_neg same, if_neg same, Table.get?_mapValues]

theorem shard_migrated (files : Files) (minute : Int) :
    (shard files minute).map WindowBucket.migrateLegacyKiroDimensions = shard files minute := by
  unfold shard readHistoryDay
  rw [Table.get?_mapValues, Option.map_map]
  exact congrArg (Option.map · _) (funext migrate_twice)

theorem shard_persistHour (counted : ∀ bucket, minutes.get? minute = some bucket →
      bucket.migrateLegacyKiroDimensions = bucket) :
    shard (persistHour files minutes hour) minute =
      if utcHourFromMinute minute = hour then (minutes.get? minute).or (shard files minute) else shard files minute := by
  rw [shard, read_persistHour]
  by_cases same : utcHourFromMinute minute = hour
  · rw [if_pos same, if_pos same, if_pos same, ← same]
    cases here : minutes.get? minute with
    | none => exact shard_migrated files minute
    | some bucket => exact congrArg some (counted bucket here)
  · rw [if_neg same, if_neg same]
    rfl

theorem Filed.persistHour (filed : Filed files) : Filed (persistHour files minutes hour) := by
  intro name minute here
  rw [read_persistHour] at here
  by_cases same : name = hour
  · rw [if_pos same, Option.isSome_map] at here
    by_cases inside : utcHourFromMinute minute = hour
    · exact inside.trans same.symm
    · rw [if_neg inside, Option.none_or] at here
      exact (filed hour minute here).trans same.symm
  · rw [if_neg same] at here
    exact filed name minute here

theorem mem_hoursOf (here : minutes.get? minute = some bucket) :
    utcHourFromMinute minute ∈ hoursOf minutes := by
  refine (List.mem_insertionSort _).mpr (List.mem_dedup.mpr (List.mem_map.mpr ?_))
  exact ⟨(minute, bucket), Table.mem_entries.mpr here, rfl⟩

end Shards

/-! ### The invariant -/

/-- Between two persists, with `requests` recorded and `durable` what a crash leaves of them. -/
structure Stored (clock : Nat) (files : Files) (state : StatsRuntimeState) (requests durable : List RequestLog) : Prop where
  past : ∀ request ∈ requests, 0 ≤ request.timestamp ∧ request.timestamp ≤ clock
  left : durable <+: requests
  filed : Filed files
  counts : ∀ minute bucket, state.activeMinutes.get? minute = some bucket → Counts bucket (atMinute requests minute)
  active : ∀ minute ∈ state.dirtyMinutes, (state.activeMinutes.get? minute).isSome
  clean : ∀ minute, minute ∉ state.dirtyMinutes → Held (shard files minute) (atMinute requests minute)
  recent : ∀ minute : Int, (clock : Int) / 3600 ≤ minute / 60 → atMinute requests minute ≠ [] →
    (state.activeMinutes.get? minute).isSome
  saved : ∀ minute, Held ((checkpointed files minute).or (shard files minute)) (atMinute durable minute)
  dirty : ∀ minute, (checkpointed files minute).isSome → minute ∈ state.dirtyMinutes

def Placed (files : Files) (dirty : Minutes) (known durable : List RequestLog) : Phase → Prop
  | .checkpointing => ∀ minute, dirty.get? minute = none → Held (shard files minute) (atMinute known minute)
  | .sharding hours => ∀ minute,
    match dirty.get? minute with
    | none => Held (shard files minute) (atMinute durable minute)
    | some bucket => Counts bucket (atMinute durable minute) ∧
      (utcHourFromMinute minute ∉ hours → shard files minute = some bucket)
  | .releasing => ∀ minute, checkpointed files minute = none ∧
    ∀ bucket, dirty.get? minute = some bucket → shard files minute = some bucket

structure Persisting (files : Files) (state : StatsRuntimeState) (ledger : Ledger) (persist : Persist) : Prop where
  before : ledger.known <+: ledger.requests
  compact : persist.snapshot.minuteBuckets = ∅
  counts : ∀ minute bucket, persist.dirty.get? minute = some bucket →
    Counts bucket (atMinute ledger.known minute) ∧ minute ∈ state.dirtyMinutes
  placed : Placed files persist.dirty ledger.known ledger.durable persist.phase

structure Kept (o : Observed) : Prop where
  stored : Stored o.system.clock o.system.files o.system.state o.ledger.requests o.ledger.durable
  persisting : ∀ persist, o.system.persist = some persist →
    Persisting o.system.files o.system.state o.ledger persist

theorem Stored.counting {clock : Nat} {files : Files} {state : StatsRuntimeState} {requests durable : List RequestLog}
    (stored : Stored clock files state requests durable) (minute : Int) :
    Held ((state.activeMinutes.get? minute).or (shard files minute)) (atMinute requests minute) := by
  cases here : state.activeMinutes.get? minute with
  | some bucket => exact stored.counts minute bucket here
  | none =>
    refine stored.clean minute fun dirty => ?_
    have there := stored.active minute dirty
    rw [here] at there
    cases there

theorem kept_initial (clock : Nat) : Kept { system := { clock := clock } } where
  stored :=
    { past := fun _ member => absurd member List.not_mem_nil
      left := List.prefix_refl _
      filed := fun _ _ here => absurd here Bool.false_ne_true
      counts := fun _ _ here => absurd here (Option.some_ne_none _).symm
      active := fun _ member => absurd member List.not_mem_nil
      clean := fun _ _ => rfl
      recent := fun _ _ some => absurd rfl some
      saved := fun _ => rfl
      dirty := fun _ here => absurd here Bool.false_ne_true }
  persisting := fun _ none => absurd none (Option.some_ne_none _).symm

/-! ### Requests arrive -/

section Steps

variable {outside : Outside} {clock : Nat} {files : Files} {state : StatsRuntimeState}
  {requests durable : List RequestLog} {ledger : Ledger} {persist : Persist}

theorem atMinute_snoc (requests : List RequestLog) (request : RequestLog) (minute : Int) :
    atMinute (requests ++ [request]) minute =
      if minute = minuteOf request then atMinute requests minute ++ [request] else atMinute requests minute := by
  rw [atMinute, List.filter_append]
  by_cases same : minute = minuteOf request
  · have alone : [request].filter (minuteOf · = minute) = [request] := by
      rw [List.filter_singleton, decide_eq_true same.symm, cond_true]
    rw [if_pos same, alone]
    rfl
  · have none_there : [request].filter (minuteOf · = minute) = [] := by
      rw [List.filter_singleton, decide_eq_false fun here => same here.symm, cond_false]
    rw [if_neg same, none_there]
    exact List.append_nil _

theorem Stored.tick (stored : Stored clock files state requests durable) (seconds : Nat) :
    Stored (clock + seconds) files state requests durable :=
  { stored with
    past := fun request member => by
      have before := stored.past request member
      omega
    recent := fun minute late => stored.recent minute (by omega) }

theorem Stored.record (stored : Stored clock files state requests durable) (request : RequestLog) :
    Stored clock files (state.record outside { request with timestamp := clock })
      (requests ++ [noted outside clock request]) durable := by
  generalize noting : noted outside clock request = new
  have time : new.timestamp = clock := by rw [← noting]; rfl
  have minute_new : minuteOf new = (clock : Int) / 60 := by rw [minuteOf, time]
  have active : (state.record outside { request with timestamp := clock }).activeMinutes =
      state.activeMinutes.insert (minuteOf new) (((state.activeMinutes.get? (minuteOf new)).getD {}).record new) := by
    rw [← noting]
    rfl
  have dirty : (state.record outside { request with timestamp := clock }).dirtyMinutes =
      state.dirtyMinutes.insert (minuteOf new) := by
    rw [← noting]
    rfl
  -- a minute of the current hour that was counted before is still in memory
  have fresh : Counts ((state.activeMinutes.get? (minuteOf new)).getD {}) (atMinute requests (minuteOf new)) := by
    cases here : state.activeMinutes.get? (minuteOf new) with
    | some bucket => exact stored.counts _ bucket here
    | none =>
      have unheard : atMinute requests (minuteOf new) = [] := by
        by_contra heard
        have there := stored.recent (minuteOf new) (by rw [minute_new]; omega) heard
        rw [here] at there
        cases there
      rw [unheard]
      exact counts_empty
  constructor
  · intro other member
    rcases List.mem_append.mp member with old | added
    · exact stored.past other old
    · rw [List.mem_singleton.mp added, time]
      omega
  · exact stored.left.trans (List.prefix_append _ _)
  · exact stored.filed
  · intro minute bucket here
    rw [active, Table.get?_insert] at here
    rw [atMinute_snoc]
    by_cases same : minute = minuteOf new
    · rw [if_pos same] at here ⊢
      rw [← Option.some.inj here, same]
      exact fresh.record new
    · rw [if_neg same] at here ⊢
      exact stored.counts minute bucket here
  · intro minute member
    rw [active, Table.get?_insert]
    rw [dirty, List.mem_insert_iff] at member
    by_cases same : minute = minuteOf new
    · rw [if_pos same]
      rfl
    · rw [if_neg same]
      exact stored.active minute (member.resolve_left same)
  · intro minute clean
    rw [dirty, List.mem_insert_iff, not_or] at clean
    rw [atMinute_snoc, if_neg clean.1]
    exact stored.clean minute clean.2
  · intro minute late heard
    rw [active, Table.get?_insert]
    by_cases same : minute = minuteOf new
    · rw [if_pos same]
      rfl
    · rw [if_neg same]
      rw [atMinute_snoc, if_neg same] at heard
      exact stored.recent minute late heard
  · exact stored.saved
  · intro minute here
    rw [dirty, List.mem_insert_iff]
    exact .inr (stored.dirty minute here)

theorem Persisting.record (persisting : Persisting files state ledger persist) (request : RequestLog) :
    Persisting files (state.record outside { request with timestamp := clock })
      { ledger with requests := ledger.requests ++ [noted outside clock request] } persist where
  before := persisting.before.trans (List.prefix_append _ _)
  compact := persisting.compact
  counts := fun minute bucket here =>
    ⟨(persisting.counts minute bucket here).1, List.mem_insert_of_mem (persisting.counts minute bucket here).2⟩
  placed := persisting.placed

/-! ### Persisting -/

theorem mem_snapshot {minute : Int} (here : state.snapshot.dirty.get? minute = some bucket) :
    state.activeMinutes.get? minute = some bucket ∧ minute ∈ state.dirtyMinutes := by
  have retained : (state.activeMinutes.retain (state.dirtyMinutes.contains ·)).get? minute = some bucket := here
  rw [Table.get?_retain] at retained
  split at retained
  · rename_i dirty
    exact ⟨retained, List.contains_iff_mem.mp dirty⟩
  · cases retained

theorem snapshot_none (stored : Stored clock files state requests durable) {minute : Int}
    (absent : state.snapshot.dirty.get? minute = none) : minute ∉ state.dirtyMinutes := by
  intro dirty
  have retained : (state.activeMinutes.retain (state.dirtyMinutes.contains ·)).get? minute = none := absent
  rw [Table.get?_retain, if_pos (List.contains_iff_mem.mpr dirty)] at retained
  have there := stored.active minute dirty
  rw [retained] at there
  cases there

theorem Stored.snapshot (stored : Stored clock files state ledger.requests ledger.durable) :
    Persisting files state { ledger with known := ledger.requests } state.snapshot where
  before := List.prefix_refl _
  compact := rfl
  counts := fun minute bucket here =>
    ⟨stored.counts minute bucket (mem_snapshot here).1, (mem_snapshot here).2⟩
  placed := by
    by_cases empty : state.snapshot.dirty.size = 0
    · have phase : state.snapshot.phase = .sharding [] := if_pos empty
      rw [phase]
      intro minute
      have nothing : state.snapshot.dirty.get? minute = none := by
        cases here : state.snapshot.dirty.get? minute with
        | none => rfl
        | some bucket =>
          have listed := Table.mem_entries.mpr here
          rw [List.eq_nil_of_length_eq_zero empty] at listed
          cases listed
      have saved := stored.saved minute
      have uncovered : checkpointed files minute = none := by
        rw [← Option.not_isSome_iff_eq_none]
        exact fun here => snapshot_none stored nothing (stored.dirty minute here)
      rw [uncovered, Option.none_or] at saved
      rw [nothing]
      exact saved
    · have phase : state.snapshot.phase = .checkpointing := if_neg empty
      rw [phase]
      exact fun minute absent => stored.clean minute (snapshot_none stored absent)

def Ledger.written (ledger : Ledger) : Phase → Ledger
  | .checkpointing => { ledger with durable := ledger.known }
  | .sharding _ | .releasing => ledger

variable {snapshot : ProxyStats} {dirty : Minutes}

theorem Persisting.checkpoint (persisting : Persisting files state ledger ⟨snapshot, dirty, .checkpointing⟩)
    (stored : Stored clock files state ledger.requests ledger.durable) :
    Stored clock { files with stats := some { snapshot with minuteBuckets := dirty } } state ledger.requests ledger.known ∧
      Persisting { files with stats := some { snapshot with minuteBuckets := dirty } } state
        { ledger with durable := ledger.known } ⟨snapshot, dirty, .sharding (hoursOf dirty)⟩ := by
  constructor
  · refine { stored with left := persisting.before, saved := fun minute => ?_, dirty := fun minute here => ?_ }
    · show Held ((dirty.get? minute).or (shard files minute)) _
      cases here : dirty.get? minute with
      | none => exact persisting.placed minute here
      | some bucket => exact (persisting.counts minute bucket here).1
    · obtain ⟨bucket, there⟩ := Option.isSome_iff_exists.mp here
      exact (persisting.counts minute bucket there).2
  · refine { persisting with placed := fun minute => ?_ }
    show match dirty.get? minute with
      | none => _
      | some bucket => _
    cases here : dirty.get? minute with
    | none => exact persisting.placed minute here
    | some bucket => exact ⟨(persisting.counts minute bucket here).1, fun unlisted => absurd (mem_hoursOf here) unlisted⟩

theorem Persisting.shard (persisting : Persisting files state ledger persist) (hour : ShardName) (minute : Int) :
    shard (persistHour files persist.dirty hour) minute =
      if utcHourFromMinute minute = hour then (persist.dirty.get? minute).or (shard files minute)
      else shard files minute :=
  shard_persistHour fun bucket here => (persisting.counts minute bucket here).1.migrate

theorem Persisting.persistHour {hour : ShardName} {hours : List ShardName}
    (persisting : Persisting files state ledger ⟨snapshot, dirty, .sharding (hour :: hours)⟩)
    (stored : Stored clock files state ledger.requests ledger.durable) :
    Stored clock (persistHour files dirty hour) state ledger.requests ledger.durable ∧
      Persisting (persistHour files dirty hour) state ledger ⟨snapshot, dirty, .sharding hours⟩ := by
  have shards : ∀ minute, Stats.shard (Stats.persistHour files dirty hour) minute = _ := persisting.shard hour
  have absent : ∀ minute, dirty.get? minute = none →
      Stats.shard (Stats.persistHour files dirty hour) minute = Stats.shard files minute := by
    intro minute here
    rw [shards, here, Option.none_or, ite_self]
  constructor
  · refine { stored with filed := stored.filed.persistHour, clean := fun minute clean => ?_, saved := fun minute => ?_ }
    · have here : dirty.get? minute = none := by
        cases here : dirty.get? minute with
        | none => rfl
        | some bucket => exact absurd (persisting.counts minute bucket here).2 clean
      rw [absent minute here]
      exact stored.clean minute clean
    · have saved := stored.saved minute
      have placed := persisting.placed minute
      show Held ((checkpointed files minute).or _) _
      cases covered : checkpointed files minute with
      | some bucket =>
        rw [covered] at saved
        exact saved
      | none =>
        rw [covered, Option.none_or] at saved
        rw [Option.none_or, shards]
        cases here : dirty.get? minute with
        | none =>
          rw [Option.none_or, ite_self]
          exact saved
        | some bucket =>
          rw [here] at placed
          split
          · exact placed.1
          · exact saved
  · refine { persisting with placed := fun minute => ?_ }
    have placed := persisting.placed minute
    show match dirty.get? minute with
      | none => _
      | some bucket => _
    cases here : dirty.get? minute with
    | none =>
      rw [here] at placed
      show Held (Stats.shard (Stats.persistHour files dirty hour) minute) _
      rw [absent minute here]
      exact placed
    | some bucket =>
      rw [here] at placed
      refine ⟨placed.1, fun unlisted => ?_⟩
      rw [shards, here]
      by_cases same : utcHourFromMinute minute = hour
      · rw [if_pos same]
        rfl
      · rw [if_neg same]
        refine placed.2 fun listed => ?_
        rcases List.mem_cons.mp listed with first | later
        · exact same first
        · exact unlisted later

theorem Persisting.compacted (persisting : Persisting files state ledger ⟨snapshot, dirty, .sharding []⟩)
    (stored : Stored clock files state ledger.requests ledger.durable) :
    Stored clock { files with stats := some snapshot } state ledger.requests ledger.durable ∧
      Persisting { files with stats := some snapshot } state ledger ⟨snapshot, dirty, .releasing⟩ := by
  have uncovered : ∀ minute, checkpointed { files with stats := some snapshot } minute = none := by
    intro minute
    have compact : snapshot.minuteBuckets = ∅ := persisting.compact
    exact congrArg (·.get? minute) compact
  constructor
  · refine { stored with saved := fun minute => ?_, dirty := fun minute here => ?_ }
    · have placed := persisting.placed minute
      rw [uncovered, Option.none_or]
      show Held (Stats.shard files minute) _
      cases here : dirty.get? minute with
      | none =>
        rw [here] at placed
        exact placed
      | some bucket =>
        rw [here] at placed
        rw [placed.2 List.not_mem_nil]
        exact placed.1
    · rw [uncovered] at here
      cases here
  · refine { persisting with placed := fun minute => ⟨uncovered minute, fun bucket here => ?_⟩ }
    have placed := persisting.placed minute
    rw [here] at placed
    exact placed.2 List.not_mem_nil

theorem Persisting.write (persisting : Persisting files state ledger persist)
    (stored : Stored clock files state ledger.requests ledger.durable) :
    Stored clock (persist.write files).1 state ledger.requests (ledger.written persist.phase).durable ∧
      Persisting (persist.write files).1 state (ledger.written persist.phase) (persist.write files).2 := by
  obtain ⟨snapshot, dirty, phase⟩ := persist
  cases phase with
  | checkpointing => exact persisting.checkpoint stored
  | sharding hours =>
    cases hours with
    | nil => exact persisting.compacted stored
    | cons hour hours => exact persisting.persistHour stored
  | releasing => exact ⟨stored, persisting⟩

theorem Persisting.release (persisting : Persisting files state ledger ⟨snapshot, dirty, .releasing⟩)
    (stored : Stored clock files state ledger.requests ledger.durable) :
    Stored clock files (state.release clock dirty) ledger.requests ledger.durable := by
  have retained : ∀ minute, (state.release clock dirty).activeMinutes.get? minute =
      if (clock : Int) / 3600 ≤ minute / 60 ∨ minute ∈ (state.release clock dirty).dirtyMinutes then
        state.activeMinutes.get? minute else none := by
    intro minute
    refine (Table.get?_retain ..).trans ?_
    simp only [decide_eq_true_eq]
    rfl
  have still : ∀ minute, minute ∈ (state.release clock dirty).dirtyMinutes ↔ minute ∈ state.dirtyMinutes ∧
      (dirty.get? minute = none ∨ state.activeMinutes.get? minute ≠ dirty.get? minute) := by
    intro minute
    refine List.mem_filter.trans (and_congr_right' ?_)
    rw [decide_eq_true_eq, Option.isNone_iff_eq_none]
  refine { stored with
    counts := fun minute bucket here => ?_
    active := fun minute member => ?_
    clean := fun minute clean => ?_
    recent := fun minute late heard => ?_
    dirty := fun minute here => ?_ }
  · rw [retained] at here
    split at here
    · exact stored.counts minute bucket here
    · cases here
  · rw [retained, if_pos (.inr member)]
    exact stored.active minute ((still minute).mp member).1
  · by_cases before : minute ∈ state.dirtyMinutes
    · -- it was let go of because the snapshot still is what is counted
      have written : ¬ (dirty.get? minute = none ∨ state.activeMinutes.get? minute ≠ dirty.get? minute) :=
        fun other => clean ((still minute).mpr ⟨before, other⟩)
      rw [not_or, not_not] at written
      obtain ⟨bucket, here⟩ := Option.ne_none_iff_exists'.mp written.1
      rw [(persisting.placed minute).2 bucket here]
      exact stored.counts minute bucket (written.2.trans here)
    · exact stored.clean minute before
  · rw [retained, if_pos (.inl late)]
    exact stored.recent minute late heard
  · rw [(persisting.placed minute).1] at here
    cases here

/-! ### After a crash -/

theorem get?_loaded (outside : Outside) (files : Files) (minute : Int) :
    ((files.stats.getD {}).migrateLegacyKiroDimensions.boundDimensions outside).minuteBuckets.get? minute =
      (checkpointed files minute).map fun bucket => bucket.migrateLegacyKiroDimensions.boundDimensions outside := by
  unfold ProxyStats.boundDimensions ProxyStats.migrateLegacyKiroDimensions checkpointed
  dsimp only
  rw [Table.get?_mapValues, Table.get?_mapValues, Option.map_map]
  rfl

theorem load_active (outside : Outside) (filed : Filed files) (minute : Int) :
    (load outside clock files).activeMinutes.get? minute =
      ((checkpointed files minute).map fun bucket => bucket.migrateLegacyKiroDimensions.boundDimensions outside).or
        ((readHistoryDay files (utcHourFromMinute ((clock : Int) / 60))).get? minute) := by
  have nothing : ∀ minute, (readHistoryDay files (utcDayFromMinute ((clock : Int) / 60))).get? minute = none :=
    fun minute => read_other filed utcHour_ne_day
  unfold load
  dsimp only
  rw [Table.get?_extend, Table.get?_extend, Table.get?_retain, get?_loaded, nothing, ite_self, Option.or_none]

theorem load_dirty (outside : Outside) (files : Files) (minute : Int) :
    minute ∈ (load outside clock files).dirtyMinutes ↔ (checkpointed files minute).isSome := by
  have listed := get?_loaded outside files minute
  constructor
  · intro member
    obtain ⟨⟨_, bucket⟩, entry, rfl⟩ := List.mem_map.mp member
    rw [Table.mem_entries.mp entry] at listed
    rw [← Option.isSome_map, ← listed]
    rfl
  · intro here
    rw [← Option.isSome_map, ← listed] at here
    obtain ⟨bucket, found⟩ := Option.isSome_iff_exists.mp here
    exact List.mem_map.mpr ⟨(minute, bucket), Table.mem_entries.mpr found, rfl⟩

theorem Stored.load (stored : Stored clock files state requests durable) (outside : Outside) :
    Stored clock files (Stats.load outside clock files) durable durable := by
  refine { stored with
    past := fun request member => stored.past request (stored.left.subset member)
    left := List.prefix_refl _
    counts := fun minute bucket here => ?_
    active := fun minute member => ?_
    clean := fun minute clean => ?_
    recent := fun minute late heard => ?_
    dirty := fun minute here => (load_dirty outside files minute).mpr here }
  · have saved := stored.saved minute
    rw [load_active outside stored.filed] at here
    cases covered : checkpointed files minute with
    | some old =>
      rw [covered] at saved here
      rw [← Option.some.inj here]
      show Counts (old.migrateLegacyKiroDimensions.boundDimensions outside) _
      rw [Counts.migrate saved]
      exact saved.bound
    | none =>
      rw [covered, Option.none_or] at saved
      rw [covered, Option.map_none, Option.none_or] at here
      rw [shard_of_read stored.filed here] at saved
      exact saved
  · rw [load_active outside stored.filed, Option.isSome_or, Option.isSome_map, (load_dirty outside files minute).mp member]
    rfl
  · have saved := stored.saved minute
    rw [load_dirty, Option.not_isSome_iff_eq_none] at clean
    rw [clean, Option.none_or] at saved
    exact saved
  · have saved := stored.saved minute
    rw [load_active outside stored.filed, Option.isSome_or, Option.isSome_map]
    cases covered : checkpointed files minute with
    | some old => rfl
    | none =>
      rw [covered, Option.none_or] at saved
      -- no request is later than the clock, so this minute is of the current hour
      obtain ⟨request, member⟩ := List.exists_mem_of_ne_nil _ heard
      obtain ⟨inside, at_minute⟩ := List.mem_filter.mp member
      have time := stored.past request (stored.left.subset inside)
      have current : minute / 60 = (clock : Int) / 60 / 60 := by
        have := of_decide_eq_true at_minute
        unfold minuteOf at this
        omega
      rw [Option.isSome_none, Bool.false_or, ← utcHour_congr current]
      cases here : shard files minute with
      | some bucket =>
        have read : (readHistoryDay files (utcHourFromMinute minute)).get? minute = some bucket := here
        rw [read]
        rfl
      | none =>
        rw [here] at saved
        exact absurd saved heard

end Steps

/-! ### Runs -/

theorem Kept.step {o : Observed} (kept : Kept o) (outside : Outside) (action : Action) : Kept (o.step outside action) := by
  obtain ⟨⟨clock, files, state, persist⟩, ledger⟩ := o
  have stored : Stored clock files state ledger.requests ledger.durable := kept.stored
  have persisting : ∀ current, persist = some current → Persisting files state ledger current := kept.persisting
  have idle : ∀ current, (none : Option Persist) ≠ some current := fun _ => (Option.some_ne_none _).symm
  cases action with
  | tick seconds => exact ⟨stored.tick seconds, persisting⟩
  | record request => exact ⟨stored.record request, fun current here => (persisting current here).record request⟩
  | begin =>
    cases persist with
    | some current => exact kept
    | none =>
      refine ⟨stored, fun current here => ?_⟩
      cases here
      exact stored.snapshot
  | write outcome =>
    cases persist with
    | none =>
      have unwritten : ledger.step outside ⟨clock, files, state, none⟩ (.write outcome) = ledger := by
        simp [Ledger.step, System.checkpoints]
      unfold Observed.step
      rw [unwritten]
      exact kept
    | some current =>
      obtain ⟨after, next⟩ := (persisting current rfl).write stored
      have written : ∀ outcome ≠ Outcome.refused, ledger.step outside ⟨clock, files, state, some current⟩
          (.write outcome) = ledger.written current.phase := by
        intro outcome done
        obtain ⟨snapshot, dirty, phase⟩ := current
        cases phase with
        | checkpointing => exact if_pos ⟨rfl, done⟩
        | sharding | releasing => simp [Ledger.step, Ledger.written, System.checkpoints]
      have same : (ledger.written current.phase).requests = ledger.requests := by
        cases current.phase <;> rfl
      cases outcome with
      | refused =>
        have unwritten : ledger.step outside ⟨clock, files, state, some current⟩ (.write .refused) = ledger :=
          if_neg fun both => both.2 rfl
        unfold Observed.step
        rw [unwritten]
        exact ⟨stored, fun current here => absurd here (idle current)⟩
      | done =>
        unfold Observed.step
        rw [written .done (by decide)]
        refine ⟨?_, fun current here => ?_⟩
        · show Stored _ _ _ (ledger.written current.phase).requests _
          rw [same]
          exact after
        · cases here
          exact next
      | unacknowledged =>
        unfold Observed.step
        rw [written .unacknowledged (by decide)]
        refine ⟨?_, fun current here => absurd here (idle current)⟩
        show Stored _ _ _ (ledger.written current.phase).requests _
        rw [same]
        exact after
  | release =>
    cases persist with
    | none => exact kept
    | some current =>
      obtain ⟨snapshot, dirty, phase⟩ := current
      cases phase with
      | checkpointing | sharding => exact kept
      | releasing =>
        refine ⟨(persisting _ rfl).release stored, fun current here => ?_⟩
        exact absurd here (idle current)
  | crash => exact ⟨stored.load outside, fun current here => absurd here (idle current)⟩

theorem kept_run (outside : Outside) (clock : Nat) (actions : List Action) :
    Kept (Run.run (Observed.step outside) { system := { clock := clock } } actions) :=
  Run.run_keeps_mem (fun _ action kept _ => kept.step outside action) (fun _ _ => trivial) (kept_initial clock)

end KiroProxy.Stats

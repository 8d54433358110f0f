import KiroProxy.Daemon.StatsKept
import KiroProxy.Lib.Indexed

/-! A window adds up the buckets of its minutes: those in memory, and of the shards those that are not
in memory. -/
namespace KiroProxy.Stats

open Calendar (civilFromDays daysFromCivil)

/-! ### Merging buckets -/

section Merging

variable {outside : Outside} {output : WindowBucket} {entries : List (Int × WindowBucket)} {requests : List RequestLog}

theorem merge_total (outside : Outside) (entries : List (Int × WindowBucket)) (output : WindowBucket) :
    (entries.foldl (fun output entry => mergeBucket outside output entry.2) output).total =
      output.total + (entries.map (·.2.total)).sum := by
  induction entries generalizing output with
  | nil => exact (add_zero _).symm
  | cons entry rest ih =>
    rw [List.foldl_cons, ih, List.map_cons, List.sum_cons, ← add_assoc]
    rfl

theorem merge_sound (sound : output.Sound) (others : ∀ entry ∈ entries, entry.2.Sound) :
    (entries.foldl (fun output entry => mergeBucket outside output entry.2) output).Sound := by
  induction entries generalizing output with
  | nil => exact sound
  | cons entry rest ih =>
    refine ih (mergeBucket_sound sound (others entry List.mem_cons_self)) ?_
    exact fun other member => others other (List.mem_cons_of_mem entry member)

theorem merge_counts (distinct : (entries.map Prod.fst).Nodup)
    (counts : ∀ entry ∈ entries, Counts entry.2 (atMinute requests entry.1)) :
    Counts (entries.foldl (fun output entry => mergeBucket outside output entry.2) {})
      (requests.filter (minuteOf · ∈ entries.map Prod.fst)) := by
  constructor
  · have totals : entries.map (·.2.total) = (entries.map Prod.fst).map fun minute => tally (atMinute requests minute) := by
      rw [List.map_map]
      exact List.map_congr_left fun entry member => (counts entry member).total
    rw [merge_total, totals]
    refine (zero_add _).trans ?_
    exact Indexed.sum_fibers requests minuteOf Counter.ofRequest distinct
  · exact merge_sound counts_empty.sound fun entry member => (counts entry member).sound

end Merging

/-! ### The minutes of a window -/

theorem perm_inOrder (minutes : Minutes) : (inOrder minutes).Perm minutes.entries := List.perm_insertionSort _ _

theorem mem_inOrder {minutes : Minutes} {minute : Int} {bucket : WindowBucket} :
    (minute, bucket) ∈ inOrder minutes ↔ minutes.get? minute = some bucket :=
  (perm_inOrder minutes).mem_iff.trans Table.mem_entries

theorem nodup_inOrder (minutes : Minutes) : ((inOrder minutes).map Prod.fst).Nodup :=
  ((perm_inOrder minutes).map Prod.fst).nodup_iff.mpr minutes.distinct

section Windows

variable {files : Files} {start finish : Option Int} {minute : Int} {bucket : WindowBucket} {shards : List ShardName}

theorem get?_dayMinutes (filed : Filed files) (shards : List ShardName) (minute : Int) :
    (dayMinutes files start finish shards).get? minute =
      if utcHourFromMinute minute ∈ shards ∧ between start finish minute then shard files minute else none := by
  have all : ∀ minutes : Minutes, (minutes.get? minute = none ∨ minutes.get? minute = shard files minute) →
      (shards.foldl (fun minutes name => minutes.extend ((readHistoryDay files name).retain (between start finish)))
        minutes).get? minute =
      if utcHourFromMinute minute ∈ shards ∧ between start finish minute then shard files minute
      else minutes.get? minute := by
    induction shards with
    | nil => exact fun _ _ => (if_neg fun both => List.not_mem_nil both.1).symm
    | cons name rest ih =>
      intro minutes before
      have added : (minutes.extend ((readHistoryDay files name).retain (between start finish))).get? minute =
          if utcHourFromMinute minute = name ∧ between start finish minute then shard files minute
          else minutes.get? minute := by
        rw [Table.get?_extend, Table.get?_retain]
        by_cases same : utcHourFromMinute minute = name
        · by_cases inside : between start finish minute = true
          · rw [if_pos inside, if_pos ⟨same, inside⟩, ← same]
            show (shard files minute).or _ = _
            rcases before with nothing | already
            · rw [nothing, Option.or_none]
            · rw [already, Option.or_self]
          · rw [if_neg inside, if_neg fun both => inside both.2, Option.none_or]
        · rw [read_other filed same, ite_self, Option.none_or, if_neg fun both => same both.1]
      rw [List.foldl_cons, ih, added]
      · by_cases inside : between start finish minute = true <;>
          by_cases same : utcHourFromMinute minute = name <;> simp [inside, same]
      · rw [added]
        split
        · exact .inr rfl
        · exact before
  exact all ∅ (.inl rfl)

def merged (files : Files) (active : Minutes) (start finish : Option Int) : List (Int × WindowBucket) :=
  let shards := shardsBetween files start finish
  ((shards.map ShardName.day).dedup.flatMap fun day =>
    (inOrder (dayMinutes files start finish (shards.filter (·.day = day)))).filter fun entry =>
      (active.get? entry.1).isNone) ++ inOrder active

theorem windowBetween_merged (outside : Outside) (state : StatsRuntimeState) (files : Files) {start finish : Option Int}
    (ranged : start.isSome ∨ finish.isSome) (forward : reversed start finish = false) :
    (windowBetween outside state files start finish).toWindowBucket =
      (merged files (state.activeMinutes.retain (between start finish)) start finish).foldl
        (fun output entry => mergeBucket outside output entry.2) {} := by
  have some_end : ¬ (start = none ∧ finish = none) := by
    rintro ⟨rfl, rfl⟩
    rcases ranged with here | here <;> cases here
  have active : activeBucketsBetween state.activeMinutes start finish =
      state.activeMinutes.retain (between start finish) := by
    unfold activeBucketsBetween
    rw [forward]
    rfl
  unfold windowBetween
  rw [if_neg some_end]
  dsimp only
  rw [active, merged, List.foldl_append, List.foldl_flatMap, readHistoryBetween, forward]
  refine congrArg (fun output => List.foldl _ output _) ?_
  refine List.foldl_ext _ _ _ fun output day _ => ?_
  rw [List.foldl_filter]
  refine List.foldl_ext _ _ _ fun output entry _ => ?_
  cases (Table.get? (state.activeMinutes.retain (between start finish)) entry.1) <;> rfl

theorem windowBetween_reversed (outside : Outside) (state : StatsRuntimeState) (files : Files)
    (backward : reversed start finish = true) :
    (windowBetween outside state files start finish).toWindowBucket = {} := by
  have some_end : ¬ (start = none ∧ finish = none) := by
    rintro ⟨rfl, rfl⟩
    cases backward
  unfold windowBetween activeBucketsBetween readHistoryBetween
  rw [if_neg some_end, backward]
  rfl

theorem mem_day (filed : Filed files) {active : Minutes} {day : Int × Int × Int} :
    (minute, bucket) ∈ (inOrder (dayMinutes files start finish (shards.filter (·.day = day)))).filter (fun entry =>
        (active.get? entry.1).isNone) ↔
      active.get? minute = none ∧ utcHourFromMinute minute ∈ shards ∧ (utcHourFromMinute minute).day = day ∧
        between start finish minute ∧ shard files minute = some bucket := by
  have listed : utcHourFromMinute minute ∈ shards.filter (·.day = day) ↔
      utcHourFromMinute minute ∈ shards ∧ (utcHourFromMinute minute).day = day := by
    rw [List.mem_filter, decide_eq_true_eq]
  rw [List.mem_filter, mem_inOrder, get?_dayMinutes filed, Option.isNone_iff_eq_none]
  constructor
  · rintro ⟨here, absent⟩
    split at here
    · rename_i inside
      obtain ⟨member, same⟩ := listed.mp inside.1
      exact ⟨absent, member, same, inside.2, here⟩
    · cases here
  · rintro ⟨absent, member, same, inside, here⟩
    exact ⟨(if_pos ⟨listed.mpr ⟨member, same⟩, inside⟩).trans here, absent⟩

theorem mem_merged (filed : Filed files) {active : Minutes} :
    (minute, bucket) ∈ merged files active start finish ↔ active.get? minute = some bucket ∨
      active.get? minute = none ∧ utcHourFromMinute minute ∈ shardsBetween files start finish ∧
        between start finish minute ∧ shard files minute = some bucket := by
  rw [merged, List.mem_append, mem_inOrder, List.mem_flatMap, or_comm]
  refine or_congr_right ⟨?_, ?_⟩
  · rintro ⟨day, -, here⟩
    obtain ⟨absent, listed, -, inside, found⟩ := (mem_day filed).mp here
    exact ⟨absent, listed, inside, found⟩
  · rintro ⟨absent, listed, inside, found⟩
    refine ⟨(utcHourFromMinute minute).day, ?_, (mem_day filed).mpr ⟨absent, listed, rfl, inside, found⟩⟩
    exact List.mem_dedup.mpr (List.mem_map_of_mem listed)

theorem merged_distinct (filed : Filed files) (active : Minutes) :
    ((merged files active start finish).map Prod.fst).Nodup := by
  rw [merged, List.map_append, List.nodup_append, List.map_flatMap, List.nodup_flatMap]
  refine ⟨⟨fun day _ => ?_, ?_⟩, nodup_inOrder active, ?_⟩
  · exact (nodup_inOrder _).sublist (List.filter_sublist.map Prod.fst)
  · refine (List.nodup_dedup _).imp fun apart minute first second => ?_
    obtain ⟨⟨_, bucket⟩, here, rfl⟩ := List.mem_map.mp first
    obtain ⟨⟨_, other⟩, there, same⟩ := List.mem_map.mp second
    cases same
    exact apart (((mem_day filed).mp here).2.2.1.symm.trans ((mem_day filed).mp there).2.2.1)
  · intro minute first other second same
    subst same
    obtain ⟨day, -, inside⟩ := List.mem_flatMap.mp first
    obtain ⟨⟨_, bucket⟩, here, rfl⟩ := List.mem_map.mp inside
    obtain ⟨⟨_, other⟩, there, same⟩ := List.mem_map.mp second
    cases same
    have present := mem_inOrder.mp there
    rw [((mem_day filed).mp here).1] at present
    cases present

/-! ### The range of an hour -/

def lastNamed : Int := 253402300800

theorem range_of_hour (later : 0 ≤ minute) (early : minute * 60 < lastNamed) :
    historyRangeFromShardName (utcHourFromMinute minute) =
      some (minute / 60 * 3600, minute / 60 * 3600 + 3599) := by
  have nonneg : 0 ≤ minute / 1440 := by omega
  have less : minute / 1440 < 2932897 := by
    unfold lastNamed at early
    omega
  have year := Calendar.namedYears_iff.2 ⟨by omega, less⟩
  have days := Calendar.daysFromCivil_civilFromDays (minute / 1440)
  have hour : 0 ≤ minute % 1440 / 60 ∧ minute % 1440 / 60 < 24 := by omega
  have again : daysFromCivil (utcHourFromMinute minute).year (utcHourFromMinute minute).month
      (utcHourFromMinute minute).date = minute / 1440 := days
  have date : (utcHourFromMinute minute).day = civilFromDays (minute / 1440) := rfl
  have digits : 0 ≤ (utcHourFromMinute minute).year ∧ (utcHourFromMinute minute).year ≤ 9999 := year
  unfold historyRangeFromShardName
  dsimp only
  rw [again, date, if_neg (not_or.mpr ⟨not_not.mpr digits, fun other => other rfl⟩)]
  show (if 0 ≤ minute % 1440 / 60 ∧ minute % 1440 / 60 < 24 then some (_, _) else none) = _
  rw [if_pos hour]
  refine congrArg some (Prod.ext ?_ ?_)
  · show minute / 1440 * 86400 + minute % 1440 / 60 * 3600 = minute / 60 * 3600
    omega
  · show minute / 1440 * 86400 + minute % 1440 / 60 * 3600 + 3599 = minute / 60 * 3600 + 3599
    omega

theorem mem_shardsBetween (later : 0 ≤ minute) (early : minute * 60 < lastNamed) (inside : between start finish minute)
    (here : shard files minute = some bucket) : utcHourFromMinute minute ∈ shardsBetween files start finish := by
  refine (List.mem_insertionSort _).mpr (List.mem_filter.mpr ⟨?_, ?_⟩)
  · cases there : files.history.get? (utcHourFromMinute minute) with
    | none =>
      rw [shard, readHistoryDay, there] at here
      cases here
    | some minutes => exact List.mem_map.mpr ⟨(_, minutes), Table.mem_entries.mpr there, rfl⟩
  · rw [range_of_hour later early]
    have bounds := of_decide_eq_true inside
    refine decide_eq_true ?_
    show start.getD i64Min ≤ minute / 60 * 3600 + 3599 ∧ minute / 60 * 3600 ≤ finish.getD i64Max
    omega

/-! ### What a window counts -/

/-- The requests of a range: by minutes, and none where it ends before it starts. -/
def inRange (start finish : Option Int) (request : RequestLog) : Bool :=
  !reversed start finish && between start finish (minuteOf request)

variable {clock : Nat} {state : StatsRuntimeState} {requests durable : List RequestLog}

theorem window_counts (outside : Outside) (stored : Stored clock files state requests durable) (early : (clock : Int) < lastNamed)
    (ranged : start.isSome ∨ finish.isSome) :
    Counts (windowBetween outside state files start finish).toWindowBucket (requests.filter (inRange start finish)) := by
  cases forward : reversed start finish with
  | true =>
    have nothing : requests.filter (inRange start finish) = [] := by
      refine List.filter_eq_nil_iff.mpr fun request _ inside => ?_
      rw [inRange, forward] at inside
      cases inside
    rw [nothing, windowBetween_reversed outside state files forward]
    exact counts_empty
  | false =>
    rw [windowBetween_merged outside state files ranged forward]
    generalize kept : state.activeMinutes.retain (between start finish) = active
    have retained : ∀ minute, active.get? minute =
        if between start finish minute then state.activeMinutes.get? minute else none := by
      rw [← kept]
      exact fun minute => Table.get?_retain ..
    -- what is merged for a minute of the range is what counts of it
    have inside : ∀ minute bucket, (minute, bucket) ∈ merged files active start finish →
        between start finish minute ∧ (state.activeMinutes.get? minute).or (shard files minute) = some bucket := by
      intro minute bucket member
      rcases (mem_merged stored.filed).mp member with here | ⟨absent, -, bounds, here⟩
      · rw [retained] at here
        split at here
        · rename_i bounds
          rw [here]
          exact ⟨bounds, rfl⟩
        · cases here
      · rw [retained, if_pos bounds] at absent
        rw [absent]
        exact ⟨bounds, here⟩
    have counts : ∀ entry ∈ merged files active start finish, Counts entry.2 (atMinute requests entry.1) := by
      intro entry member
      have holds := stored.counting entry.1
      rw [(inside entry.1 entry.2 member).2] at holds
      exact holds
    have same : requests.filter (inRange start finish) =
        requests.filter (minuteOf · ∈ (merged files active start finish).map Prod.fst) := by
      refine List.filter_congr fun request member => ?_
      rw [inRange, forward, Bool.not_false, Bool.true_and, Bool.eq_iff_iff, decide_eq_true_eq]
      constructor
      · intro bounds
        have time := stored.past request member
        have holds := stored.counting (minuteOf request)
        cases here : (state.activeMinutes.get? (minuteOf request)).or (shard files (minuteOf request)) with
        | none =>
          rw [here] at holds
          have gone : request ∈ atMinute requests (minuteOf request) := List.mem_filter.mpr ⟨member, decide_eq_true rfl⟩
          rw [show atMinute requests (minuteOf request) = [] from holds] at gone
          cases gone
        | some bucket =>
          refine List.mem_map.mpr ⟨(minuteOf request, bucket), (mem_merged stored.filed).mpr ?_, rfl⟩
          rw [retained, if_pos bounds]
          cases active_here : state.activeMinutes.get? (minuteOf request) with
          | some counted =>
            rw [active_here] at here
            exact .inl here
          | none =>
            rw [active_here, Option.none_or] at here
            refine .inr ⟨rfl, mem_shardsBetween ?_ ?_ bounds here, bounds, here⟩
            · unfold minuteOf
              omega
            · unfold minuteOf
              omega
      · intro listed
        obtain ⟨⟨_, bucket⟩, there, same⟩ := List.mem_map.mp listed
        cases same
        exact (inside _ bucket there).1
    rw [same]
    exact merge_counts (merged_distinct stored.filed active) counts

end Windows

end KiroProxy.Stats

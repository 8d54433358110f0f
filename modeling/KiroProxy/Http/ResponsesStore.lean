import KiroProxy.Json
import KiroProxy.Lib.Lookup
import KiroProxy.Lib.Run
import Mathlib.Algebra.GroupWithZero.Nat
import Mathlib.Algebra.Order.BigOperators.Group.List
import Mathlib.Algebra.Order.Group.Nat

/-! The in-memory store of Responses conversations: who may read what, and how much it holds.
Instants are milliseconds; a hash map is the list of its entries in some order. -/
namespace KiroProxy.Responses

open Run

structure SessionOwner where
  serviceId : String
  apiKeyId : Option String
  deriving DecidableEq, Repr

structure StoredSession where
  owner : SessionOwner
  conversationId : Option String
  history : List Value
  tools : List Value
  toolChoice : Option Value
  parallelToolCalls : Option Bool
  lastAccessed : Nat
  storedBytes : Nat := 0

def sessionTtl : Nat := 30 * 60 * 1000

def maxSessions : Nat := 256

def maxSessionBytes : Nat := 2 * 1024 * 1024

def maxTotalBytes : Nat := 32 * 1024 * 1024

namespace StoredSession

def serialized (session : StoredSession) : Value :=
  .array [(session.conversationId.map .string).getD .null, .array session.history, .array session.tools,
    session.toolChoice.getD .null, (session.parallelToolCalls.map .bool).getD .null]

def size (session : StoredSession) : Nat := session.serialized.render.utf8ByteSize

def refreshSize (session : StoredSession) : StoredSession × Bool :=
  ({ session with storedBytes := session.size }, session.size ≤ maxSessionBytes)

/-- What `insert` stores: the session with the output behind its history. -/
def extended (session : StoredSession) (output : List Value) (now : Nat) : StoredSession :=
  { session with history := session.history ++ output, lastAccessed := now }

end StoredSession

abbrev Entries := List (String × StoredSession)

namespace Entries

def prune (now : Nat) (entries : Entries) : Entries :=
  entries.filter fun entry => now - entry.2.lastAccessed ≤ sessionTtl

def remove (id : String) (entries : Entries) : Entries := entries.filter fun entry => entry.1 ≠ id

def bytes (entries : Entries) : Nat := (entries.map fun entry => entry.2.storedBytes).sum

def saturatingAdd (a b : Nat) : Nat := min (a + b) (2 ^ 64 - 1)

/-- One of the entries that were used least recently; which one it is among several depends on
the order of the hash map, `tie` says it. -/
def oldest (tie : String) (entries : Entries) : Option String :=
  let least := entries.filter fun entry => entries.all fun other => entry.2.lastAccessed ≤ other.2.lastAccessed
  if least.any (·.1 = tie) then some tie else least.head?.map (·.1)

/-- The loop's condition: too many entries, or too many bytes with the new session. -/
def crowded (needed : Nat) (s : Entries × Nat) : Bool :=
  !s.1.isEmpty && (maxSessions ≤ s.1.length || maxTotalBytes < saturatingAdd s.2 needed)

def evictOne (tie : String) (s : Entries × Nat) : Entries × Nat :=
  match oldest tie s.1 with
  | none => s
  | some id =>
    match s.1.lookup id with
    | none => s
    | some removed => (remove id s.1, s.2 - removed.storedBytes)

/-- The eviction loop, with a bound on its turns: no result where they do not suffice. -/
def evict (ties : Nat → String) (needed : Nat) : Nat → Entries × Nat → Option (Entries × Nat)
  | 0, _ => none
  | turns + 1, s => if crowded needed s then evict ties needed turns (evictOne (ties turns) s) else some s

def touch (now : Nat) (id : String) (entries : Entries) : Entries :=
  entries.map fun entry => if entry.1 = id then (entry.1, { entry.2 with lastAccessed := now }) else entry

def get (now : Nat) (id : String) (owner : SessionOwner) (entries : Entries) : Entries × Option StoredSession :=
  let entries := prune now entries
  match entries.lookup id with
  | none => (entries, none)
  | some session =>
    if session.owner ≠ owner then (entries, none)
    else (touch now id entries, some { session with lastAccessed := now })

/-- No result stands for a loop that does not end in as many turns as there are entries. -/
def insert (now : Nat) (ties : Nat → String) (id : String) (session : StoredSession) (output : List Value)
    (entries : Entries) : Option (Entries × Bool) :=
  let (session, fits) := (session.extended output now).refreshSize
  if !fits then some (entries, false)
  else
    let others := remove id (prune now entries)
    (evict ties session.storedBytes (others.length + 1) (others, bytes others)).map fun (kept, total) =>
      if maxTotalBytes < saturatingAdd total session.storedBytes then (kept, false)
      else (kept ++ [(id, session)], true)

end Entries

inductive Call where
  | get (now : Nat) (id : String) (owner : SessionOwner)
  | insert (now : Nat) (ties : Nat → String) (id : String) (session : StoredSession) (output : List Value)

def step (store : Option Entries) : Call → Option Entries
  | .get now id owner => store.map fun entries => (entries.get now id owner).1
  | .insert now ties id session output =>
    store.bind fun entries => (entries.insert now ties id session output).map (·.1)

def reached (calls : List Call) : Option Entries := run step (some []) calls

/-- The session that the last successful `insert` under the id has stored. -/
def lastStored (calls : List Call) (id : String) : Option StoredSession :=
  calls.foldl (fun last call => match call with
    | .insert now _ other session output =>
      if other = id ∧ (session.extended output now).size ≤ maxSessionBytes then some (session.extended output now)
      else last
    | .get .. => last) none

/-! ### Lists of entries -/

namespace Entries

variable {entries : Entries} {id : String} {session : StoredSession}

theorem lookup_isSome (member : id ∈ entries.map Prod.fst) : ∃ session, entries.lookup id = some session := by
  induction entries with
  | nil => cases member
  | cons entry rest ih =>
    rw [List.map_cons, List.mem_cons] at member
    rw [List.lookup_cons]
    by_cases same : id = entry.1
    · exact ⟨entry.2, by simp [same]⟩
    · have unequal : (id == entry.1) = false := by simpa using same
      rw [unequal]
      exact ih (member.resolve_left same)

theorem bytes_remove (distinct : (entries.map Prod.fst).Nodup) (found : entries.lookup id = some session) :
    bytes (remove id entries) + session.storedBytes = bytes entries := by
  induction entries with
  | nil => cases found
  | cons entry rest ih =>
    rw [List.map_cons, List.nodup_cons] at distinct
    rw [List.lookup_cons] at found
    by_cases same : id = entry.1
    · subst same
      simp only [beq_self_eq_true, Option.some.injEq] at found
      subst found
      have others : remove entry.1 rest = rest := by
        refine List.filter_eq_self.mpr ?_
        intro other member
        simp only [ne_eq, decide_not, Bool.not_eq_true', decide_eq_false_iff_not]
        rintro again
        exact distinct.1 (List.mem_map.mpr ⟨other, member, again⟩)
      have dropped : remove entry.1 (entry :: rest) = rest := by
        rw [remove, List.filter_cons_of_neg (by simp)]
        exact others
      simp only [dropped, bytes, List.map_cons, List.sum_cons]
      omega
    · have unequal : (id == entry.1) = false := by simpa using same
      rw [unequal] at found
      have kept : remove id (entry :: rest) = entry :: remove id rest := by
        rw [remove, List.filter_cons_of_pos (by simpa using Ne.symm same)]
        rfl
      have before := ih distinct.2 found
      simp only [kept, bytes, List.map_cons, List.sum_cons] at before ⊢
      omega

theorem length_remove (member : id ∈ entries.map Prod.fst) : (remove id entries).length < entries.length := by
  obtain ⟨entry, there, rfl⟩ := List.mem_map.mp member
  exact List.length_filter_lt_length_iff_exists.mpr ⟨entry, there, by simp⟩

theorem bytes_sublist {kept : Entries} (fewer : kept.Sublist entries) : bytes kept ≤ bytes entries :=
  (fewer.map _).sum_le_sum fun _ _ => Nat.zero_le _

theorem exists_least (filled : entries ≠ []) :
    ∃ entry ∈ entries, ∀ other ∈ entries, entry.2.lastAccessed ≤ other.2.lastAccessed := by
  induction entries with
  | nil => exact absurd rfl filled
  | cons entry rest ih =>
    cases rest with
    | nil => exact ⟨entry, by simp, by simp⟩
    | cons next rest =>
      obtain ⟨least, member, below⟩ := ih (by simp)
      rcases Nat.le_total entry.2.lastAccessed least.2.lastAccessed with first | later
      · refine ⟨entry, by simp, ?_⟩
        intro other there
        rcases List.mem_cons.mp there with rfl | inside
        · exact Nat.le_refl _
        · exact Nat.le_trans first (below other inside)
      · refine ⟨least, List.mem_cons_of_mem _ member, ?_⟩
        intro other there
        rcases List.mem_cons.mp there with rfl | inside
        · exact later
        · exact below other inside

theorem oldest_some (tie : String) (filled : entries ≠ []) :
    ∃ id, oldest tie entries = some id ∧ id ∈ entries.map Prod.fst := by
  obtain ⟨entry, member, below⟩ := exists_least filled
  have listed : entry ∈ entries.filter fun entry =>
      entries.all fun other => entry.2.lastAccessed ≤ other.2.lastAccessed := by
    refine List.mem_filter.mpr ⟨member, ?_⟩
    simpa using fun key other there => below (key, other) there
  unfold oldest
  dsimp only
  split
  case isTrue known =>
    obtain ⟨found, there, same⟩ := List.any_eq_true.mp known
    refine ⟨tie, rfl, List.mem_map.mpr ⟨found, List.mem_of_mem_filter there, by simpa using same⟩⟩
  case isFalse =>
    cases least : entries.filter fun entry => entries.all fun other => entry.2.lastAccessed ≤ other.2.lastAccessed with
    | nil => rw [least] at listed; cases listed
    | cons first others =>
      refine ⟨first.1, rfl, List.mem_map.mpr ⟨first, ?_, rfl⟩⟩
      exact List.mem_of_mem_filter (least ▸ List.mem_cons_self)

/-! ### The loop -/

/-- What the loop keeps: entries from before, and the running total exact. -/
structure Evicting (start : Entries) (s : Entries × Nat) : Prop where
  fewer : s.1.Sublist start
  exact : s.2 = bytes s.1

variable {start : Entries} {last : String → Option StoredSession}

theorem evictOne_spec (distinct : (start.map Prod.fst).Nodup) (tie : String) {s : Entries × Nat}
    (before : Evicting start s) (filled : s.1 ≠ []) :
    Evicting start (evictOne tie s) ∧ (evictOne tie s).1.length < s.1.length := by
  obtain ⟨id, chosen, known⟩ := oldest_some tie filled
  obtain ⟨removed, found⟩ := lookup_isSome known
  have result : evictOne tie s = (remove id s.1, s.2 - removed.storedBytes) := by
    simp only [evictOne, chosen, found]
  rw [result]
  have apart : (s.1.map Prod.fst).Nodup := (before.fewer.map Prod.fst).nodup distinct
  have less := bytes_remove apart found
  have total := before.exact
  constructor
  · exact ⟨List.filter_sublist.trans before.fewer, by dsimp only; omega⟩
  · exact length_remove known

theorem evict_ends (distinct : (start.map Prod.fst).Nodup) (ties : Nat → String) (needed : Nat) {turns : Nat}
    {s : Entries × Nat} (enough : s.1.length < turns) (before : Evicting start s) :
    ∃ kept, evict ties needed turns s = some kept ∧ Evicting start kept ∧ crowded needed kept = false := by
  induction turns generalizing s with
  | zero => omega
  | succ turns ih =>
    rw [evict]
    by_cases more : crowded needed s = true
    · have filled : s.1 ≠ [] := by
        rintro empty
        simp [crowded, empty] at more
      obtain ⟨after, shorter⟩ := evictOne_spec distinct (ties turns) before filled
      rw [if_pos more]
      exact ih (by omega) after
    · rw [if_neg more]
      exact ⟨s, rfl, before, by simpa using more⟩

theorem room_of_not_crowded {needed : Nat} {kept : Entries × Nat} (after : Evicting start kept)
    (done : crowded needed kept = false) (fits : needed ≤ maxSessionBytes) :
    kept.1.length < maxSessions ∧ bytes kept.1 + needed ≤ maxTotalBytes ∧
      saturatingAdd kept.2 needed ≤ maxTotalBytes := by
  have total := after.exact
  unfold saturatingAdd
  by_cases empty : kept.1 = []
  · have none : bytes kept.1 = 0 := by rw [empty]; rfl
    simp only [empty, List.length_nil, maxSessions, maxTotalBytes, maxSessionBytes] at fits ⊢
    rw [empty] at none total
    omega
  · have filled : kept.1.isEmpty = false := by simpa using empty
    simp only [crowded, filled, Bool.not_false, Bool.true_and, Bool.or_eq_false_iff, decide_eq_false_iff_not,
      saturatingAdd] at done
    obtain ⟨few, full⟩ := done
    have small := of_decide_eq_false full
    simp only [maxSessions, maxTotalBytes] at few small ⊢
    omega

/-! ### Whole runs -/

structure Within (entries : Entries) : Prop where
  few : entries.length ≤ maxSessions
  total : bytes entries ≤ maxTotalBytes
  each : ∀ entry ∈ entries, entry.2.storedBytes ≤ maxSessionBytes

def SameContent (a b : StoredSession) : Prop :=
  a.owner = b.owner ∧ a.conversationId = b.conversationId ∧ a.history = b.history ∧ a.tools = b.tools ∧
    a.toolChoice = b.toolChoice ∧ a.parallelToolCalls = b.parallelToolCalls

/-- The store within its limits, with each entry as it was stored last. -/
structure Sound (last : String → Option StoredSession) (entries : Entries) : Prop extends Within entries where
  distinct : (entries.map Prod.fst).Nodup
  stored : ∀ entry ∈ entries, ∃ session, last entry.1 = some session ∧ SameContent entry.2 session

theorem Sound.sublist {kept : Entries} (before : Sound last entries) (fewer : kept.Sublist entries) :
    Sound last kept where
  few := Nat.le_trans fewer.length_le before.few
  total := Nat.le_trans (bytes_sublist fewer) before.total
  each := fun entry member => before.each entry (fewer.subset member)
  distinct := (fewer.map Prod.fst).nodup before.distinct
  stored := fun entry member => before.stored entry (fewer.subset member)

theorem Sound.touched (before : Sound last entries) (now : Nat) (id : String) :
    Sound last (touch now id entries) := by
  have fields : ∀ entry ∈ touch now id entries, ∃ old ∈ entries, entry.1 = old.1 ∧
      entry.2.storedBytes = old.2.storedBytes ∧ SameContent entry.2 old.2 := by
    intro entry member
    obtain ⟨old, there, rfl⟩ := List.mem_map.mp member
    refine ⟨old, there, ?_⟩
    split
    · exact ⟨rfl, rfl, rfl, rfl, rfl, rfl, rfl, rfl⟩
    · exact ⟨rfl, rfl, rfl, rfl, rfl, rfl, rfl, rfl⟩
  have keys : (touch now id entries).map Prod.fst = entries.map Prod.fst := by
    rw [Entries.touch, List.map_map]
    apply List.map_congr_left
    intro entry _
    simp only [Function.comp]
    split <;> rfl
  have sizes : bytes (touch now id entries) = bytes entries := by
    rw [bytes, bytes, Entries.touch, List.map_map]
    refine congrArg List.sum (List.map_congr_left ?_)
    intro entry _
    simp only [Function.comp]
    split <;> rfl
  constructor
  · constructor
    · simpa [Entries.touch] using before.few
    · rw [sizes]
      exact before.total
    · intro entry member
      obtain ⟨old, there, -, size, -⟩ := fields entry member
      rw [size]
      exact before.each old there
  · rw [keys]
    exact before.distinct
  · intro entry member
    obtain ⟨old, there, key, -, same⟩ := fields entry member
    obtain ⟨session, known, content⟩ := before.stored old there
    refine ⟨session, key ▸ known, ?_⟩
    obtain ⟨h₁, h₂, h₃, h₄, h₅, h₆⟩ := same
    obtain ⟨k₁, k₂, k₃, k₄, k₅, k₆⟩ := content
    exact ⟨h₁.trans k₁, h₂.trans k₂, h₃.trans k₃, h₄.trans k₄, h₅.trans k₅, h₆.trans k₆⟩

theorem get_spec (now : Nat) (owner : SessionOwner) (before : Sound last entries) (id : String) :
    Sound last (entries.get now id owner).1 ∧
    ∀ session, (entries.get now id owner).2 = some session →
      session.owner = owner ∧ ∃ stored, last id = some stored ∧ SameContent session stored := by
  have pruned : Sound last (prune now entries) := before.sublist List.filter_sublist
  unfold get
  dsimp only
  cases found : (prune now entries).lookup id with
  | none => exact ⟨pruned, by simp⟩
  | some session =>
    obtain ⟨stored, known, same⟩ := pruned.stored _ (mem_of_lookup found)
    by_cases foreign : session.owner ≠ owner
    · simp only [if_pos foreign]
      exact ⟨pruned, by simp⟩
    · simp only [if_neg foreign]
      refine ⟨pruned.touched now id, ?_⟩
      intro result returned
      obtain rfl := Option.some.inj returned
      exact ⟨not_not.mp foreign, stored, known, same⟩

theorem insert_spec (now : Nat) (ties : Nat → String) (id : String) (session : StoredSession) (output : List Value)
    (before : Sound last entries) :
    ∃ after, entries.insert now ties id session output =
        some (after, decide ((session.extended output now).size ≤ maxSessionBytes)) ∧
      ((session.extended output now).size ≤ maxSessionBytes →
        Sound (fun other => if id = other then some (session.extended output now) else last other) after) ∧
      (¬ (session.extended output now).size ≤ maxSessionBytes → after = entries) := by
  by_cases fits : (session.extended output now).size ≤ maxSessionBytes
  · have others : Sound last (remove id (prune now entries)) :=
      before.sublist (List.filter_sublist.trans List.filter_sublist)
    obtain ⟨kept, ended, after, done⟩ := evict_ends others.distinct ties (session.extended output now).size
      (s := (remove id (prune now entries), bytes (remove id (prune now entries)))) (Nat.lt_succ_self _)
      ⟨List.Sublist.refl _, rfl⟩
    obtain ⟨few, total, room⟩ := room_of_not_crowded after done fits
    have rest : Sound last kept.1 := others.sublist after.fewer
    have absent : ∀ entry ∈ kept.1, entry.1 ≠ id := by
      intro entry member
      simpa using (List.mem_filter.mp (after.fewer.subset member)).2
    refine ⟨kept.1 ++ [(id, { session.extended output now with storedBytes := (session.extended output now).size })],
      ?_, ?_, fun large => absurd fits large⟩
    · simp only [insert, StoredSession.refreshSize, fits, decide_true, Bool.not_true, Bool.false_eq_true, if_false, ended,
        Option.map_some]
      rw [if_neg (Nat.not_lt.mpr room)]
    · intro _
      constructor
      · constructor
        · rw [List.length_append, List.length_singleton]
          exact few
        · simp only [bytes, List.map_append, List.sum_append, List.map_cons, List.map_nil, List.sum_singleton] at total ⊢
          exact total
        · intro entry member
          rcases List.mem_append.mp member with old | new
          · exact rest.each entry old
          · rw [List.mem_singleton.mp new]
            exact fits
      · rw [List.map_append]
        refine List.nodup_append.mpr ⟨rest.distinct, by simp, ?_⟩
        rintro key old other new rfl
        obtain ⟨entry, member, rfl⟩ := List.mem_map.mp old
        exact absent entry member (by simpa using new)
      · intro entry member
        rcases List.mem_append.mp member with old | new
        · rw [if_neg (Ne.symm (absent entry old))]
          exact rest.stored entry old
        · rw [List.mem_singleton.mp new]
          exact ⟨_, if_pos rfl, rfl, rfl, rfl, rfl, rfl, rfl⟩
  · refine ⟨entries, ?_, fun small => absurd small fits, fun _ => rfl⟩
    simp [insert, StoredSession.refreshSize, fits]

theorem sound_empty : Sound (fun _ => none) [] where
  few := Nat.zero_le _
  total := Nat.zero_le _
  each := fun _ none => by cases none
  distinct := List.nodup_nil
  stored := fun _ none => by cases none

end Entries

theorem step_sound {calls : List Call} {entries : Entries} (before : Entries.Sound (lastStored calls) entries)
    (call : Call) :
    ∃ after, step (some entries) call = some after ∧ Entries.Sound (lastStored (calls ++ [call])) after := by
  cases call with
  | get now id owner =>
    have same : lastStored (calls ++ [.get now id owner]) = lastStored calls := by
      funext other
      simp [lastStored]
    rw [same]
    exact ⟨_, rfl, (Entries.get_spec now owner before id).1⟩
  | insert now ties id session output =>
    obtain ⟨after, inserted, small, large⟩ := Entries.insert_spec now ties id session output before
    refine ⟨after, by simp [step, inserted], ?_⟩
    by_cases fits : (session.extended output now).size ≤ maxSessionBytes
    · have last : lastStored (calls ++ [.insert now ties id session output]) =
          fun other => if id = other then some (session.extended output now) else lastStored calls other := by
        funext other
        simp [lastStored, fits]
      rw [last]
      exact small fits
    · have last : lastStored (calls ++ [.insert now ties id session output]) = lastStored calls := by
        funext other
        simp [lastStored, fits]
      rw [last, large fits]
      exact before

theorem reached_sound (calls : List Call) :
    ∃ entries, reached calls = some entries ∧ Entries.Sound (lastStored calls) entries := by
  induction calls using List.reverseRecOn with
  | nil => exact ⟨[], rfl, Entries.sound_empty⟩
  | append_singleton calls call ih =>
    obtain ⟨entries, now, sound⟩ := ih
    obtain ⟨after, next, kept⟩ := step_sound sound call
    refine ⟨after, ?_, kept⟩
    rw [reached] at now ⊢
    rw [run_append, now]
    exact next

/-- After any calls the store is within its limits; an insert ends, succeeds exactly if the
session is small enough by itself, and else changes nothing; and a session is returned only to
its owner, as it was stored last under its id. -/
theorem store_kept (calls : List Call) :
    ∃ entries, reached calls = some entries ∧ Entries.Within entries ∧
      (∀ now ties id session output, ∃ after,
        entries.insert now ties id session output =
          some (after, decide ((session.extended output now).size ≤ maxSessionBytes)) ∧
        (¬ (session.extended output now).size ≤ maxSessionBytes → after = entries)) ∧
      ∀ now id owner session, (entries.get now id owner).2 = some session →
        session.owner = owner ∧ ∃ stored, lastStored calls id = some stored ∧ Entries.SameContent session stored := by
  obtain ⟨entries, now, sound⟩ := reached_sound calls
  refine ⟨entries, now, sound.toWithin, ?_, ?_⟩
  · intro now ties id session output
    obtain ⟨after, inserted, -, refused⟩ := Entries.insert_spec now ties id session output sound
    exact ⟨after, inserted, refused⟩
  · intro now id owner
    exact (Entries.get_spec now owner sound id).2

def sampleSession (apiKeyId : String) (text : String) : StoredSession :=
  { owner := { serviceId := "s", apiKeyId := some apiKeyId }, conversationId := some "c", history := [.string text]
    tools := [], toolChoice := none, parallelToolCalls := none, lastAccessed := 0 }

def sampleCalls : List Call :=
  [.insert 0 (fun _ => "") "resp_1" (sampleSession "k" "one") [], .insert 5 (fun _ => "") "resp_1" (sampleSession "l" "two") []]

theorem store_kept_two :
    ∃ entries, reached sampleCalls = some entries ∧ entries.length ≤ 256 ∧
      (∀ session, (entries.get 9 "resp_1" { serviceId := "s", apiKeyId := some "l" }).2 = some session →
        session.history.map Value.render = ["\"two\""]) ∧
      ((entries.get 9 "resp_1" { serviceId := "s", apiKeyId := some "l" }).2).isSome = true ∧
      ((entries.get 9 "resp_1" { serviceId := "s", apiKeyId := some "k" }).2).isSome = false := by
  obtain ⟨entries, now, within, -, reads⟩ := store_kept sampleCalls
  have seen : (reached sampleCalls).map (fun entries =>
      (((entries.get 9 "resp_1" { serviceId := "s", apiKeyId := some "l" }).2).isSome,
        ((entries.get 9 "resp_1" { serviceId := "s", apiKeyId := some "k" }).2).isSome)) = some (true, false) := by
    decide
  rw [now, Option.map_some, Option.some.injEq, Prod.mk.injEq] at seen
  refine ⟨entries, now, within.few, ?_, seen.1, seen.2⟩
  intro session returned
  obtain ⟨-, stored, last, -, -, history, -⟩ := reads 9 "resp_1" _ session returned
  have second : (lastStored sampleCalls "resp_1").map (fun stored => stored.history.map Value.render) =
      some ["\"two\""] := by decide
  rw [last, Option.map_some, Option.some.injEq] at second
  rw [history]
  exact second

end KiroProxy.Responses

import KiroProxy.Lib.Run
import KiroProxy.Lib.Holder
import Mathlib.Order.Basic

/-! The deferred persistence of the meter: settlements raise a dirty generation and one
background task writes the usage file. Every atomic operation is one step; the mutexes
of the two ledgers make each of their sections one. The 64-bit generation is read as a
natural number, and every write of the file succeeds. -/
namespace KiroProxy.Persistence

open Run Holder

inductive Actor where
  | caller (i : Nat)
  | task (i : Nat)
  deriving DecidableEq, Repr

def Actor.spawned : Actor → Actor
  | .caller i => .task i
  | .task i => .task i

/-- The settlements whose change of the API keys, and of the service ledger, is contained. -/
structure Snapshot where
  keys : List Actor := []
  service : List Actor := []

/-- `Meter::persist` between its operations: the lock, the two reads, the write. -/
inductive Saving where
  | waiting
  | locked
  | keysRead (keys : List Actor)
  | read (snapshot : Snapshot)
  | written

/-- Where an actor stands, by the operation that comes next. A settlement that has marked
the meter dirty carries the generation it produced; the code does not keep it. -/
inductive Pc where
  | idle
  | serviceDone
  | keyDone
  | direct (phase : Saving)
  | returned
  | claiming (stamp : Nat)
  | spawning (stamp : Nat)
  | marked (stamp : Nat)
  | absent
  | sleeping
  | saving (generation : Nat) (phase : Saving)
  | rechecking (generation : Nat)
  | clearing (generation : Nat)
  | reloading (generation : Nat)
  | reclaiming
  | finished

structure State where
  dirtyGeneration : Nat := 0
  persistScheduled : Bool := false
  persistLock : Bool := false
  ledger : Snapshot := {}
  file : Snapshot := {}
  pc : Actor → Pc

def initialPc : Actor → Pc
  | .caller _ => .idle
  | .task _ => .absent

def initial : State := { pc := initialPc }

def State.goto (s : State) (a : Actor) (pc : Pc) : State :=
  { s with pc := Function.update s.pc a pc }

/-- One operation of `persist`; nothing is left to do after the lock is given back. -/
def persist (s : State) : Saving → State × Option Saving
  | .waiting => if s.persistLock then (s, some .waiting) else ({ s with persistLock := true }, some .locked)
  | .locked => (s, some (.keysRead s.ledger.keys))
  | .keysRead keys => (s, some (.read { keys := keys, service := s.ledger.service }))
  | .read snapshot => ({ s with file := snapshot }, some .written)
  | .written => ({ s with persistLock := false }, none)

/-- One operation of one actor. `durable` tells whether a limit made the settlement
persist by itself instead of marking the meter dirty. -/
def step (s : State) (action : Actor × Bool) : State :=
  let (a, durable) := action
  match s.pc a with
  | .idle =>
    { s with ledger := { s.ledger with service := s.ledger.service ++ [a] } }.goto a .serviceDone
  | .serviceDone => { s with ledger := { s.ledger with keys := s.ledger.keys ++ [a] } }.goto a .keyDone
  | .keyDone =>
    if durable then s.goto a (.direct .waiting)
    else { s with dirtyGeneration := s.dirtyGeneration + 1 }.goto a (.claiming (s.dirtyGeneration + 1))
  | .direct phase => match persist s phase with
    | (s, some phase) => s.goto a (.direct phase)
    | (s, none) => s.goto a .returned
  | .claiming stamp =>
    if s.persistScheduled then s.goto a (.marked stamp)
    else { s with persistScheduled := true }.goto a (.spawning stamp)
  | .spawning stamp => (s.goto a (.marked stamp)).goto a.spawned .sleeping
  | .sleeping => s.goto a (.saving s.dirtyGeneration .waiting)
  | .saving generation phase => match persist s phase with
    | (s, some phase) => s.goto a (.saving generation phase)
    | (s, none) => s.goto a (.rechecking generation)
  | .rechecking generation =>
    if s.dirtyGeneration ≠ generation then s.goto a .sleeping else s.goto a (.clearing generation)
  | .clearing generation => { s with persistScheduled := false }.goto a (.reloading generation)
  | .reloading generation =>
    if s.dirtyGeneration ≠ generation then s.goto a .reclaiming else s.goto a .finished
  | .reclaiming =>
    if s.persistScheduled then s.goto a .finished
    else { s with persistScheduled := true }.goto a .sleeping
  | .returned | .marked _ | .absent | .finished => s

/-! ### What one operation can do -/

/-- Both users of `persist`: a settlement under a limit, and the background task. -/
inductive Saves : (Saving → Pc) → Prop where
  | direct : Saves .direct
  | task (generation : Nat) : Saves (.saving generation)

inductive Move (s : State) (a : Actor) : State → Prop where
  | stay : Move s a s
  | settleService (here : s.pc a = .idle) :
      Move s a ({ s with ledger := { s.ledger with service := s.ledger.service ++ [a] } }.goto a .serviceDone)
  | settleKey (here : s.pc a = .serviceDone) :
      Move s a ({ s with ledger := { s.ledger with keys := s.ledger.keys ++ [a] } }.goto a .keyDone)
  | persistNow (here : s.pc a = .keyDone) : Move s a (s.goto a (.direct .waiting))
  | bump (here : s.pc a = .keyDone) :
      Move s a ({ s with dirtyGeneration := s.dirtyGeneration + 1 }.goto a
        (.claiming (s.dirtyGeneration + 1)))
  | leave {stamp : Nat} (here : s.pc a = .claiming stamp) (taken : s.persistScheduled = true) :
      Move s a (s.goto a (.marked stamp))
  | claim {stamp : Nat} (here : s.pc a = .claiming stamp) (free : s.persistScheduled = false) :
      Move s a ({ s with persistScheduled := true }.goto a (.spawning stamp))
  | spawn {stamp : Nat} (here : s.pc a = .spawning stamp) :
      Move s a ((s.goto a (.marked stamp)).goto a.spawned .sleeping)
  | sample (here : s.pc a = .sleeping) : Move s a (s.goto a (.saving s.dirtyGeneration .waiting))
  | lock {stage : Saving → Pc} (saves : Saves stage) (here : s.pc a = stage .waiting)
      (free : s.persistLock = false) : Move s a ({ s with persistLock := true }.goto a (stage .locked))
  | readKeys {stage : Saving → Pc} (saves : Saves stage) (here : s.pc a = stage .locked) :
      Move s a (s.goto a (stage (.keysRead s.ledger.keys)))
  | readService {stage : Saving → Pc} {keys : List Actor} (saves : Saves stage)
      (here : s.pc a = stage (.keysRead keys)) :
      Move s a (s.goto a (stage (.read { keys := keys, service := s.ledger.service })))
  | write {stage : Saving → Pc} {snapshot : Snapshot} (saves : Saves stage)
      (here : s.pc a = stage (.read snapshot)) : Move s a ({ s with file := snapshot }.goto a (stage .written))
  | saved (here : s.pc a = .direct .written) :
      Move s a ({ s with persistLock := false }.goto a .returned)
  | savedByTask {generation : Nat} (here : s.pc a = .saving generation .written) :
      Move s a ({ s with persistLock := false }.goto a (.rechecking generation))
  | again {generation : Nat} (here : s.pc a = .rechecking generation)
      (moved : s.dirtyGeneration ≠ generation) : Move s a (s.goto a .sleeping)
  | agree {generation : Nat} (here : s.pc a = .rechecking generation)
      (same : s.dirtyGeneration = generation) : Move s a (s.goto a (.clearing generation))
  | clear {generation : Nat} (here : s.pc a = .clearing generation) :
      Move s a ({ s with persistScheduled := false }.goto a (.reloading generation))
  | missed {generation : Nat} (here : s.pc a = .reloading generation)
      (moved : s.dirtyGeneration ≠ generation) : Move s a (s.goto a .reclaiming)
  | finish {generation : Nat} (here : s.pc a = .reloading generation)
      (same : s.dirtyGeneration = generation) : Move s a (s.goto a .finished)
  | yield (here : s.pc a = .reclaiming) (taken : s.persistScheduled = true) :
      Move s a (s.goto a .finished)
  | reclaim (here : s.pc a = .reclaiming) (free : s.persistScheduled = false) :
      Move s a ({ s with persistScheduled := true }.goto a .sleeping)

variable {s t : State} {a b : Actor} {n : Nat}

theorem goto_self {pc : Pc} (here : s.pc a = pc) : s.goto a pc = s := by
  subst here
  simp [State.goto]

theorem persist_move {stage : Saving → Pc} (saves : Saves stage) {phase next : Saving} (here : s.pc a = stage phase)
    (more : (persist s phase).2 = some next) :
    Move s a ((persist s phase).1.goto a (stage next)) := by
  cases phase with
  | waiting =>
    cases held : s.persistLock with
    | true =>
      simp only [persist, held, if_true, Option.some.injEq] at more ⊢
      subst more
      rw [goto_self here]
      exact .stay
    | false =>
      simp only [persist, held, Bool.false_eq_true, if_false, Option.some.injEq] at more ⊢
      subst more
      exact .lock saves here held
  | locked =>
    cases more
    exact .readKeys saves here
  | keysRead keys =>
    cases more
    exact .readService saves here
  | read snapshot =>
    cases more
    exact .write saves here
  | written => cases more

theorem persist_done {phase : Saving} (done : (persist s phase).2 = none) :
    phase = .written ∧ (persist s phase).1 = { s with persistLock := false } := by
  cases phase with
  | waiting =>
    simp only [persist] at done
    split at done <;> cases done
  | locked => cases done
  | keysRead keys => cases done
  | read snapshot => cases done
  | written => exact ⟨rfl, rfl⟩

theorem step_move (s : State) (a : Actor) (durable : Bool) : Move s a (step s (a, durable)) := by
  cases here : s.pc a with
  | idle =>
    simp only [step, here]
    exact .settleService here
  | serviceDone =>
    simp only [step, here]
    exact .settleKey here
  | keyDone =>
    simp only [step, here]
    split
    · exact .persistNow here
    · exact .bump here
  | direct phase =>
    simp only [step, here]
    cases rest : (persist s phase).2 with
    | some next =>
      have moved := persist_move .direct here rest
      rw [show persist s phase = ((persist s phase).1, some next) by rw [← rest]]
      exact moved
    | none =>
      obtain ⟨rfl, unlocked⟩ := persist_done rest
      exact .saved here
  | returned =>
    simp only [step, here]
    exact .stay
  | claiming stamp =>
    simp only [step, here]
    split
    · rename_i taken
      exact .leave here taken
    · rename_i free
      exact .claim here (by simpa using free)
  | spawning stamp =>
    simp only [step, here]
    exact .spawn here
  | marked stamp =>
    simp only [step, here]
    exact .stay
  | absent =>
    simp only [step, here]
    exact .stay
  | sleeping =>
    simp only [step, here]
    exact .sample here
  | saving generation phase =>
    simp only [step, here]
    cases rest : (persist s phase).2 with
    | some next =>
      have moved := persist_move (.task generation) here rest
      rw [show persist s phase = ((persist s phase).1, some next) by rw [← rest]]
      exact moved
    | none =>
      obtain ⟨rfl, unlocked⟩ := persist_done rest
      exact .savedByTask here
  | rechecking generation =>
    simp only [step, here]
    split
    · rename_i moved
      exact .again here moved
    · rename_i same
      exact .agree here (not_not.mp same)
  | clearing generation =>
    simp only [step, here]
    exact .clear here
  | reloading generation =>
    simp only [step, here]
    split
    · rename_i moved
      exact .missed here moved
    · rename_i same
      exact .finish here (not_not.mp same)
  | reclaiming =>
    simp only [step, here]
    split
    · rename_i taken
      exact .yield here taken
    · rename_i free
      exact .reclaim here (by simpa using free)
  | finished =>
    simp only [step, here]
    exact .stay

/-! ### Who is responsible -/

def Pc.owns : Pc → Bool
  | .spawning _ | .sleeping | .saving _ _ | .rechecking _ | .clearing _ => true
  | _ => false

def Saving.locks : Saving → Bool
  | .waiting => false
  | _ => true

def Pc.locks : Pc → Bool
  | .direct phase | .saving _ phase => phase.locks
  | _ => false

def Pc.early : Pc → Bool
  | .idle | .serviceDone | .keyDone | .claiming _ | .spawning _ => true
  | _ => false

/-- A task exists only after the settlement that spawned it is through. -/
structure Spawned (s : State) : Prop where
  tasks : ∀ i, (s.pc (.task i)).early = false
  callers : ∀ i, (s.pc (.caller i)).early = true → s.pc (.task i) = .absent

theorem Spawned.goto {next : Pc} (before : Spawned s) (pcs : t.pc = s.pc)
    (early : next.early = true → (s.pc a).early = true) (there : s.pc a ≠ .absent) :
    Spawned (t.goto a next) := by
  constructor
  · intro i
    rcases eq_or_ne (.task i) a with rfl | other
    · have := before.tasks i
      cases now : next.early with
      | true => simp [early now] at this
      | false => simp [State.goto, now]
    · simpa [State.goto, Function.update_of_ne other, pcs] using before.tasks i
  · intro i now
    have was : (s.pc (.caller i)).early = true := by
      rcases eq_or_ne (.caller i) a with rfl | other
      · exact early (by simpa [State.goto] using now)
      · simpa [State.goto, Function.update_of_ne other, pcs] using now
    have absent := before.callers i was
    have other : Actor.task i ≠ a := by
      rintro rfl
      exact there absent
    simpa [State.goto, Function.update_of_ne other, pcs] using absent

theorem Spawned.spawning {stamp : Nat} (before : Spawned s) (here : s.pc a = .spawning stamp) :
    ∃ i, a = .caller i ∧ s.pc (.task i) = .absent := by
  cases a with
  | task i =>
    have := before.tasks i
    simp [here, Pc.early] at this
  | caller i => exact ⟨i, rfl, before.callers i (by simp [here, Pc.early])⟩

theorem move_spawned (move : Move s a t) (before : Spawned s) : Spawned t := by
  cases move with
  | stay => exact before
  | spawn here =>
    obtain ⟨i, rfl, absent⟩ := before.spawning here
    constructor
    · intro j
      rcases eq_or_ne j i with rfl | other
      · simp [State.goto, Actor.spawned, Pc.early]
      · simpa [State.goto, Actor.spawned, other] using before.tasks j
    · intro j now
      rcases eq_or_ne j i with rfl | other
      · simp [State.goto, Actor.spawned, Pc.early] at now
      · simpa [State.goto, Actor.spawned, other] using before.callers j (by
          simpa [State.goto, Actor.spawned, other] using now)
  | settleService here | settleKey here | persistNow here | bump here | sample here | saved here
  | savedByTask here | clear here =>
    exact before.goto rfl (by simp [here, Pc.early]) (by simp [here])
  | leave here guard | claim here guard | again here guard | agree here guard | missed here guard
  | finish here guard | yield here guard | reclaim here guard =>
    exact before.goto rfl (by simp [here, Pc.early]) (by simp [here])
  | readKeys saves here | readService saves here | write saves here =>
    cases saves <;> exact before.goto rfl (by simp [Pc.early]) (by simp [here])
  | lock saves here free =>
    cases saves <;> exact before.goto rfl (by simp [Pc.early]) (by simp [here])

theorem move_scheduled (move : Move s a t) (before : Held Pc.owns s.pc s.persistScheduled) :
    Held Pc.owns t.pc t.persistScheduled := by
  cases move with
  | stay => exact before
  | claim here free | reclaim here free => exact (free ▸ before).take rfl
  | clear here => exact before.release (by simp [here, Pc.owns]) rfl
  | spawn here =>
    have up : s.persistScheduled = true := before.set a (by simp [here, Pc.owns])
    show Held Pc.owns (Function.update (Function.update s.pc a _) a.spawned _) s.persistScheduled
    rw [up]
    exact (before.release (by simp [here, Pc.owns]) rfl).take rfl
  | settleService here | settleKey here | persistNow here | bump here | sample here | saved here
  | savedByTask here =>
    exact before.keep (by simp [here, Pc.owns])
  | leave here guard | again here guard | agree here guard | missed here guard | finish here guard
  | yield here guard =>
    exact before.keep (by simp [here, Pc.owns])
  | readKeys saves here | readService saves here | write saves here =>
    cases saves <;> exact before.keep (by simp [here, Pc.owns])
  | lock saves here free =>
    cases saves <;> exact before.keep (by simp [here, Pc.owns])

theorem move_locked (move : Move s a t) (spawned : Spawned s) (before : Held Pc.locks s.pc s.persistLock) :
    Held Pc.locks t.pc t.persistLock := by
  cases move with
  | stay => exact before
  | lock saves here free => cases saves <;> exact (free ▸ before).take rfl
  | saved here | savedByTask here => exact before.release (by simp [here, Pc.locks, Saving.locks]) rfl
  | @spawn stamp here =>
    obtain ⟨i, rfl, absent⟩ := spawned.spawning here
    have left : Held Pc.locks (Function.update s.pc (.caller i) (.marked stamp)) s.persistLock :=
      before.keep (by simp [here, Pc.locks])
    exact left.keep (by simp [Actor.spawned, absent, Pc.locks])
  | settleService here | settleKey here | persistNow here | bump here | sample here | clear here =>
    exact before.keep (by simp [here, Pc.locks, Saving.locks])
  | leave here guard | claim here guard | again here guard | agree here guard | missed here guard
  | finish here guard | yield here guard | reclaim here guard =>
    exact before.keep (by simp [here, Pc.locks])
  | readKeys saves here | readService saves here | write saves here =>
    cases saves <;> exact before.keep (by simp [here, Pc.locks, Saving.locks])

/-! ### What a save contains -/

instance : Preorder Snapshot where
  le first second := first.keys ⊆ second.keys ∧ first.service ⊆ second.service
  le_refl _ := ⟨List.Subset.refl _, List.Subset.refl _⟩
  le_trans _ _ _ low high := ⟨List.Subset.trans low.1 high.1, List.Subset.trans low.2 high.2⟩

def Snapshot.has (snapshot : Snapshot) (b : Actor) : Prop := b ∈ snapshot.keys ∧ b ∈ snapshot.service

theorem Snapshot.has.mono {small large : Snapshot} (inside : small.has b) (le : small ≤ large) :
    large.has b := ⟨le.1 inside.1, le.2 inside.2⟩

/-- The snapshot that a save at this phase has written or would write if the ledger stood
still from here on. -/
def State.pending (s : State) : Saving → Snapshot
  | .waiting | .locked => s.ledger
  | .keysRead keys => { keys := keys, service := s.ledger.service }
  | .read snapshot => snapshot
  | .written => s.file

def Pc.phase : Pc → Option Saving
  | .direct phase | .saving _ phase => some phase
  | _ => none

def Pc.stamp : Pc → Option Nat
  | .claiming stamp | .spawning stamp | .marked stamp => some stamp
  | _ => none

def Pc.generation : Pc → Option Nat
  | .saving generation _ | .rechecking generation | .clearing generation | .reloading generation =>
    some generation
  | _ => none

/-- What the background task vouches for: its save in progress, or the file after it. -/
def State.shown (s : State) (pc : Pc) : Snapshot :=
  match pc.phase with
  | some phase => s.pending phase
  | none => s.file

theorem pending_mono (file : s.file ≤ t.file) (ledger : s.ledger ≤ t.ledger) (phase : Saving) :
    s.pending phase ≤ t.pending phase := by
  cases phase with
  | waiting => exact ledger
  | locked => exact ledger
  | keysRead keys => exact ⟨List.Subset.refl _, ledger.2⟩
  | read snapshot => exact le_refl snapshot
  | written => exact file

theorem shown_mono (file : s.file ≤ t.file) (ledger : s.ledger ≤ t.ledger) (pc : Pc) :
    s.shown pc ≤ t.shown pc := by
  unfold State.shown
  cases pc.phase with
  | none => exact file
  | some phase => exact pending_mono file ledger phase

/-- The file only grows: a save reads the ledger after the last one has been written, and
the ledger only grows. -/
structure Growing (s : State) : Prop where
  file : s.file ≤ s.ledger
  saves : ∀ a phase, (s.pc a).phase = some phase → s.file ≤ s.pending phase ∧ s.pending phase ≤ s.ledger

theorem move_frame (move : Move s a t) (other : b ≠ a) :
    t.pc b = s.pc b ∨ t.pc b = .sleeping := by
  cases move with
  | stay => exact .inl rfl
  | spawn here =>
    rcases eq_or_ne b a.spawned with rfl | another
    · exact .inr (by simp [State.goto])
    · exact .inl (by simp [State.goto, other, another])
  | _ => exact .inl (by simp [State.goto, other])

theorem move_ledger (move : Move s a t) : s.ledger ≤ t.ledger := by
  cases move with
  | settleService here => exact ⟨List.Subset.refl _, List.subset_append_left _ _⟩
  | settleKey here => exact ⟨List.subset_append_left _ _, List.Subset.refl _⟩
  | _ => exact le_refl s.ledger

theorem move_dirty (move : Move s a t) : s.dirtyGeneration ≤ t.dirtyGeneration := by
  cases move with
  | bump here => exact Nat.le_succ _
  | _ => exact Nat.le_refl s.dirtyGeneration

theorem move_file (move : Move s a t) :
    t.file = s.file ∨ ∃ snapshot, (s.pc a).phase = some (.read snapshot) ∧ t.file = snapshot := by
  cases move with
  | @write stage snapshot saves here =>
    refine .inr ⟨snapshot, ?_, rfl⟩
    cases saves <;> simp [here, Pc.phase]
  | _ => exact .inl rfl

theorem Growing.move_file (growing : Growing s) (move : Move s a t) :
    s.file ≤ t.file := by
  rcases Persistence.move_file move with same | ⟨snapshot, here, new⟩
  · exact same ▸ le_refl s.file
  · exact new ▸ (growing.saves a _ here).1

theorem move_phase {next : Saving} (move : Move s a t) (now : (t.pc a).phase = some next) :
    next = .waiting ∨ ∃ phase, (s.pc a).phase = some phase ∧ t.pending next = s.pending phase := by
  cases move with
  | stay => exact .inr ⟨next, now, rfl⟩
  | persistNow here | sample here =>
    simp only [State.goto, Function.update_self, Pc.phase, Option.some.injEq] at now
    exact .inl now.symm
  | lock saves here free =>
    cases saves <;> simp only [State.goto, Function.update_self, Pc.phase, Option.some.injEq] at now <;>
      subst now <;> exact .inr ⟨.waiting, by simp [here, Pc.phase], rfl⟩
  | readKeys saves here | readService saves here | write saves here =>
    cases saves <;> simp only [State.goto, Function.update_self, Pc.phase, Option.some.injEq] at now <;>
      subst now <;> exact .inr ⟨_, by rw [here, Pc.phase], rfl⟩
  | spawn here => cases a <;> simp [State.goto, Actor.spawned, Pc.phase] at now
  | _ => simp [State.goto, Pc.phase] at now

theorem phase_waiting {pc : Pc} {phase : Saving} (here : pc.phase = some phase) (free : pc.locks = false) :
    phase = .waiting := by
  cases pc with
  | direct stage => cases stage <;> simp_all [Pc.phase, Pc.locks, Saving.locks]
  | saving generation stage => cases stage <;> simp_all [Pc.phase, Pc.locks, Saving.locks]
  | _ => simp [Pc.phase] at here

theorem pending_le {phase : Saving} (low : s.pending phase ≤ s.ledger) (ledger : s.ledger ≤ t.ledger)
    (file : t.file = s.file) : t.pending phase ≤ t.ledger := by
  cases phase with
  | waiting => exact le_refl t.ledger
  | locked => exact le_refl t.ledger
  | keysRead keys => exact ⟨List.Subset.trans low.1 ledger.1, List.Subset.refl _⟩
  | read snapshot => exact le_trans low ledger
  | written =>
    show t.file ≤ t.ledger
    rw [file]
    exact le_trans low ledger

theorem move_growing (move : Move s a t) (locked : Held Pc.locks s.pc s.persistLock) (growing : Growing s) :
    Growing t := by
  have ledger := move_ledger move
  have file : t.file ≤ t.ledger := by
    rcases move_file move with same | ⟨snapshot, here, new⟩
    · exact same ▸ le_trans growing.file ledger
    · exact new ▸ le_trans (growing.saves a _ here).2 ledger
  refine ⟨file, ?_⟩
  intro c phase now
  rcases eq_or_ne c a with rfl | other
  · rcases move_phase move now with rfl | ⟨was, here, same⟩
    · exact ⟨file, le_refl t.ledger⟩
    · obtain ⟨low, high⟩ := growing.saves c was here
      refine ⟨?_, same ▸ le_trans high ledger⟩
      rcases move_file move with kept | ⟨snapshot, reading, new⟩
      · exact same ▸ kept ▸ low
      · rw [here, Option.some.injEq] at reading
        subst reading
        exact same ▸ new ▸ le_refl snapshot
  · have still : t.pc c = s.pc c := by
      rcases move_frame move other with still | slept
      · exact still
      · simp [slept, Pc.phase] at now
    rw [still] at now
    obtain ⟨low, high⟩ := growing.saves c phase now
    rcases move_file move with kept | ⟨snapshot, reading, new⟩
    · refine ⟨?_, pending_le high ledger kept⟩
      exact kept ▸ le_trans low (pending_mono (kept ▸ le_refl s.file) ledger phase)
    · -- the writer holds the lock, so the other save has read nothing yet
      have waiting : phase = .waiting := by
        apply phase_waiting now
        by_contra holding
        refine other (locked.one c a (by simpa using holding) ?_)
        by_contra free
        cases phase_waiting reading (by simpa using free)
      subst waiting
      exact ⟨file, le_refl t.ledger⟩

/-! ### Which settlements a save covers -/

/-- A stamp is given out after both parts of the settlement are in the ledger. -/
structure Applied (s : State) : Prop where
  service : ∀ b, s.pc b = .serviceDone → b ∈ s.ledger.service
  key : ∀ b, s.pc b = .keyDone → s.ledger.has b
  stamped : ∀ b n, (s.pc b).stamp = some n → s.ledger.has b ∧ n ≤ s.dirtyGeneration

theorem move_stamp (move : Move s a t) (now : (t.pc a).stamp = some n) :
    (s.pc a).stamp = some n ∨
      s.pc a = .keyDone ∧ n = s.dirtyGeneration + 1 ∧ t.dirtyGeneration = s.dirtyGeneration + 1 := by
  cases move with
  | stay => exact .inl now
  | bump here =>
    simp only [State.goto, Function.update_self, Pc.stamp, Option.some.injEq] at now
    exact .inr ⟨here, now.symm, rfl⟩
  | leave here guard | claim here guard =>
    simp only [State.goto, Function.update_self, Pc.stamp, Option.some.injEq] at now
    exact .inl (by rw [here, Pc.stamp, now])
  | spawn here =>
    refine .inl ?_
    cases a <;> simp_all [State.goto, Actor.spawned, Pc.stamp]
  | lock saves here free => cases saves <;> simp [State.goto, Pc.stamp] at now
  | readKeys saves here | readService saves here | write saves here =>
    cases saves <;> simp [State.goto, Pc.stamp] at now
  | _ => simp [State.goto, Pc.stamp] at now

theorem move_settles (move : Move s a t) :
    (t.pc a = .serviceDone → s.pc a = .serviceDone ∧ t = s ∨ a ∈ t.ledger.service) ∧
      (t.pc a = .keyDone → s.pc a = .keyDone ∧ t = s ∨ s.pc a = .serviceDone ∧ a ∈ t.ledger.keys) := by
  cases move with
  | stay => exact ⟨fun here => .inl ⟨here, rfl⟩, fun here => .inl ⟨here, rfl⟩⟩
  | settleService here => simp [State.goto]
  | settleKey here => simp [State.goto, here]
  | lock saves here free => cases saves <;> simp [State.goto]
  | readKeys saves here | readService saves here | write saves here => cases saves <;> simp [State.goto]
  | spawn here => cases a <;> simp [State.goto, Actor.spawned]
  | _ => simp [State.goto]

theorem move_applied (move : Move s a t) (before : Applied s) : Applied t := by
  have ledger := move_ledger move
  have dirty := move_dirty move
  obtain ⟨toService, toKey⟩ := move_settles move
  constructor
  · intro b now
    rcases eq_or_ne b a with rfl | other
    · rcases toService now with ⟨here, rfl⟩ | done
      · exact before.service b here
      · exact done
    · rcases move_frame move other with still | slept
      · exact ledger.2 (before.service b (still ▸ now))
      · simp [slept] at now
  · intro b now
    rcases eq_or_ne b a with rfl | other
    · rcases toKey now with ⟨here, rfl⟩ | ⟨here, done⟩
      · exact before.key b here
      · exact ⟨done, ledger.2 (before.service b here)⟩
    · rcases move_frame move other with still | slept
      · exact (before.key b (still ▸ now)).mono ledger
      · simp [slept] at now
  · intro b n now
    rcases eq_or_ne b a with rfl | other
    · rcases move_stamp move now with here | ⟨here, rfl, bumped⟩
      · exact ⟨(before.stamped b n here).1.mono ledger, Nat.le_trans (before.stamped b n here).2 dirty⟩
      · exact ⟨(before.key b here).mono ledger, Nat.le_of_eq bumped.symm⟩
    · rcases move_frame move other with still | slept
      · rw [still] at now
        exact ⟨(before.stamped b n now).1.mono ledger, Nat.le_trans (before.stamped b n now).2 dirty⟩
      · simp [slept, Pc.stamp] at now

/-- What the task vouches for contains every settlement up to the generation it sampled. -/
def Promised (s : State) : Prop :=
  ∀ a g, (s.pc a).generation = some g → g ≤ s.dirtyGeneration ∧
    ∀ b n, (s.pc b).stamp = some n → n ≤ g → (s.shown (s.pc a)).has b

theorem move_generation {g : Nat} (move : Move s a t) (now : (t.pc a).generation = some g) :
    g = s.dirtyGeneration ∧ t.shown (t.pc a) = s.ledger ∨
      (s.pc a).generation = some g ∧ t.shown (t.pc a) = s.shown (s.pc a) := by
  cases move with
  | stay => exact .inr ⟨now, rfl⟩
  | sample here =>
    simp only [State.goto, Function.update_self, Pc.generation, Option.some.injEq] at now
    exact .inl ⟨now.symm, by simp [State.goto, State.shown, Pc.phase, State.pending]⟩
  | savedByTask here | clear here =>
    simp only [State.goto, Function.update_self, Pc.generation, Option.some.injEq] at now
    exact .inr ⟨by rw [here, Pc.generation, now], by
      simp [State.goto, State.shown, Pc.phase, State.pending, here]⟩
  | agree here same =>
    simp only [State.goto, Function.update_self, Pc.generation, Option.some.injEq] at now
    exact .inr ⟨by rw [here, Pc.generation, now], by simp [State.goto, State.shown, Pc.phase, here]⟩
  | readKeys saves here | readService saves here | write saves here =>
    cases saves <;> simp only [State.goto, Function.update_self, Pc.generation, Option.some.injEq, reduceCtorEq] at now
    exact .inr ⟨by rw [here, Pc.generation, now], by
      simp [State.goto, State.shown, Pc.phase, State.pending, here]⟩
  | lock saves here free =>
    cases saves <;> simp only [State.goto, Function.update_self, Pc.generation, Option.some.injEq, reduceCtorEq] at now
    exact .inr ⟨by rw [here, Pc.generation, now], by
      simp [State.goto, State.shown, Pc.phase, State.pending, here]⟩
  | spawn here => cases a <;> simp [State.goto, Actor.spawned, Pc.generation] at now
  | _ => simp [State.goto, Pc.generation] at now

theorem move_stamps (move : Move s a t) (now : (t.pc b).stamp = some n) :
    (s.pc b).stamp = some n ∨ s.dirtyGeneration < n := by
  rcases eq_or_ne b a with rfl | other
  · rcases move_stamp move now with here | ⟨-, rfl, -⟩
    · exact .inl here
    · exact .inr (Nat.lt_succ_self _)
  · rcases move_frame move other with still | slept
    · exact .inl (still ▸ now)
    · simp [slept, Pc.stamp] at now

theorem move_promised (move : Move s a t) (growing : Growing s) (applied : Applied s) (before : Promised s) :
    Promised t := by
  have ledger := move_ledger move
  have dirty := move_dirty move
  have file := growing.move_file move
  intro c g now
  -- either the sample is of this move, or it is an old one that still shows as much
  have origin : g = s.dirtyGeneration ∧ t.shown (t.pc c) = s.ledger ∨
      (s.pc c).generation = some g ∧ s.shown (s.pc c) ≤ t.shown (t.pc c) := by
    rcases eq_or_ne c a with rfl | other
    · rcases move_generation move now with sampled | ⟨here, same⟩
      · exact .inl sampled
      · exact .inr ⟨here, same ▸ le_refl _⟩
    · rcases move_frame move other with still | slept
      · exact .inr ⟨still ▸ now, still ▸ shown_mono file ledger (s.pc c)⟩
      · simp [slept, Pc.generation] at now
  rcases origin with ⟨rfl, shows⟩ | ⟨here, grown⟩
  · refine ⟨dirty, ?_⟩
    intro b n stamped covered
    rcases move_stamps move stamped with was | new
    · exact shows ▸ (applied.stamped b n was).1
    · omega
  · obtain ⟨low, contains⟩ := before c g here
    refine ⟨Nat.le_trans low dirty, ?_⟩
    intro b n stamped covered
    rcases move_stamps move stamped with was | new
    · exact (contains b n was covered).mono grown
    · omega

theorem Promised.saved {g : Nat} (promised : Promised s) (here : (s.pc a).generation = some g)
    (outside : (s.pc a).phase = none) (was : s.pc b = .marked n) (soon : n ≤ g) : s.file.has b := by
  have shown := (promised a g here).2 b n (by simp [was, Pc.stamp]) soon
  simpa [State.shown, outside] using shown

/-! ### Nothing is lost -/

/-- The two looks at the generation and the flag after the task has cleared it. -/
def Pc.checking : Pc → Bool
  | .reloading _ | .reclaiming => true
  | _ => false

/-- A settlement that has returned is in the file, or a task will save it, or a task that
has cleared the flag is still bound to notice it. -/
def Covered (s : State) : Prop :=
  ∀ b n, s.pc b = .marked n → s.file.has b ∨ s.persistScheduled = true ∨
    (∃ c g, s.pc c = .reloading g ∧ g < n) ∨ ∃ c, s.pc c = .reclaiming

theorem Covered.goto {next : Pc} (before : Covered s) (pcs : t.pc = s.pc) (file : s.file ≤ t.file)
    (flag : t.persistScheduled = s.persistScheduled) (away : (s.pc a).checking = false)
    (unmarked : ∀ n, next ≠ .marked n) : Covered (t.goto a next) := by
  have others : ∀ c, c ≠ a → (t.goto a next).pc c = s.pc c := by
    intro c other
    simp [State.goto, other, pcs]
  have elsewhere : ∀ c, (s.pc c).checking = true → c ≠ a := by
    rintro c checking rfl
    simp [checking] at away
  intro b n now
  have other : b ≠ a := by
    rintro rfl
    exact unmarked n (by simpa [State.goto] using now)
  rcases before b n (others b other ▸ now) with inside | up | ⟨c, g, here, late⟩ | ⟨c, here⟩
  · exact .inl (inside.mono file)
  · exact .inr (.inl (flag.trans up))
  · have apart := elsewhere c (by simp [here, Pc.checking])
    exact .inr (.inr (.inl ⟨c, g, by rw [others c apart, here], late⟩))
  · have apart := elsewhere c (by simp [here, Pc.checking])
    exact .inr (.inr (.inr ⟨c, by rw [others c apart, here]⟩))

theorem Covered.of_flag (up : t.persistScheduled = true) : Covered t :=
  fun _ _ _ => .inr (.inl up)

theorem move_covered (move : Move s a t) (scheduled : Held Pc.owns s.pc s.persistScheduled) (growing : Growing s)
    (applied : Applied s) (promised : Promised s) (before : Covered s) : Covered t := by
  have file := growing.move_file move
  cases move with
  | stay => exact before
  | leave here taken => exact .of_flag taken
  | yield here taken => exact .of_flag taken
  | claim here free | reclaim here free => exact .of_flag rfl
  | spawn here => exact .of_flag (scheduled.set a (by simp [here, Pc.owns]))
  | @clear g here =>
    intro b n now
    have other : b ≠ a := by
      rintro rfl
      simp [State.goto] at now
    have was : s.pc b = .marked n := by simpa [State.goto, other] using now
    rcases Nat.lt_or_ge g n with late | soon
    · exact .inr (.inr (.inl ⟨a, g, by simp [State.goto], late⟩))
    · exact .inl (promised.saved (a := a) (by simp [here, Pc.generation]) (by simp [here, Pc.phase]) was soon)
  | missed here moved => exact fun _ _ _ => .inr (.inr (.inr ⟨a, by simp [State.goto]⟩))
  | @finish g here same =>
    intro b n now
    have other : b ≠ a := by
      rintro rfl
      simp [State.goto] at now
    have was : s.pc b = .marked n := by simpa [State.goto, other] using now
    -- no generation was missed, so the sampled one is that of the last settlement
    have soon : n ≤ g := same ▸ (applied.stamped b n (by simp [was, Pc.stamp])).2
    exact .inl (promised.saved (a := a) (by simp [here, Pc.generation]) (by simp [here, Pc.phase]) was soon)
  | settleService here | settleKey here | persistNow here | bump here | sample here | saved here
  | savedByTask here =>
    exact before.goto rfl file rfl (by simp [here, Pc.checking]) (by simp)
  | again here guard | agree here guard =>
    exact before.goto rfl file rfl (by simp [here, Pc.checking]) (by simp)
  | readKeys saves here | readService saves here | write saves here =>
    cases saves <;> exact before.goto rfl file rfl (by simp [here, Pc.checking]) (by simp)
  | lock saves here free =>
    cases saves <;> exact before.goto rfl file rfl (by simp [here, Pc.checking]) (by simp)

structure Inv (s : State) : Prop where
  spawned : Spawned s
  scheduled : Held Pc.owns s.pc s.persistScheduled
  locked : Held Pc.locks s.pc s.persistLock
  growing : Growing s
  applied : Applied s
  promised : Promised s
  covered : Covered s

theorem initial_inv : Inv initial := by
  have idle : ∀ a, initial.pc a = .idle ∨ initial.pc a = .absent := by
    intro a
    cases a with
    | caller i => exact .inl rfl
    | task i => exact .inr rfl
  have free : ∀ (holds : Pc → Bool), holds .idle = false → holds .absent = false → Held holds initial.pc false := by
    intro holds atIdle atAbsent
    have none : ∀ a, holds (initial.pc a) = false := by
      intro a
      rcases idle a with here | here <;> simp [here, atIdle, atAbsent]
    exact ⟨by simp, by simp [none], by simp [none]⟩
  constructor
  · exact ⟨fun i => rfl, fun i _ => rfl⟩
  · exact free Pc.owns rfl rfl
  · exact free Pc.locks rfl rfl
  · refine ⟨le_refl _, ?_⟩
    intro a phase now
    rcases idle a with here | here <;> simp [here, Pc.phase] at now
  · refine ⟨?_, ?_, ?_⟩
    · intro b now
      rcases idle b with here | here <;> simp [here] at now
    · intro b now
      rcases idle b with here | here <;> simp [here] at now
    · intro b n now
      rcases idle b with here | here <;> simp [here, Pc.stamp] at now
  · intro a g now
    rcases idle a with here | here <;> simp [here, Pc.generation] at now
  · intro b n now
    rcases idle b with here | here <;> simp [here] at now

theorem step_inv (s : State) (action : Actor × Bool) (before : Inv s) : Inv (step s action) := by
  obtain ⟨a, durable⟩ := action
  have move := step_move s a durable
  exact ⟨move_spawned move before.spawned, move_scheduled move before.scheduled,
    move_locked move before.spawned before.locked, move_growing move before.locked before.growing,
    move_applied move before.applied, move_promised move before.growing before.applied before.promised,
    move_covered move before.scheduled before.growing before.applied before.promised before.covered⟩

/-- `mark_dirty` between its first and its last operation. -/
def Pc.marking : Pc → Bool
  | .claiming _ | .spawning _ => true
  | _ => false

def Pc.looping : Pc → Bool
  | .sleeping | .saving _ _ | .rechecking _ | .clearing _ | .reloading _ | .reclaiming => true
  | _ => false

/-- However the settlements and the background tasks interleave: once no task is running and
no settlement is inside `mark_dirty`, the flag is down and the file contains every settlement
whose `mark_dirty` has returned. -/
theorem quiescent_persisted (actions : List (Actor × Bool))
    (settled : ∀ a, ((run step initial actions).pc a).marking = false)
    (stopped : ∀ a, ((run step initial actions).pc a).looping = false) :
    (run step initial actions).persistScheduled = false ∧
      ∀ b n, (run step initial actions).pc b = .marked n → (run step initial actions).file.has b := by
  have inv : Inv (run step initial actions) := run_always step_inv actions initial_inv
  generalize run step initial actions = s at *
  have down : s.persistScheduled = false := by
    by_contra up
    obtain ⟨a, owning⟩ := inv.scheduled.held (by simpa using up)
    have first := settled a
    have second := stopped a
    cases here : s.pc a <;> simp_all [Pc.owns, Pc.marking, Pc.looping]
  refine ⟨down, ?_⟩
  intro b n now
  rcases inv.covered b n now with inside | up | ⟨c, g, here, -⟩ | ⟨c, here⟩
  · exact inside
  · simp [down] at up
  · have := stopped c
    simp [here, Pc.looping] at this
  · have := stopped c
    simp [here, Pc.looping] at this

/-- Two settlements; the second marks the meter dirty while the task of the first has already
cleared the flag, and the task takes the flag back. -/
def overlap : List (Actor × Bool) :=
  List.replicate 5 (.caller 0, false) ++ List.replicate 8 (.task 0, false) ++
    List.replicate 3 (.caller 1, false) ++ List.replicate 2 (.task 0, false) ++ [(.caller 1, false)] ++
    List.replicate 9 (.task 0, false)

theorem quiescent_persisted_overlap :
    (run step initial overlap).persistScheduled = false ∧ (run step initial overlap).pc (.caller 1) = .marked 2 ∧
      (run step initial overlap).file.has (.caller 1) := by
  have quiet : ∀ a, ((run step initial overlap).pc a).marking = false ∧
      ((run step initial overlap).pc a).looping = false := by
    intro a
    match a with
    | .caller 0 => exact ⟨rfl, rfl⟩
    | .caller 1 => exact ⟨rfl, rfl⟩
    | .caller (i + 2) => exact ⟨rfl, rfl⟩
    | .task 0 => exact ⟨rfl, rfl⟩
    | .task (i + 1) => exact ⟨rfl, rfl⟩
  obtain ⟨down, saved⟩ := quiescent_persisted overlap (fun a => (quiet a).1) (fun a => (quiet a).2)
  exact ⟨down, rfl, saved (.caller 1) 2 rfl⟩

end KiroProxy.Persistence

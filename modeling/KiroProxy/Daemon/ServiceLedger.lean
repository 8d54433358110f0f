import KiroProxy.Daemon.Meter
import KiroProxy.Lib.Indexed
import KiroProxy.Lib.Run
import Mathlib.Algebra.Order.BigOperators.Group.List
import Mathlib.Tactic.Linarith
import Mathlib.Tactic.NormNum

/-! The service ledger over whole runs. Every section that raises the reserved amount
leaves the same amount with a reservation or a call, so no subtraction is ever clamped. -/
namespace KiroProxy.Metering

open Run (run Along)

def Call.serviceHeld : Call → Rat
  | .reserveKey _ estimate => estimate
  | .reserveUndo estimate => estimate
  | .extendKey reservation additional => reservation.estimate + additional
  | .extendUndo reservation additional => reservation.estimate + additional
  | .settleKey _ _ => 0
  | .dropKey _ => 0

def Call.NonNeg : Call → Prop
  | .reserveKey _ estimate => 0 ≤ estimate
  | .reserveUndo estimate => 0 ≤ estimate
  | .extendKey reservation additional => 0 ≤ reservation.estimate ∧ 0 ≤ additional
  | .extendUndo reservation additional => 0 ≤ reservation.estimate ∧ 0 ≤ additional
  | .settleKey reservation _ => 0 ≤ reservation.estimate
  | .dropKey reservation => 0 ≤ reservation.estimate

theorem Call.serviceHeld_nonneg {call : Call} (nonneg : call.NonNeg) : 0 ≤ call.serviceHeld := by
  cases call with
  | reserveKey keyId estimate => exact nonneg
  | reserveUndo estimate => exact nonneg
  | extendKey reservation additional => exact add_nonneg nonneg.1 nonneg.2
  | extendUndo reservation additional => exact add_nonneg nonneg.1 nonneg.2
  | settleKey reservation record => exact le_refl 0
  | dropKey reservation => exact le_refl 0

def System.serviceHeld (s : System) : Rat :=
  (s.reservations.map (·.estimate)).sum + (s.calls.map Call.serviceHeld).sum

/- Between two changes of one step the ledger may hold an amount that is not yet, or no
longer, with a reservation or a call; at the end of every step this amount is zero. -/
structure Holds (s : System) (extra : Rat) : Prop where
  reserved : s.meter.service.reserved = s.serviceHeld + extra
  used : 0 ≤ s.meter.service.used
  estimates : ∀ r ∈ s.reservations, 0 ≤ r.estimate
  amounts : ∀ call ∈ s.calls, call.NonNeg

/-! ### What is held after each change of the system -/

section Held

variable (s : System)

@[simp] theorem serviceHeld_withService (service : ServiceCreditState) :
    (s.withService service).serviceHeld = s.serviceHeld := rfl

theorem serviceHeld_begin (call : Call) :
    (s.begin call).serviceHeld = s.serviceHeld + call.serviceHeld := by
  simp [System.serviceHeld, System.begin, add_assoc]

theorem serviceHeld_returns (reservation : CreditReservation) :
    (s.returns reservation).serviceHeld = s.serviceHeld + reservation.estimate := by
  simp only [System.serviceHeld, System.returns, List.map_append, List.sum_append, List.map_cons,
    List.map_nil, List.sum_singleton]
  linarith

theorem serviceHeld_take {n : Nat} {reservation : CreditReservation}
    (place : s.reservations[n]? = some reservation) :
    ({ s with reservations := s.reservations.eraseIdx n } : System).serviceHeld =
      s.serviceHeld - reservation.estimate := by
  have taken := Indexed.sum_eraseIdx s.reservations (·.estimate) place
  simp only [System.serviceHeld]
  linarith

theorem serviceHeld_advance {n : Nat} {call : Call} (place : s.calls[n]? = some call) :
    ({ s with calls := s.calls.eraseIdx n } : System).serviceHeld =
      s.serviceHeld - call.serviceHeld := by
  have taken := Indexed.sum_eraseIdx s.calls Call.serviceHeld place
  simp only [System.serviceHeld]
  linarith

end Held

/-! ### The sections that touch the service ledger -/

section Sections

variable (today : String) (service : ServiceCreditState)

@[simp] theorem resetDay_reserved :
    (resetServiceDayIfNeeded today service).reserved = service.reserved := by
  unfold resetServiceDayIfNeeded
  split <;> rfl

@[simp] theorem resetDay_limit :
    (resetServiceDayIfNeeded today service).limit = service.limit := by
  unfold resetServiceDayIfNeeded
  split <;> rfl

theorem resetDay_used (used : 0 ≤ service.used) :
    0 ≤ (resetServiceDayIfNeeded today service).used ∧
      (resetServiceDayIfNeeded today service).used ≤ service.used := by
  unfold resetServiceDayIfNeeded
  split
  · exact ⟨le_refl 0, used⟩
  · exact ⟨used, le_refl _⟩

theorem holdService_cases (amount : Rat) :
    (holdService today amount service =
        (resetServiceDayIfNeeded today service, .error .dailyLimitExceeded)) ∨
      (holdService today amount service =
          ({ resetServiceDayIfNeeded today service with
              reserved := service.reserved + amount }, .ok ()) ∧
        (0 < service.limit → (resetServiceDayIfNeeded today service).used + service.reserved +
          amount ≤ service.limit)) := by
  unfold holdService
  simp only [resetDay_reserved, resetDay_limit]
  split
  · exact .inl rfl
  · rename_i fits
    refine .inr ⟨rfl, ?_⟩
    intro limited
    exact le_of_not_gt (fun above => fits ⟨limited, above⟩)

theorem releaseService_reserved (amount : Rat) (held : amount ≤ service.reserved) :
    (releaseService amount service).reserved = service.reserved - amount := by
  rw [releaseService]
  exact max_eq_left (sub_nonneg.mpr held)

end Sections

/-! ### What the first section of each call can do -/

section Inversion

variable (s : System)

/-- The system after a refused or accepted hold of the service ledger. -/
def System.dayReset (s : System) : System :=
  s.withService (resetServiceDayIfNeeded s.today s.meter.service)

def System.hold (s : System) (amount : Rat) : System :=
  s.withService { resetServiceDayIfNeeded s.today s.meter.service with
    reserved := s.meter.service.reserved + amount }

def System.Fits (s : System) (amount : Rat) : Prop :=
  0 < s.meter.service.limit → (resetServiceDayIfNeeded s.today s.meter.service).used +
    s.meter.service.reserved + amount ≤ s.meter.service.limit

theorem reserve_cases (keyId : Option String) (estimate : Rat) :
    reserve s keyId estimate = s ∨ reserve s keyId estimate = s.dayReset ∨
      (reserve s keyId estimate =
          (s.hold (max estimate 0)).begin (.reserveKey keyId (max estimate 0)) ∧
        s.Fits (max estimate 0)) := by
  unfold reserve
  by_cases recovering : s.meter.recoveryError.isSome = true
  · exact .inl (if_pos recovering)
  · rw [if_neg recovering]
    simp only
    rcases holdService_cases s.today s.meter.service (max estimate 0) with refused | ⟨held, fits⟩
    · rw [refused]
      exact .inr (.inl rfl)
    · rw [held]
      exact .inr (.inr ⟨rfl, fits⟩)

theorem extend_cases (n : Nat) (additional : Rat) :
    extend s n additional = s ∨ extend s n additional = s.dayReset ∨
      ∃ reservation, s.reservations[n]? = some reservation ∧
        extend s n additional =
          (System.hold { s with reservations := s.reservations.eraseIdx n } (max additional 0)).begin
            (.extendKey reservation (max additional 0)) ∧
        s.Fits (max additional 0) := by
  unfold extend
  cases place : s.reservations[n]? with
  | none => exact .inl rfl
  | some reservation =>
    simp only
    by_cases nothing : max additional 0 = 0
    · exact .inl (if_pos nothing)
    · rw [if_neg nothing]
      rcases holdService_cases s.today s.meter.service (max additional 0) with refused | ⟨held, fits⟩
      · rw [refused]
        exact .inr (.inl rfl)
      · rw [held]
        exact .inr (.inr ⟨reservation, rfl, rfl, fits⟩)

end Inversion

/-! ### One change at a time -/

section Changes

variable {s : System} {extra : Rat} (holds : Holds s extra)

include holds

theorem holds_nonneg : 0 ≤ s.serviceHeld := by
  apply add_nonneg
  · apply List.sum_nonneg
    intro x member
    obtain ⟨r, inside, rfl⟩ := List.mem_map.mp member
    exact holds.estimates r inside
  · apply List.sum_nonneg
    intro x member
    obtain ⟨call, inside, rfl⟩ := List.mem_map.mp member
    exact Call.serviceHeld_nonneg (holds.amounts call inside)

theorem holds_take {n : Nat} {reservation : CreditReservation}
    (place : s.reservations[n]? = some reservation) :
    Holds { s with reservations := s.reservations.eraseIdx n } (extra + reservation.estimate) ∧
      0 ≤ reservation.estimate := by
  refine ⟨⟨?_, holds.used, ?_, holds.amounts⟩, holds.estimates _ (List.mem_of_getElem? place)⟩
  · rw [serviceHeld_take s place, holds.reserved]
    linarith
  · exact fun r member => holds.estimates r (List.mem_of_mem_eraseIdx member)

theorem holds_takeCall {n : Nat} {call : Call} (place : s.calls[n]? = some call) :
    Holds { s with calls := s.calls.eraseIdx n } (extra + call.serviceHeld) ∧ call.NonNeg := by
  refine ⟨⟨?_, holds.used, holds.estimates, ?_⟩, holds.amounts _ (List.mem_of_getElem? place)⟩
  · rw [serviceHeld_advance s place, holds.reserved]
    linarith
  · exact fun c member => holds.amounts c (List.mem_of_mem_eraseIdx member)

theorem holds_dayReset : Holds s.dayReset extra :=
  ⟨(resetDay_reserved s.today s.meter.service).trans holds.reserved,
    (resetDay_used s.today s.meter.service holds.used).1, holds.estimates, holds.amounts⟩

theorem holds_hold (amount : Rat) : Holds (s.hold amount) (extra + amount) := by
  refine ⟨?_, (resetDay_used s.today s.meter.service holds.used).1, holds.estimates, holds.amounts⟩
  rw [System.hold, serviceHeld_withService, ← add_assoc, ← holds.reserved]
  rfl

theorem holds_withKeys (keys : Usage.Named KeyState) : Holds (s.withKeys keys) extra :=
  ⟨holds.reserved, holds.used, holds.estimates, holds.amounts⟩

theorem holds_begin {rest : Rat} {call : Call} (same : extra = rest + call.serviceHeld)
    (proper : call.NonNeg) : Holds (s.begin call) rest := by
  refine ⟨?_, holds.used, holds.estimates, ?_⟩
  · rw [serviceHeld_begin]
    have reserved := holds.reserved
    simp only [System.begin]
    linarith
  · intro c member
    rcases List.mem_append.mp member with old | new
    · exact holds.amounts c old
    · rw [List.mem_singleton.mp new]
      exact proper

theorem holds_returns {rest : Rat} {reservation : CreditReservation}
    (same : extra = rest + reservation.estimate) (proper : 0 ≤ reservation.estimate) :
    Holds (s.returns reservation) rest := by
  refine ⟨?_, holds.used, ?_, holds.amounts⟩
  · rw [serviceHeld_returns]
    have reserved := holds.reserved
    simp only [System.returns]
    linarith
  · intro r member
    rcases List.mem_append.mp member with old | new
    · exact holds.estimates r old
    · rw [List.mem_singleton.mp new]
      exact proper

theorem holds_release {rest amount : Rat} (same : extra = rest + amount) (proper : 0 ≤ rest) :
    Holds (s.withService (releaseService amount s.meter.service)) rest := by
  have nonneg := holds_nonneg holds
  have reserved := holds.reserved
  have lowered := releaseService_reserved s.meter.service amount (by linarith)
  refine ⟨lowered.trans ?_, holds.used, holds.estimates, holds.amounts⟩
  rw [serviceHeld_withService]
  linarith

theorem holds_settle {rest estimate : Rat} (same : extra = rest + estimate) (proper : 0 ≤ rest)
    (credits : Rat) :
    Holds (s.withService (settleService s.today estimate credits s.meter.service)) rest := by
  have released := holds_release (holds_dayReset holds) same proper
  exact ⟨released.reserved, add_nonneg released.used (le_max_right _ _), holds.estimates,
    holds.amounts⟩

end Changes

/-! ### Every action keeps the ledger exact -/

/-- No clamp can hide an amount: the ledger reserves exactly what is held. -/
def ServiceSound (s : System) : Prop := Holds s 0

section Steps

variable {s : System} (sound : ServiceSound s)

include sound

theorem reserve_sound (keyId : Option String) (estimate : Rat) :
    ServiceSound (reserve s keyId estimate) := by
  rcases reserve_cases s keyId estimate with same | refused | ⟨held, _⟩
  · rw [same]
    exact sound
  · rw [refused]
    exact holds_dayReset sound
  · rw [held]
    exact holds_begin (holds_hold sound _) rfl (le_max_right _ _)

theorem extend_sound (n : Nat) (additional : Rat) : ServiceSound (extend s n additional) := by
  rcases extend_cases s n additional with same | refused | ⟨reservation, place, held, _⟩
  · rw [same]
    exact sound
  · rw [refused]
    exact holds_dayReset sound
  · rw [held]
    obtain ⟨taken, nonneg⟩ := holds_take sound place
    exact holds_begin (holds_hold taken _) (add_assoc _ _ _) ⟨nonneg, le_max_right _ _⟩

theorem settle_sound (n : Nat) (record : Usage.UsageRecord) : ServiceSound (settle s n record) := by
  unfold settle
  cases place : s.reservations[n]? with
  | none => exact sound
  | some reservation =>
    obtain ⟨taken, nonneg⟩ := holds_take sound place
    exact holds_begin (holds_settle taken rfl (le_refl 0) record.credits) (add_zero 0).symm nonneg

theorem dropReservation_sound (n : Nat) : ServiceSound (dropReservation s n) := by
  unfold dropReservation
  cases place : s.reservations[n]? with
  | none => exact sound
  | some reservation =>
    obtain ⟨taken, nonneg⟩ := holds_take sound place
    exact holds_begin (holds_release taken rfl (le_refl 0)) (add_zero 0).symm nonneg

theorem advance_sound (n : Nat) : ServiceSound (advance s n) := by
  unfold advance
  cases place : s.calls[n]? with
  | none => exact sound
  | some call =>
    obtain ⟨taken, proper⟩ := holds_takeCall sound place
    cases call with
    | reserveKey keyId estimate =>
      cases keyId with
      | none => exact holds_returns taken rfl proper
      | some id =>
        simp only [nextSection]
        split
        · exact holds_begin taken rfl proper
        · exact holds_returns (holds_withKeys taken _) rfl proper
    | reserveUndo estimate => exact holds_release taken rfl (le_refl 0)
    | extendKey reservation additional =>
      have grown := add_nonneg proper.1 proper.2
      simp only [nextSection]
      split
      · exact holds_returns taken rfl grown
      · split
        · exact holds_begin taken rfl proper
        · exact holds_returns (holds_withKeys taken _) rfl grown
    | extendUndo reservation additional =>
      have owed : (0 : Rat) + (reservation.estimate + additional) =
          (0 + reservation.estimate) + additional := by linarith
      exact holds_returns (holds_release taken owed (by linarith [proper.1])) rfl proper.1
    | settleKey reservation record =>
      rw [Call.serviceHeld, add_zero] at taken
      exact holds_withKeys taken _
    | dropKey reservation =>
      rw [Call.serviceHeld, add_zero] at taken
      exact holds_withKeys taken _

theorem step_sound (digest : String → List UInt8) (action : Action) :
    ServiceSound (step digest s action) := by
  cases action with
  | reserve keyId estimate => exact reserve_sound sound keyId estimate
  | extend n additional => exact extend_sound sound n additional
  | settle n record => exact settle_sound sound n record
  | drop n => exact dropReservation_sound sound n
  | advance n => exact advance_sound sound n
  | setDailyLimit limit => exact ⟨sound.reserved, sound.used, sound.estimates, sound.amounts⟩
  | resetDaily => exact ⟨sound.reserved, le_refl 0, sound.estimates, sound.amounts⟩
  | resetUsage idOrName found => exact holds_withKeys sound _
  | replaceConfigs configs => exact holds_withKeys sound _
  | newDay day => exact ⟨sound.reserved, sound.used, sound.estimates, sound.amounts⟩

end Steps

theorem start_sound (digest : String → List UInt8) (orders : String → Usage.Orders) (today : String)
    (persisted : Persisted) (configs : List ApiKeyConfig) :
    ServiceSound (start digest orders today persisted configs) := by
  refine ⟨?_, ?_, ?_, ?_⟩
  · simp [System.serviceHeld, start, load]
  · simp only [start, load]
    split
    · exact le_max_right _ _
    · exact le_refl 0
  · intro r member
    cases member
  · intro call member
    cases member

theorem run_sound (digest : String → List UInt8) {s : System} (sound : ServiceSound s)
    (actions : List Action) : ServiceSound (run (step digest) s actions) :=
  Run.run_always (P := ServiceSound) (fun _ action kept => step_sound kept digest action) actions sound

/-! ### The daily limit -/

def ChargesWithin (s : System) : Action → Prop
  | .settle n record => ∀ reservation, s.reservations[n]? = some reservation →
      0 ≤ record.credits ∧ record.credits ≤ reservation.estimate
  | _ => True

def System.committed (s : System) : Rat := s.meter.service.used + s.meter.service.reserved

theorem hold_committed {s : System} {amount : Rat} (fits : s.Fits amount) (limited : 0 < s.meter.service.limit) :
    (s.hold amount).committed ≤ s.meter.service.limit := by
  have bound := fits limited
  simp only [System.committed, System.hold, System.withService]
  linarith

section Limit

variable {s : System} (sound : ServiceSound s)

include sound

theorem dayReset_committed : s.dayReset.committed ≤ s.committed := by
  have day := resetDay_used s.today s.meter.service sound.used
  have reserved := resetDay_reserved s.today s.meter.service
  simp only [System.committed, System.dayReset, System.withService, reserved]
  linarith [day.2]

theorem release_committed {amount : Rat} (proper : 0 ≤ amount) :
    (s.withService (releaseService amount s.meter.service)).committed ≤ s.committed := by
  have nonneg := holds_nonneg sound
  have reserved := sound.reserved
  simp only [System.committed, System.withService, releaseService]
  have lowered : max (s.meter.service.reserved - amount) 0 ≤ s.meter.service.reserved :=
    max_le (by linarith) (by linarith)
  linarith

theorem settle_committed {n : Nat} {record : Usage.UsageRecord} {reservation : CreditReservation}
    (place : s.reservations[n]? = some reservation) (charge : record.credits ≤ reservation.estimate)
    (positive : 0 ≤ record.credits) : (settle s n record).committed ≤ s.committed := by
  obtain ⟨taken, nonneg⟩ := holds_take sound place
  have day := resetDay_used s.today s.meter.service sound.used
  have rest := holds_nonneg taken
  have reserved := taken.reserved
  have lowered := releaseService_reserved (resetServiceDayIfNeeded s.today s.meter.service)
    reservation.estimate (by rw [resetDay_reserved]; linarith)
  rw [resetDay_reserved] at lowered
  have charged : max record.credits 0 = record.credits := max_eq_left positive
  have spent : (settle s n record).committed =
      (resetServiceDayIfNeeded s.today s.meter.service).used + max record.credits 0 +
        (releaseService reservation.estimate
          (resetServiceDayIfNeeded s.today s.meter.service)).reserved := by
    simp only [settle, place]
    rfl
  rw [spent, lowered, charged, System.committed]
  linarith [day.2]

theorem advance_committed (n : Nat) : (advance s n).committed ≤ s.committed := by
  unfold advance
  cases place : s.calls[n]? with
  | none => exact le_refl _
  | some call =>
    have proper := sound.amounts call (List.mem_of_getElem? place)
    cases call with
    | reserveKey keyId estimate =>
      cases keyId with
      | none => exact le_refl _
      | some id =>
        simp only [nextSection]
        split <;> exact le_refl _
    | reserveUndo estimate => exact release_committed sound proper
    | extendKey reservation additional =>
      simp only [nextSection]
      split
      · exact le_refl _
      · split <;> exact le_refl _
    | extendUndo reservation additional => exact release_committed sound proper.2
    | settleKey reservation record => exact le_refl _
    | dropKey reservation => exact le_refl _

theorem step_committed (digest : String → List UInt8) {action : Action}
    (charges : ChargesWithin s action) (limited : 0 < s.meter.service.limit)
    (under : s.committed ≤ s.meter.service.limit) :
    (step digest s action).committed ≤ s.meter.service.limit := by
  cases action with
  | reserve keyId estimate =>
    rcases reserve_cases s keyId estimate with same | refused | ⟨held, fits⟩
    · rw [step, same]
      exact under
    · rw [step, refused]
      exact (dayReset_committed sound).trans under
    · rw [step, held]
      exact hold_committed fits limited
  | extend n additional =>
    rcases extend_cases s n additional with same | refused | ⟨reservation, place, held, fits⟩
    · rw [step, same]
      exact under
    · rw [step, refused]
      exact (dayReset_committed sound).trans under
    · rw [step, held]
      exact hold_committed fits limited
  | settle n record =>
    cases place : s.reservations[n]? with
    | none =>
      simp only [step, settle, place]
      exact under
    | some reservation =>
      obtain ⟨positive, charge⟩ := charges reservation place
      exact (settle_committed sound place charge positive).trans under
  | drop n =>
    cases place : s.reservations[n]? with
    | none =>
      simp only [step, dropReservation, place]
      exact under
    | some reservation =>
      have released := release_committed sound (sound.estimates _ (List.mem_of_getElem? place))
      simp only [step, dropReservation, place]
      exact released.trans under
  | advance n => exact (advance_committed sound n).trans under
  | setDailyLimit limit => exact under
  | resetDaily =>
    have positive := sound.used
    simp only [System.committed] at under
    simp only [step, System.committed, System.withService, resetDaily]
    linarith
  | resetUsage idOrName found => exact under
  | replaceConfigs configs => exact under
  | newDay day => exact under

end Limit

/-- The limit is the same after the action, and a settled charge stays within its estimate. -/
def KeepsLimit (digest : String → List UInt8) (limit : Rat) (s : System) (action : Action) : Prop :=
  (step digest s action).meter.service.limit = limit ∧ ChargesWithin s action

theorem run_committed (digest : String → List UInt8) {s : System} {limit : Rat}
    (sound : ServiceSound s) (positive : 0 < limit) (limited : s.meter.service.limit = limit)
    (under : s.committed ≤ limit) {actions : List Action}
    (along : Along (step digest) (KeepsLimit digest limit) s actions) :
    (run (step digest) s actions).committed ≤ limit := by
  have kept := Run.run_keeps (P := fun s => ServiceSound s ∧ s.meter.service.limit = limit ∧
      s.committed ≤ limit)
    (fun s action before ok => by
      obtain ⟨sound, limited, under⟩ := before
      refine ⟨step_sound sound digest action, ok.1, ?_⟩
      have bound := step_committed sound digest ok.2 (limited ▸ positive) (limited ▸ under)
      rwa [limited] at bound)
    along ⟨sound, limited, under⟩
  exact kept.2.2

def Call.extending : Call → Option CreditReservation
  | .extendKey reservation _ => some reservation
  | .extendUndo reservation _ => some reservation
  | _ => none

def System.openReservations (s : System) : List CreditReservation :=
  s.reservations ++ s.calls.filterMap Call.extending

/-- Capacity that a reserve or an extend under way has taken and not yet handed over. -/
def Call.pending : Call → Rat
  | .reserveKey _ estimate => estimate
  | .reserveUndo estimate => estimate
  | .extendKey _ additional => additional
  | .extendUndo _ additional => additional
  | .settleKey _ _ => 0
  | .dropKey _ => 0

theorem serviceHeld_open (s : System) : s.serviceHeld =
    (s.openReservations.map (·.estimate)).sum + (s.calls.map Call.pending).sum := by
  have calls : ∀ calls : List Call, (calls.map Call.serviceHeld).sum =
      ((calls.filterMap Call.extending).map (·.estimate)).sum + (calls.map Call.pending).sum := by
    intro calls
    induction calls with
    | nil => simp
    | cons call rest ih =>
      cases call <;> simp [Call.serviceHeld, Call.pending, Call.extending, List.filterMap_cons, ih] <;> linarith
  rw [System.serviceHeld, calls, System.openReservations, List.map_append, List.sum_append, add_assoc]

/-- In every run of a loaded meter the service ledger reserves the estimates of the open
reservations and what calls under way have taken. From the moment on at which usage and
reservations are within a positive limit, they stay within it while it is the limit. -/
theorem service_ledger_exact (digest : String → List UInt8) (orders : String → Usage.Orders)
    (today : String) (persisted : Persisted) (configs : List ApiKeyConfig) (actions : List Action) :
    let s := run (step digest) (start digest orders today persisted configs) actions
    (s.meter.service.reserved =
        (s.openReservations.map (·.estimate)).sum + (s.calls.map Call.pending).sum) ∧
      (s.calls = [] → s.meter.service.reserved = (s.reservations.map (·.estimate)).sum) ∧
      ∀ limit more, 0 < limit → s.meter.service.limit = limit → s.committed ≤ limit →
        Along (step digest) (KeepsLimit digest limit) s more →
        (run (step digest) s more).committed ≤ limit := by
  intro s
  have sound : ServiceSound s :=
    run_sound digest (start_sound digest orders today persisted configs) actions
  have exactly := sound.reserved
  rw [add_zero] at exactly
  refine ⟨exactly.trans (serviceHeld_open s), ?_, ?_⟩
  · intro quiet
    rw [exactly, System.serviceHeld, quiet]
    simp
  · intro limit more positive limited under along
    exact run_committed digest sound positive limited under along

/-- A meter loaded on a day on which `used` credits are already spent, without API keys. -/
noncomputable def loadedWith (used : Rat) : System :=
  start (fun _ => []) default "2026-01-01" { serviceDaily := ⟨"2026-01-01", used⟩ } []

theorem service_ledger_exact_reserved :
    (run (step fun _ => []) (loadedWith 2) [.setDailyLimit 5, .reserve none 3]).committed ≤ 5 := by
  have ledger := service_ledger_exact (fun _ => []) default "2026-01-01"
    { serviceDaily := ⟨"2026-01-01", 2⟩ } [] [.setDailyLimit 5]
  refine ledger.2.2 5 [.reserve none 3] (by norm_num) ?_ ?_ ⟨⟨?_, trivial⟩, trivial⟩
  · simp [step, System.withService, setDailyLimit]
  · norm_num [step, System.withService, setDailyLimit, start, load, System.committed]
  · norm_num [step, System.withService, setDailyLimit, start, load, reserve, holdService,
      resetServiceDayIfNeeded, System.begin]

/-- A limit below what the loaded day has already used is exceeded from the start. -/
theorem loaded_usage_exceeds_limit :
    Along (step fun _ => []) (KeepsLimit (fun _ => []) 5) (loadedWith 6) [.setDailyLimit 5] ∧
      5 < (run (step fun _ => []) (loadedWith 6) [.setDailyLimit 5]).committed := by
  refine ⟨⟨⟨?_, trivial⟩, trivial⟩, ?_⟩
  · simp [step, System.withService, setDailyLimit]
  · norm_num [step, System.withService, setDailyLimit, loadedWith, start, load, System.committed]

end KiroProxy.Metering

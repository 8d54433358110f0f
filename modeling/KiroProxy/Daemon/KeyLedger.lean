import KiroProxy.Daemon.ServiceLedger

/-! The ledger of one API key over whole runs. Reservations name their key by id, while a
reload rebuilds the table: an entry that comes back under an id with open reservations
starts from zero, and releasing those reservations then takes from others. -/
namespace KiroProxy.Metering

open Run (run Along)
open Usage (Named UsageRecord)

/-! ### What a key's entry looks like after each section -/

variable {amount : Rat} {held : Named KeyState} {reservation : CreditReservation} {call : Call}

section Lookup

variable (keys : Named KeyState) (k : String)

theorem lookup_insert_map {id : String} {state : KeyState} (found : keys.lookup id = some state)
    (change : KeyState → KeyState) :
    (keys.insert id (change state)).lookup k =
      (keys.lookup k).map (fun state => if k = id then change state else state) := by
  by_cases same : k = id
  · subst same
    rw [Finmap.lookup_insert, found, Option.map_some, if_pos rfl]
  · rw [Finmap.lookup_insert_of_ne _ same]
    simp [same]

theorem lookup_changeKey (keyId : Option String) (change : KeyState → KeyState) :
    (changeKey keyId change keys).lookup k = (keys.lookup k).map (fun state =>
      if keyId = some k then change state else state) := by
  cases keyId with
  | none => simp [changeKey]
  | some id =>
    cases found : keys.lookup id with
    | none =>
      have gone : changeKey (some id) change keys = keys := by simp only [changeKey, found]
      rw [gone]
      by_cases same : id = k
      · subst same
        rw [found]
        rfl
      · simp [same]
    | some state =>
      have here : changeKey (some id) change keys = keys.insert id (change state) := by
        simp only [changeKey, found]
      rw [here, lookup_insert_map keys k found change]
      simp [eq_comm]

def raised (amount : Rat) (state : KeyState) : KeyState :=
  { state with reserved := state.reserved + amount }

theorem lookup_holdKey {id : String} (ok : holdKey id amount keys = .ok held) :
    held.lookup k = (keys.lookup k).map (fun state => if k = id then raised amount state else state) ∧
      ∀ state limit, keys.lookup id = some state → state.config.creditsLimit = some limit →
        state.usage.totalCredits + state.reserved + amount ≤ limit := by
  unfold holdKey at ok
  cases found : keys.lookup id with
  | none => rw [found] at ok; cases ok
  | some state =>
    rw [found] at ok
    simp only at ok
    split at ok
    · cases ok
    · rename_i fits
      cases ok
      refine ⟨lookup_insert_map keys k found (raised amount), ?_⟩
      intro state limit same limited
      cases same
      rw [limited] at fits
      simpa using fits

def cleared (state : KeyState) : KeyState := { state with usage := {} }

theorem lookup_resetUsage (idOrName found : String) :
    (resetUsage idOrName found keys).lookup k = keys.lookup k ∨
      (k = found ∧ (resetUsage idOrName found keys).lookup k = (keys.lookup k).map cleared) := by
  unfold resetUsage
  cases entry : keys.lookup found with
  | none => exact .inl rfl
  | some state =>
    simp only
    split
    · by_cases same : k = found
      · refine .inr ⟨same, ?_⟩
        exact (lookup_insert_map keys k entry cleared).trans (by simp [same])
      · exact .inl (Finmap.lookup_insert_of_ne _ same)
    · exact .inl rfl

end Lookup

/-! ### What a reload keeps -/

section Reload

variable (digest : String → List UInt8)

def listedIds (configs : List ApiKeyConfig) : List String := configs.map (configId digest)

/-- One configuration of the reload loop: the old entry moves over, or a new one starts. -/
def moveEntry (state : Named KeyState × Named KeyState) (config : ApiKeyConfig) :
    Named KeyState × Named KeyState :=
  let id := configId digest config
  let kept := (state.1.lookup id).map (fun state => (state.usage, state.reserved))
  let (usage, reserved) := kept.getD ({}, 0)
  (state.1.erase id, state.2.insert id { id, config, usage, reserved })

theorem replaceConfigs_moves (keys : Named KeyState) (configs : List ApiKeyConfig) :
    replaceConfigs digest keys configs = (configs.foldl (moveEntry digest) (keys, ∅)).2 := rfl

theorem moveEntries_unlisted {id : String} (configs : List ApiKeyConfig)
    (state : Named KeyState × Named KeyState) (unlisted : id ∉ listedIds digest configs) :
    (configs.foldl (moveEntry digest) state).1.lookup id = state.1.lookup id ∧
      (configs.foldl (moveEntry digest) state).2.lookup id = state.2.lookup id := by
  induction configs generalizing state with
  | nil => exact ⟨rfl, rfl⟩
  | cons config rest ih =>
    have other : id ≠ configId digest config := fun same => unlisted (same ▸ List.mem_cons_self)
    have tail := ih (moveEntry digest state config)
      (fun member => unlisted (List.mem_cons_of_mem _ member))
    rw [List.foldl_cons, tail.1, tail.2]
    exact ⟨Finmap.lookup_erase_ne other, Finmap.lookup_insert_of_ne _ other⟩

theorem moveEntry_kept {state : Named KeyState × Named KeyState} {config : ApiKeyConfig}
    {old : KeyState} (found : state.1.lookup (configId digest config) = some old) :
    (moveEntry digest state config).2.lookup (configId digest config) =
      some { id := configId digest config, config, usage := old.usage, reserved := old.reserved } := by
  simp only [moveEntry, found, Option.map_some, Option.getD_some]
  exact Finmap.lookup_insert state.2

theorem lookup_replaceConfigs_unlisted {id : String} (keys : Named KeyState)
    (configs : List ApiKeyConfig) (unlisted : id ∉ listedIds digest configs) :
    (replaceConfigs digest keys configs).lookup id = none := by
  rw [replaceConfigs_moves, (moveEntries_unlisted digest configs (keys, ∅) unlisted).2]
  exact Finmap.lookup_empty id

theorem lookup_replaceConfigs_once {id : String} {keys : Named KeyState} {old : KeyState}
    (configs : List ApiKeyConfig) (found : keys.lookup id = some old)
    (once : (listedIds digest configs).count id = 1) :
    ∃ config ∈ configs, (replaceConfigs digest keys configs).lookup id =
      some { id := id, config := config, usage := old.usage, reserved := old.reserved } := by
  have listed : id ∈ listedIds digest configs := List.count_pos_iff.mp (by omega)
  obtain ⟨config, member, named⟩ := List.mem_map.mp listed
  obtain ⟨front, back, rfl⟩ := List.append_of_mem member
  have counts : (listedIds digest front).count id = 0 ∧ (listedIds digest back).count id = 0 := by
    simp only [listedIds, List.map_append, List.map_cons, List.count_append, named,
      List.count_cons_self] at once ⊢
    omega
  have before := moveEntries_unlisted digest front (keys, ∅) (List.count_eq_zero.mp counts.1)
  have after := moveEntries_unlisted digest back
    (moveEntry digest (front.foldl (moveEntry digest) (keys, ∅)) config)
    (List.count_eq_zero.mp counts.2)
  refine ⟨config, member, ?_⟩
  rw [replaceConfigs_moves, List.foldl_append, List.foldl_cons, after.2]
  subst named
  exact moveEntry_kept digest (before.1.trans found)

theorem replaceConfigs_unreserved {id : String} (configs : List ApiKeyConfig)
    (state : Named KeyState × Named KeyState)
    (old : ∀ entry, state.1.lookup id = some entry → entry.reserved = 0)
    (next : ∀ entry, state.2.lookup id = some entry → entry.reserved = 0) :
    ∀ entry, (configs.foldl (moveEntry digest) state).2.lookup id = some entry →
      entry.reserved = 0 := by
  induction configs generalizing state with
  | nil => exact next
  | cons config rest ih =>
    apply ih
    · intro entry found
      by_cases same : id = configId digest config
      · subst same
        rw [moveEntry, Finmap.lookup_erase] at found
        cases found
      · exact old entry ((Finmap.lookup_erase_ne same).symm.trans found)
    · intro entry found
      by_cases same : id = configId digest config
      · subst same
        simp only [moveEntry, Finmap.lookup_insert] at found
        cases found
        cases kept : state.1.lookup (configId digest config) with
        | none => rfl
        | some entry => exact old entry kept
      · exact next entry ((Finmap.lookup_insert_of_ne _ same).symm.trans found)

end Reload

/-! ### What is held for a key -/

def CreditReservation.heldFor (id : String) (reservation : CreditReservation) : Rat :=
  if reservation.keyId = some id then reservation.estimate else 0

def Call.keyHeld (id : String) : Call → Rat
  | .reserveKey _ _ => 0
  | .reserveUndo _ => 0
  | .extendKey reservation _ => reservation.heldFor id
  | .extendUndo reservation _ => reservation.heldFor id
  | .settleKey reservation _ => reservation.heldFor id
  | .dropKey reservation => reservation.heldFor id

def System.keyHeld (s : System) (id : String) : Rat :=
  (s.reservations.map (·.heldFor id)).sum + (s.calls.map (Call.keyHeld id)).sum

theorem heldFor_nonneg {id : String} (proper : 0 ≤ reservation.estimate) : 0 ≤ reservation.heldFor id := by
  unfold CreditReservation.heldFor
  split
  · exact proper
  · exact le_refl 0

theorem Call.keyHeld_nonneg {id : String} (proper : call.NonNeg) :
    0 ≤ call.keyHeld id := by
  cases call with
  | reserveKey keyId estimate => exact le_refl 0
  | reserveUndo estimate => exact le_refl 0
  | extendKey reservation additional => exact heldFor_nonneg proper.1
  | extendUndo reservation additional => exact heldFor_nonneg proper.1
  | settleKey reservation record => exact heldFor_nonneg proper
  | dropKey reservation => exact heldFor_nonneg proper

/- As with the service ledger: inside a step the entry may be ahead by `extra`. -/
structure KeyHolds (id : String) (s : System) (extra : Rat) : Prop where
  reserved : ∀ state, s.meter.keys.lookup id = some state → state.reserved = s.keyHeld id + extra
  estimates : ∀ r ∈ s.reservations, 0 ≤ r.estimate
  amounts : ∀ call ∈ s.calls, call.NonNeg

section Changes

variable {id : String} {s : System} {extra : Rat} (holds : KeyHolds id s extra)

include holds

theorem keyHeld_nonneg : 0 ≤ s.keyHeld id := by
  apply add_nonneg
  · apply List.sum_nonneg
    intro x member
    obtain ⟨r, inside, rfl⟩ := List.mem_map.mp member
    exact heldFor_nonneg (holds.estimates r inside)
  · apply List.sum_nonneg
    intro x member
    obtain ⟨call, inside, rfl⟩ := List.mem_map.mp member
    exact Call.keyHeld_nonneg (holds.amounts call inside)

theorem keyHolds_service (service : ServiceCreditState) : KeyHolds id (s.withService service) extra :=
  ⟨holds.reserved, holds.estimates, holds.amounts⟩

theorem keyHolds_take {n : Nat} (place : s.reservations[n]? = some reservation) :
    KeyHolds id { s with reservations := s.reservations.eraseIdx n }
        (extra + reservation.heldFor id) ∧ 0 ≤ reservation.estimate := by
  have taken := Indexed.sum_eraseIdx s.reservations (·.heldFor id) place
  refine ⟨⟨?_, ?_, holds.amounts⟩, holds.estimates _ (List.mem_of_getElem? place)⟩
  · intro state found
    rw [holds.reserved state found]
    simp only [System.keyHeld]
    linarith
  · exact fun r member => holds.estimates r (List.mem_of_mem_eraseIdx member)

theorem keyHolds_takeCall {n : Nat} (place : s.calls[n]? = some call) :
    KeyHolds id { s with calls := s.calls.eraseIdx n } (extra + call.keyHeld id) ∧ call.NonNeg := by
  have taken := Indexed.sum_eraseIdx s.calls (Call.keyHeld id) place
  refine ⟨⟨?_, holds.estimates, ?_⟩, holds.amounts _ (List.mem_of_getElem? place)⟩
  · intro state found
    rw [holds.reserved state found]
    simp only [System.keyHeld]
    linarith
  · exact fun c member => holds.amounts c (List.mem_of_mem_eraseIdx member)

variable {rest : Rat}

theorem keyHolds_begin (same : extra = rest + call.keyHeld id) (proper : call.NonNeg) :
    KeyHolds id (s.begin call) rest := by
  refine ⟨?_, holds.estimates, ?_⟩
  · intro state found
    rw [holds.reserved state found]
    simp only [System.keyHeld, System.begin, List.map_append, List.sum_append, List.map_cons,
      List.map_nil, List.sum_singleton]
    linarith
  · intro c member
    rcases List.mem_append.mp member with old | new
    · exact holds.amounts c old
    · rw [List.mem_singleton.mp new]
      exact proper

theorem keyHolds_returns (same : extra = rest + reservation.heldFor id) (proper : 0 ≤ reservation.estimate) :
    KeyHolds id (s.returns reservation) rest := by
  refine ⟨?_, ?_, holds.amounts⟩
  · intro state found
    rw [holds.reserved state found]
    simp only [System.keyHeld, System.returns, List.map_append, List.sum_append, List.map_cons,
      List.map_nil, List.sum_singleton]
    linarith
  · intro r member
    rcases List.mem_append.mp member with old | new
    · exact holds.estimates r old
    · rw [List.mem_singleton.mp new]
      exact proper

theorem keyHolds_hold {k : String} (ok : holdKey k amount s.meter.keys = .ok held) :
    KeyHolds id (s.withKeys held) (extra + CreditReservation.heldFor id ⟨some k, amount⟩) := by
  refine ⟨?_, holds.estimates, holds.amounts⟩
  intro state found
  rw [System.withKeys, (lookup_holdKey s.meter.keys id ok).1] at found
  obtain ⟨old, before, rfl⟩ := Option.map_eq_some_iff.mp found
  have reserved := holds.reserved old before
  by_cases same : id = k
  · subst same
    simp only [if_true, raised, CreditReservation.heldFor, reserved]
    exact add_assoc _ _ _
  · have other : ¬ (some k = some id) := fun h => same (Option.some.inj h).symm
    simp only [if_neg same, CreditReservation.heldFor, if_neg other, add_zero]
    exact reserved

theorem keyHolds_release {change : KeyState → KeyState} (same : extra = rest + reservation.heldFor id)
    (proper : 0 ≤ rest) (lowers : ∀ state, (change state).reserved = max (state.reserved - reservation.estimate) 0) :
    KeyHolds id (s.withKeys (changeKey reservation.keyId change s.meter.keys)) rest := by
  have nonneg := keyHeld_nonneg holds
  refine ⟨?_, holds.estimates, holds.amounts⟩
  intro state found
  rw [System.withKeys, lookup_changeKey] at found
  obtain ⟨old, before, rfl⟩ := Option.map_eq_some_iff.mp found
  have reserved := holds.reserved old before
  change _ = s.keyHeld id + rest
  by_cases mine : reservation.keyId = some id
  · rw [if_pos mine, lowers, reserved, same, CreditReservation.heldFor, if_pos mine,
      max_eq_left (by linarith)]
    linarith
  · rw [if_neg mine, reserved, same, CreditReservation.heldFor, if_neg mine, add_zero]

end Changes

/-! ### Every action but a careless reload keeps the entries exact -/

/-- A reload lists an id with open reservations only if the id has an entry, and then once. -/
def KeepsEntries (digest : String → List UInt8) (s : System) : Action → Prop
  | .replaceConfigs configs => ∀ id ∈ listedIds digest configs, s.keyHeld id ≠ 0 →
      id ∈ s.meter.keys ∧ (listedIds digest configs).count id = 1
  | _ => True

section Steps

variable {id : String} {s : System} (sound : KeyHolds id s 0)

include sound

theorem reserve_keySound (keyId : Option String) (estimate : Rat) :
    KeyHolds id (reserve s keyId estimate) 0 := by
  rcases reserve_cases s keyId estimate with same | refused | ⟨held, _⟩
  · rw [same]
    exact sound
  · rw [refused]
    exact keyHolds_service sound _
  · rw [held]
    exact keyHolds_begin (keyHolds_service sound _) (add_zero 0).symm (le_max_right _ _)

theorem extend_keySound (n : Nat) (additional : Rat) : KeyHolds id (extend s n additional) 0 := by
  rcases extend_cases s n additional with same | refused | ⟨reservation, place, held, _⟩
  · rw [same]
    exact sound
  · rw [refused]
    exact keyHolds_service sound _
  · rw [held]
    obtain ⟨taken, nonneg⟩ := keyHolds_take sound place
    exact keyHolds_begin (keyHolds_service taken _) rfl ⟨nonneg, le_max_right _ _⟩

theorem settle_keySound (n : Nat) (record : UsageRecord) : KeyHolds id (settle s n record) 0 := by
  unfold settle
  cases place : s.reservations[n]? with
  | none => exact sound
  | some reservation =>
    obtain ⟨taken, nonneg⟩ := keyHolds_take sound place
    exact keyHolds_begin (keyHolds_service taken _) rfl nonneg

theorem dropReservation_keySound (n : Nat) : KeyHolds id (dropReservation s n) 0 := by
  unfold dropReservation
  cases place : s.reservations[n]? with
  | none => exact sound
  | some reservation =>
    obtain ⟨taken, nonneg⟩ := keyHolds_take sound place
    exact keyHolds_begin (keyHolds_service taken _) rfl nonneg

theorem advance_keySound (n : Nat) : KeyHolds id (advance s n) 0 := by
  unfold advance
  cases place : s.calls[n]? with
  | none => exact sound
  | some call =>
    obtain ⟨taken, proper⟩ := keyHolds_takeCall sound place
    cases call with
    | reserveKey keyId estimate =>
      cases keyId with
      | none => exact keyHolds_returns taken rfl proper
      | some k =>
        rw [Call.keyHeld, add_zero] at taken
        simp only [nextSection]
        split
        · exact keyHolds_begin taken (add_zero 0).symm proper
        · rename_i held ok
          exact keyHolds_returns (keyHolds_hold taken ok) rfl proper
    | reserveUndo estimate =>
      rw [Call.keyHeld, add_zero] at taken
      exact keyHolds_service taken _
    | extendKey reservation additional =>
      have grown := add_nonneg proper.1 proper.2
      simp only [nextSection]
      split
      · rename_i free
        refine keyHolds_returns taken ?_ grown
        simp [Call.keyHeld, CreditReservation.heldFor, free]
      · rename_i k owner
        split
        · exact keyHolds_begin taken rfl proper
        · rename_i held ok
          refine keyHolds_returns (keyHolds_hold taken ok) ?_ grown
          simp only [Call.keyHeld, CreditReservation.heldFor, owner]
          split <;> linarith
    | extendUndo reservation additional =>
      exact keyHolds_returns (keyHolds_service taken _) rfl proper.1
    | settleKey reservation record =>
      exact keyHolds_release taken rfl (le_refl 0) (fun _ => rfl)
    | dropKey reservation =>
      exact keyHolds_release taken rfl (le_refl 0) (fun _ => rfl)

theorem resetUsage_keySound (idOrName found : String) :
    KeyHolds id (s.withKeys (resetUsage idOrName found s.meter.keys)) 0 := by
  refine ⟨?_, sound.estimates, sound.amounts⟩
  intro state here
  rcases lookup_resetUsage s.meter.keys id idOrName found with same | ⟨_, same⟩
  · exact sound.reserved state (same.symm.trans here)
  · rw [System.withKeys, same] at here
    obtain ⟨old, before, rfl⟩ := Option.map_eq_some_iff.mp here
    exact sound.reserved old before

theorem replaceConfigs_keySound (digest : String → List UInt8) (configs : List ApiKeyConfig)
    (kept : KeepsEntries digest s (.replaceConfigs configs)) :
    KeyHolds id (s.withKeys (replaceConfigs digest s.meter.keys configs)) 0 := by
  refine ⟨?_, sound.estimates, sound.amounts⟩
  intro state here
  change _ = s.keyHeld id + 0
  by_cases free : s.keyHeld id = 0
  · -- nothing is held under this id, so both the old entry and a new one reserve nothing
    rw [free, add_zero]
    refine replaceConfigs_unreserved digest configs (s.meter.keys, ∅) ?_ ?_ state here
    · intro entry found
      rw [sound.reserved entry found, free, add_zero]
    · intro entry found
      rw [Finmap.lookup_empty] at found
      cases found
  · by_cases listed : id ∈ listedIds digest configs
    · obtain ⟨present, once⟩ := kept id listed free
      obtain ⟨old, found⟩ := Finmap.mem_iff.mp present
      obtain ⟨config, _, moved⟩ := lookup_replaceConfigs_once digest configs found once
      rw [System.withKeys, moved] at here
      cases here
      exact sound.reserved old found
    · rw [System.withKeys, lookup_replaceConfigs_unlisted digest _ configs listed] at here
      cases here

theorem step_keySound (digest : String → List UInt8) (action : Action)
    (kept : KeepsEntries digest s action) : KeyHolds id (step digest s action) 0 := by
  cases action with
  | reserve keyId estimate => exact reserve_keySound sound keyId estimate
  | extend n additional => exact extend_keySound sound n additional
  | settle n record => exact settle_keySound sound n record
  | drop n => exact dropReservation_keySound sound n
  | advance n => exact advance_keySound sound n
  | setDailyLimit limit => exact keyHolds_service sound _
  | resetDaily => exact keyHolds_service sound _
  | resetUsage idOrName found => exact resetUsage_keySound sound idOrName found
  | replaceConfigs configs => exact replaceConfigs_keySound sound digest configs kept
  | newDay day => exact ⟨sound.reserved, sound.estimates, sound.amounts⟩

end Steps

theorem start_keySound (digest : String → List UInt8) (orders : String → Usage.Orders)
    (today : String) (persisted : Persisted) (configs : List ApiKeyConfig) (id : String) :
    KeyHolds id (start digest orders today persisted configs) 0 := by
  have entries : ∀ (configs : List ApiKeyConfig) (keys : Named KeyState),
      (∀ state, keys.lookup id = some state → state.reserved = 0) →
      ∀ state, (configs.foldl (fun keys config => keys.insert (configId digest config)
        (loadKey digest orders persisted config)) keys).lookup id = some state →
        state.reserved = 0 := by
    intro configs
    induction configs with
    | nil => exact fun keys fresh => fresh
    | cons config rest ih =>
      intro keys fresh
      apply ih
      intro state found
      by_cases same : id = configId digest config
      · subst same
        rw [Finmap.lookup_insert] at found
        cases found
        rfl
      · exact fresh state ((Finmap.lookup_insert_of_ne _ same).symm.trans found)
  refine ⟨?_, ?_, ?_⟩
  · intro state found
    rw [entries configs ∅ (by simp) state found]
    simp [System.keyHeld, start]
  · intro r member
    cases member
  · intro call member
    cases member

theorem run_keySound (digest : String → List UInt8) {s : System} {actions : List Action} (id : String)
    (sound : KeyHolds id s 0) (along : Along (step digest) (KeepsEntries digest) s actions) :
    KeyHolds id (run (step digest) s actions) 0 :=
  Run.run_keeps (P := fun s => KeyHolds id s 0)
    (fun _ action before kept => step_keySound before digest action kept) along sound

/-! ### The limit of a key -/

/-- The settled record charges no more than the reservation's estimate. -/
def ChargesAtMost (s : System) : Action → Prop
  | .settle n record => ∀ reservation, s.reservations[n]? = some reservation →
      record.credits ≤ reservation.estimate
  | _ => True

def System.Charged (s : System) : Prop :=
  ∀ reservation record, .settleKey reservation record ∈ s.calls → record.credits ≤ reservation.estimate

theorem charged_begin {s : System} (charged : s.Charged)
    (fits : ∀ reservation record, call = .settleKey reservation record →
      record.credits ≤ reservation.estimate) : (s.begin call).Charged := by
  intro reservation record member
  rcases List.mem_append.mp member with old | new
  · exact charged reservation record old
  · exact fits reservation record (List.mem_singleton.mp new).symm

theorem advance_charged {s : System} (charged : s.Charged) (n : Nat) : (advance s n).Charged := by
  unfold advance
  cases s.calls[n]? with
  | none => exact charged
  | some call =>
    have rest : ({ s with calls := s.calls.eraseIdx n } : System).Charged :=
      fun reservation record member => charged reservation record (List.mem_of_mem_eraseIdx member)
    cases call with
    | reserveKey keyId estimate =>
      cases keyId with
      | none => exact rest
      | some id =>
        simp only [nextSection]
        split
        · exact charged_begin rest (by simp)
        · exact rest
    | reserveUndo estimate => exact rest
    | extendKey reservation additional =>
      simp only [nextSection]
      split
      · exact rest
      · split
        · exact charged_begin rest (by simp)
        · exact rest
    | extendUndo reservation additional => exact rest
    | settleKey reservation record => exact rest
    | dropKey reservation => exact rest

theorem step_charged (digest : String → List UInt8) {s : System} {action : Action}
    (charged : s.Charged) (charges : ChargesAtMost s action) : (step digest s action).Charged := by
  cases action with
  | reserve keyId estimate =>
    rcases reserve_cases s keyId estimate with same | refused | ⟨held, _⟩
    · rw [step, same]
      exact charged
    · rw [step, refused]
      exact charged
    · rw [step, held]
      exact charged_begin charged (by simp)
  | extend n additional =>
    rcases extend_cases s n additional with same | refused | ⟨reservation, _, held, _⟩
    · rw [step, same]
      exact charged
    · rw [step, refused]
      exact charged
    · rw [step, held]
      exact charged_begin charged (by simp)
  | settle n record =>
    simp only [step, settle]
    cases place : s.reservations[n]? with
    | none => exact charged
    | some reservation =>
      refine charged_begin charged ?_
      rintro _ _ ⟨⟩
      exact charges reservation place
  | drop n =>
    simp only [step, dropReservation]
    cases s.reservations[n]? with
    | none => exact charged
    | some reservation => exact charged_begin charged (by simp)
  | advance n => exact advance_charged charged n
  | setDailyLimit limit => exact charged
  | resetDaily => exact charged
  | resetUsage idOrName found => exact charged
  | replaceConfigs configs => exact charged
  | newDay day => exact charged

def WithinLimit (id : String) (limit : Rat) (s : System) : Prop :=
  ∃ state, s.meter.keys.lookup id = some state ∧ state.config.creditsLimit = some limit ∧
    state.usage.totalCredits + state.reserved ≤ limit

/-- The key stays configured with this limit, is listed once by a reload, and is not
reset while its total is negative. -/
def KeepsKeyLimit (digest : String → List UInt8) (id : String) (limit : Rat) (s : System)
    (action : Action) : Prop :=
  (∃ state, (step digest s action).meter.keys.lookup id = some state ∧
      state.config.creditsLimit = some limit) ∧
    match action with
    | .resetUsage _ found => found = id → ∀ state, s.meter.keys.lookup id = some state →
        0 ≤ state.usage.totalCredits
    | .replaceConfigs configs => (listedIds digest configs).count id = 1
    | _ => True

section Limit

variable {id : String} {limit : Rat} {s : System} (sound : KeyHolds id s 0) (charged : s.Charged)
  (within : WithinLimit id limit s)

variable {t : System}

theorem within_of_keys {s : System} (same : t.meter.keys = s.meter.keys) (within : WithinLimit id limit s) :
    WithinLimit id limit t := by
  unfold WithinLimit
  rw [same]
  exact within

include within in
theorem hold_within {k : String} (ok : holdKey k amount s.meter.keys = .ok held) (keys : t.meter.keys = held) :
    WithinLimit id limit t := by
  obtain ⟨state, found, limited, bound⟩ := within
  obtain ⟨after, fits⟩ := lookup_holdKey s.meter.keys id ok
  unfold WithinLimit
  rw [keys, after, found, Option.map_some]
  by_cases same : id = k
  · subst same
    refine ⟨raised amount state, by simp, limited, ?_⟩
    have room := fits state limit found limited
    simp only [raised]
    linarith
  · exact ⟨state, by simp [same], limited, bound⟩

include within in
theorem change_within {keyId : Option String} {change : KeyState → KeyState}
    (keys : t.meter.keys = changeKey keyId change s.meter.keys)
    (configured : ∀ state, (change state).config = state.config)
    (shrinks : keyId = some id → ∀ state, s.meter.keys.lookup id = some state →
      (change state).usage.totalCredits + (change state).reserved ≤
        state.usage.totalCredits + state.reserved) : WithinLimit id limit t := by
  obtain ⟨state, found, limited, bound⟩ := within
  unfold WithinLimit
  rw [keys, lookup_changeKey, found, Option.map_some]
  by_cases mine : keyId = some id
  · refine ⟨change state, by simp [mine], ?_, ?_⟩
    · rw [configured state]
      exact limited
    · exact (shrinks mine state found).trans bound
  · exact ⟨state, by simp [mine], limited, bound⟩

include sound charged within in
theorem advance_within (n : Nat) : WithinLimit id limit (advance s n) := by
  unfold advance
  cases place : s.calls[n]? with
  | none => exact within
  | some call =>
    obtain ⟨taken, proper⟩ := keyHolds_takeCall sound place
    have nonneg := keyHeld_nonneg taken
    cases call with
    | reserveKey keyId estimate =>
      cases keyId with
      | none => exact within
      | some k =>
        simp only [nextSection]
        split
        · exact within
        · rename_i held ok
          exact hold_within within ok rfl
    | reserveUndo estimate => exact within
    | extendKey reservation additional =>
      simp only [nextSection]
      split
      · exact within
      · split
        · exact within
        · rename_i held ok
          exact hold_within within ok rfl
    | extendUndo reservation additional => exact within
    | settleKey reservation record =>
      refine change_within within rfl (fun _ => rfl) ?_
      intro mine state found
      have reserved := taken.reserved state found
      have charge := charged reservation record (List.mem_of_getElem? place)
      rw [Call.keyHeld, CreditReservation.heldFor, if_pos mine] at reserved
      simp only [KeyState.settle, KeyState.lower, Usage.ApiKeyUsage.add]
      rw [max_eq_left (by linarith)]
      linarith
    | dropKey reservation =>
      refine change_within within rfl (fun _ => rfl) ?_
      intro mine state found
      have reserved := taken.reserved state found
      rw [Call.keyHeld, CreditReservation.heldFor, if_pos mine] at reserved
      simp only [KeyState.lower]
      have estimate : 0 ≤ reservation.estimate := proper
      rw [max_eq_left (by linarith)]
      linarith

include sound charged within in
theorem step_within (digest : String → List UInt8) {action : Action}
    (kept : KeepsKeyLimit digest id limit s action) : WithinLimit id limit (step digest s action) := by
  cases action with
  | reserve keyId estimate =>
    rcases reserve_cases s keyId estimate with same | refused | ⟨held, _⟩
    · exact within_of_keys (by rw [step, same]) within
    · exact within_of_keys (by rw [step, refused]; rfl) within
    · exact within_of_keys (by rw [step, held]; rfl) within
  | extend n additional =>
    rcases extend_cases s n additional with same | refused | ⟨reservation, _, held, _⟩
    · exact within_of_keys (by rw [step, same]) within
    · exact within_of_keys (by rw [step, refused]; rfl) within
    · exact within_of_keys (by rw [step, held]; rfl) within
  | settle n record =>
    simp only [step, settle]
    cases s.reservations[n]? <;> exact within
  | drop n =>
    simp only [step, dropReservation]
    cases s.reservations[n]? <;> exact within
  | advance n => exact advance_within sound charged within n
  | setDailyLimit amount => exact within
  | resetDaily => exact within
  | resetUsage idOrName found =>
    obtain ⟨state, entry, limited, bound⟩ := within
    rcases lookup_resetUsage s.meter.keys id idOrName found with same | ⟨mine, same⟩
    · exact ⟨state, same.trans entry, limited, bound⟩
    · have total := kept.2 mine.symm state entry
      rw [entry, Option.map_some] at same
      refine ⟨cleared state, same, limited, ?_⟩
      simp only [cleared]
      linarith
  | replaceConfigs configs =>
    obtain ⟨old, entry, _, bound⟩ := within
    obtain ⟨⟨state, moved, limited⟩, once⟩ := kept
    obtain ⟨config, _, kept⟩ := lookup_replaceConfigs_once digest configs entry once
    have same := kept.symm.trans moved
    cases same
    exact ⟨_, moved, limited, bound⟩
  | newDay day => exact within

end Limit

def KeepsAll (digest : String → List UInt8) (id : String) (limit : Rat) (s : System)
    (action : Action) : Prop :=
  KeepsEntries digest s action ∧ ChargesAtMost s action ∧ KeepsKeyLimit digest id limit s action

theorem run_within (digest : String → List UInt8) {id : String} {limit : Rat} {s : System}
    {actions : List Action} (sound : KeyHolds id s 0) (charged : s.Charged)
    (within : WithinLimit id limit s)
    (along : Along (step digest) (KeepsAll digest id limit) s actions) :
    WithinLimit id limit (run (step digest) s actions) := by
  have kept := Run.run_keeps
    (P := fun s => KeyHolds id s 0 ∧ s.Charged ∧ WithinLimit id limit s)
    (fun s action before ok => by
      obtain ⟨sound, charged, within⟩ := before
      exact ⟨step_keySound sound digest action ok.1, step_charged digest charged ok.2.1,
        step_within sound charged within digest ok.2.2⟩)
    along ⟨sound, charged, within⟩
  exact kept.2.2

/-- What a settlement or a drop under way has not yet released at the key. -/
def Call.unreleased (id : String) : Call → Rat
  | .settleKey reservation _ => reservation.heldFor id
  | .dropKey reservation => reservation.heldFor id
  | _ => 0

theorem keyHeld_open (s : System) (id : String) : s.keyHeld id =
    (s.openReservations.map (·.heldFor id)).sum + (s.calls.map (Call.unreleased id)).sum := by
  have calls : ∀ calls : List Call, (calls.map (Call.keyHeld id)).sum =
      ((calls.filterMap Call.extending).map (·.heldFor id)).sum +
        (calls.map (Call.unreleased id)).sum := by
    intro calls
    induction calls with
    | nil => simp
    | cons call rest ih =>
      cases call <;> simp [Call.keyHeld, Call.unreleased, Call.extending, List.filterMap_cons, ih] <;> linarith
  rw [System.keyHeld, calls, System.openReservations, List.map_append, List.sum_append, add_assoc]

theorem sum_heldFor (reservations : List CreditReservation) (id : String) :
    (reservations.map (·.heldFor id)).sum =
      ((reservations.filter (fun r => r.keyId = some id)).map (·.estimate)).sum := by
  induction reservations with
  | nil => rfl
  | cons reservation rest ih =>
    rw [List.map_cons, List.sum_cons, ih, CreditReservation.heldFor]
    by_cases mine : reservation.keyId = some id <;> simp [mine]

/-- In every run whose reloads keep the entries of ids with open reservations, a configured
key reserves exactly the open estimates made for its id; and a key that is within its
limit stays within it while the limit is unchanged and charges stay within estimates. -/
theorem key_ledger_exact (digest : String → List UInt8) (orders : String → Usage.Orders)
    (today : String) (persisted : Persisted) (configs : List ApiKeyConfig) (actions : List Action)
    (kept : Along (step digest) (KeepsEntries digest)
      (start digest orders today persisted configs) actions) :
    let s := run (step digest) (start digest orders today persisted configs) actions
    (∀ id state, s.meter.keys.lookup id = some state → state.reserved =
        (s.openReservations.map (·.heldFor id)).sum + (s.calls.map (Call.unreleased id)).sum) ∧
      (s.calls = [] → ∀ id state, s.meter.keys.lookup id = some state → state.reserved =
        ((s.reservations.filter (fun r => r.keyId = some id)).map (·.estimate)).sum) ∧
      ∀ id limit more,
        Along (step digest) ChargesAtMost (start digest orders today persisted configs) actions →
        WithinLimit id limit s → Along (step digest) (KeepsAll digest id limit) s more →
        WithinLimit id limit (run (step digest) s more) := by
  intro s
  have sound : ∀ id, KeyHolds id s 0 := fun id =>
    run_keySound digest id (start_keySound digest orders today persisted configs id) kept
  have exactly : ∀ id state, s.meter.keys.lookup id = some state → state.reserved = s.keyHeld id := by
    intro id state found
    rw [(sound id).reserved state found, add_zero]
  refine ⟨?_, ?_, ?_⟩
  · intro id state found
    rw [exactly id state found]
    exact keyHeld_open s id
  · intro quiet id state found
    rw [exactly id state found, System.keyHeld, quiet, sum_heldFor]
    simp
  · intro id limit more charges within along
    have none : (start digest orders today persisted configs).Charged := by
      intro reservation record member
      cases member
    have charged : s.Charged := Run.run_keeps (P := System.Charged)
      (fun _ _ before ok => step_charged digest before ok) charges none
    exact run_within digest (sound id) charged within along

def limitedKey : ApiKeyConfig := { id := some "k", creditsLimit := some 10 }

noncomputable def loadedKey : System := start (fun _ => []) default "2026-01-01" {} [limitedKey]

theorem key_ledger_exact_reserved :
    ((run (step fun _ => []) loadedKey [.reserve (some "k") 8, .advance 0]).meter.keys.lookup "k").map
      (·.reserved) = some 8 := by
  have kept : Along (step fun _ => []) (KeepsEntries fun _ => []) loadedKey
      [.reserve (some "k") 8, .advance 0] := ⟨trivial, trivial, trivial⟩
  have ledger := key_ledger_exact (fun _ => []) default "2026-01-01" {} [limitedKey] _ kept
  have quiet : (run (step fun _ => []) loadedKey [.reserve (some "k") 8, .advance 0]).calls = [] :=
    List.length_eq_zero_iff.mp (by decide +kernel)
  have configured : ((run (step fun _ => []) loadedKey
      [.reserve (some "k") 8, .advance 0]).meter.keys.lookup "k").isSome = true := by
    decide +kernel
  obtain ⟨state, found⟩ := Option.isSome_iff_exists.mp configured
  rw [found, Option.map_some, ledger.2.1 quiet "k" state found]
  decide +kernel

/-- The key leaves the configuration and comes back while eight credits are reserved. -/
def reloadedKey : List Action :=
  [.reserve (some "k") 8, .advance 0, .replaceConfigs [], .replaceConfigs [limitedKey],
    .reserve (some "k") 8, .advance 0]

def eightCredits : UsageRecord where
  timestamp := 0
  model := "m"
  originalModel := none
  kiroModel := none
  inputTokens := 1
  outputTokens := 1
  credits := 8
  cacheReadTokens := none
  cacheWriteTokens := none
  reasoningTokens := none
  tokenUsageSource := "server"
  path := "/v1/messages"

/-- Two reservations of eight credits are open and the key knows of one; settled in full,
they take the key to sixteen credits under a limit of ten. -/
theorem reload_forgets_reservation :
    (run (step fun _ => []) loadedKey reloadedKey).calls.length = 0 ∧
      (run (step fun _ => []) loadedKey reloadedKey).reservations =
        [⟨some "k", 8⟩, ⟨some "k", 8⟩] ∧
      ((run (step fun _ => []) loadedKey reloadedKey).meter.keys.lookup "k").map (·.reserved) =
        some 8 ∧
      ((run (step fun _ => []) loadedKey (reloadedKey ++ [.settle 0 eightCredits,
        .settle 0 eightCredits, .advance 0, .advance 0])).meter.keys.lookup "k").map
          (fun state => (state.config.creditsLimit, state.usage.totalCredits)) =
        some (some 10, 16) := by
  decide +kernel

end KiroProxy.Metering

import KiroProxy.Daemon.KeyLedger
import KiroProxy.Store.Accounts

/-! Applying a configuration to the running daemon, and what a failed change leaves behind. The
rollback applies the previous configuration through the same functions as the change itself; the
key table is then rebuilt twice, and an entry survives only while its id is listed. -/
namespace KiroProxy.ConfigTransaction

open Metering (ApiKeyConfig KeyState Meter Persisted configId listedIds moveEntry replaceConfigs
  replaceConfigs_moves setDailyLimit)
open Store (Account AccountStore)
open Usage (ApiKeyUsage Named Orders)

/-! ### Configurations -/

inductive ServiceAccountTags where
  | one (tag : String)
  | many (tags : List String)
  deriving DecidableEq

def ServiceAccountTags.tags : ServiceAccountTags → List String
  | .one tag => [tag]
  | .many tags => tags

structure ProxyServiceConfig where
  id : String
  name : String
  enabled : Bool := true
  accountTag : Option ServiceAccountTags := none
  accountIds : List String := []
  deriving DecidableEq

def ProxyServiceConfig.selectedAccountTags (service : ProxyServiceConfig) : List String :=
  (service.accountTag.map ServiceAccountTags.tags).getD []

structure ServerConfig where
  maxConcurrentRequests : Nat := 500
  maxConnections : Nat := 2000
  deriving DecidableEq

structure PoolConfig where
  dailyCreditLimit : Rat := 0
  deriving DecidableEq

structure StorageConfig where
  compressionThreshold : Nat := 100
  incrementalWrite : Bool := true
  deriving DecidableEq

structure Config where
  apiKey : List ApiKeyConfig := []
  proxyService : List ProxyServiceConfig := []
  server : ServerConfig := {}
  pool : PoolConfig := {}
  storage : StorageConfig := {}
  deriving DecidableEq

def sameAccountTags (left right : List String) : Bool := left.toFinset = right.toFinset

def validateServiceAccountReferences (config : Config) (accounts : List Account) : Except String Unit :=
  config.proxyService.forM fun service =>
    service.accountIds.forM fun accountId =>
      if accounts.any (·.id = accountId) then .ok ()
      else .error (s!"proxy service {service.name} ({service.id}) references unknown account " ++
        accountId)

def validateServiceAccountTagTransitions (previous next : Config) : Except String Unit :=
  previous.proxyService.forM fun current =>
    match next.proxyService.find? (·.id = current.id) with
    | none => .ok ()
    | some updated =>
      if sameAccountTags current.selectedAccountTags updated.selectedAccountTags = false ∧
          current.enabled then
        .error (s!"proxy service {current.name} ({current.id}) " ++
          "must be disabled before changing account_tag")
      else .ok ()

def formatServiceFailures (failures : List (String × String)) : String :=
  "; ".intercalate (failures.map fun failure => failure.1 ++ ": " ++ failure.2)

/-! ### Rebuilding the key table -/

variable {id : String} {entry : KeyState}

section Rebuild

variable (digest : String → List UInt8)

def lastListed (configs : List ApiKeyConfig) (id : String) : Option ApiKeyConfig :=
  configs.reverse.find? (configId digest · = id)

theorem lastListed_cons (config : ApiKeyConfig) (rest : List ApiKeyConfig) (id : String) :
    lastListed digest (config :: rest) id =
      (lastListed digest rest id).or (if configId digest config = id then some config else none) := by
  rw [lastListed, List.reverse_cons, List.find?_append]
  congr 1
  by_cases same : configId digest config = id
  · simp [same]
  · simp [same]

theorem lookup_entries {σ : Type} (table : σ → Named KeyState) (body : σ → ApiKeyConfig → σ)
    (entry : σ → ApiKeyConfig → KeyState) (own : ∀ s config, (entry s config).config = config)
    (writes : ∀ s config, table (body s config) =
      (table s).insert (configId digest config) (entry s config))
    (configs : List ApiKeyConfig) (s : σ) (id : String) :
    ((table (configs.foldl body s)).lookup id).map (·.config) =
      (lastListed digest configs id).or (((table s).lookup id).map (·.config)) := by
  induction configs generalizing s with
  | nil => simp [lastListed]
  | cons config rest ih =>
    rw [List.foldl_cons, ih, lastListed_cons, writes, Option.or_assoc]
    congr 1
    by_cases same : configId digest config = id
    · subst same
      simp [own]
    · rw [Finmap.lookup_insert_of_ne _ (Ne.symm same)]
      simp [same]

theorem load_keyed (orders : String → Orders) (today : String) (persisted : Persisted)
    (configs : List ApiKeyConfig) (id : String) :
    ((Metering.load digest orders today persisted configs).keys.lookup id).map (·.config) =
      lastListed digest configs id := by
  have entries := lookup_entries digest (σ := Named KeyState) (fun keys => keys)
    (fun keys config => keys.insert (configId digest config)
      (Metering.loadKey digest orders persisted config))
    (fun _ config => Metering.loadKey digest orders persisted config) (fun _ _ => rfl)
    (fun _ _ => rfl) configs ∅ id
  simpa [Metering.load] using entries

def movedEntry (state : Named KeyState × Named KeyState) (config : ApiKeyConfig) : KeyState where
  id := configId digest config
  config := config
  usage := (((state.1.lookup (configId digest config)).map
    fun old => (old.usage, old.reserved)).getD ({}, 0)).1
  reserved := (((state.1.lookup (configId digest config)).map
    fun old => (old.usage, old.reserved)).getD ({}, 0)).2

theorem replaceConfigs_keyed (keys : Named KeyState) (configs : List ApiKeyConfig) (id : String) :
    ((replaceConfigs digest keys configs).lookup id).map (·.config) = lastListed digest configs id := by
  have entries := lookup_entries digest Prod.snd (moveEntry digest) (movedEntry digest)
    (fun _ _ => rfl) (fun _ _ => rfl) configs (keys, ∅) id
  simpa [replaceConfigs_moves] using entries

def standing (state : KeyState) : ApiKeyUsage × Rat := (state.usage, state.reserved)

/-- What the rebuild hands to an id: the old standing if it is listed once, nothing if it is
listed again after that. -/
theorem standing_moved (configs : List ApiKeyConfig) (state : Named KeyState × Named KeyState)
    (id : String) :
    ((configs.foldl (moveEntry digest) state).2.lookup id).map standing =
      match (listedIds digest configs).count id with
      | 0 => (state.2.lookup id).map standing
      | 1 => some (((state.1.lookup id).map standing).getD ({}, 0))
      | _ => some ({}, 0) := by
  induction configs generalizing state with
  | nil => rfl
  | cons config rest ih =>
    rw [List.foldl_cons, ih]
    by_cases same : configId digest config = id
    · subst same
      have erased : (moveEntry digest state config).1.lookup (configId digest config) = none :=
        Finmap.lookup_erase _ _
      have written : ((moveEntry digest state config).2.lookup (configId digest config)).map standing =
          some (((state.1.lookup (configId digest config)).map standing).getD ({}, 0)) := by
        rw [moveEntry, Finmap.lookup_insert]
        rfl
      rw [erased, written]
      have counted : (listedIds digest (config :: rest)).count (configId digest config) =
          (listedIds digest rest).count (configId digest config) + 1 := List.count_cons_self
      rw [counted]
      cases (listedIds digest rest).count (configId digest config) with
      | zero => rfl
      | succ n =>
        cases n with
        | zero => rfl
        | succ n => rfl
    · have kept : (moveEntry digest state config).1.lookup id = state.1.lookup id :=
        Finmap.lookup_erase_ne (Ne.symm same)
      have other : (moveEntry digest state config).2.lookup id = state.2.lookup id :=
        Finmap.lookup_insert_of_ne _ (Ne.symm same)
      have counted : (listedIds digest (config :: rest)).count id = (listedIds digest rest).count id :=
        List.count_cons_of_ne same
      rw [kept, other, counted]

theorem standing_rebuilt_twice (keys : Named KeyState) (next previous : List ApiKeyConfig)
    (found : keys.lookup id = some entry) (listed : id ∈ listedIds digest previous) :
    ((replaceConfigs digest (replaceConfigs digest keys next) previous).lookup id).map standing =
      some (if (listedIds digest next).count id = 1 ∧ (listedIds digest previous).count id = 1 then
        standing entry else ({}, 0)) := by
  have first := standing_moved digest next (keys, ∅) id
  have second := standing_moved digest previous (replaceConfigs digest keys next, ∅) id
  rw [← replaceConfigs_moves] at first second
  rw [second]
  cases back : (listedIds digest previous).count id with
  | zero => exact absurd listed (List.count_eq_zero.mp back)
  | succ n =>
    cases n with
    | succ n => simp
    | zero =>
      rw [first]
      cases there : (listedIds digest next).count id with
      | zero => simp
      | succ n =>
        cases n with
        | zero => simp [found]
        | succ n => simp

end Rebuild

/-! ### The daemon's state -/

section State

variable (digest : String → List UInt8)

/-- `config` is the shared handle, `runtimeConfig` the snapshot that was last applied. The key
table and the daily limit are those of the snapshot. -/
structure AppState where
  config : Config
  runtimeConfig : Config
  meter : Meter
  accounts : AccountStore
  admissionMaximum : Nat
  connectionsMaximum : Nat
  keyed : ∀ id, (meter.keys.lookup id).map (·.config) = lastListed digest runtimeConfig.apiKey id
  limited : meter.service.limit = max runtimeConfig.pool.dailyCreditLimit 0

end State

section Transaction

variable {digest : String → List UInt8}

def AppState.build (orders : String → Orders) (today : String) (persisted : Persisted)
    (config : Config) (accounts : AccountStore) : Except String (AppState digest) := do
  validateServiceAccountReferences config accounts.accounts
  let meter := Metering.load digest orders today persisted config.apiKey
  return {
    config := config
    runtimeConfig := config
    meter := { meter with service := setDailyLimit config.pool.dailyCreditLimit meter.service }
    accounts := { accounts with
      compressionThreshold := config.storage.compressionThreshold
      incrementalWrite := config.storage.incrementalWrite }
    admissionMaximum := max config.server.maxConcurrentRequests 1
    connectionsMaximum := max config.server.maxConnections 1
    keyed := load_keyed digest orders today persisted config.apiKey
    limited := rfl }

def AppState.replaceHandle (state : AppState digest) (config : Config) : AppState digest :=
  { state with config := config }

def AppState.applyRuntimeConfig (state : AppState digest) (next : Config) : AppState digest where
  config := state.config
  runtimeConfig := next
  meter := { state.meter with
    keys := replaceConfigs digest state.meter.keys next.apiKey
    service := setDailyLimit next.pool.dailyCreditLimit state.meter.service }
  accounts := { state.accounts with
    compressionThreshold := next.storage.compressionThreshold
    incrementalWrite := next.storage.incrementalWrite }
  admissionMaximum := max next.server.maxConcurrentRequests 1
  connectionsMaximum := max next.server.maxConnections 1
  keyed := replaceConfigs_keyed digest state.meter.keys next.apiKey
  limited := rfl

/-- What the provider manager and the listeners answer, for the change and for its rollback. -/
structure Reconciliation where
  providers : Except String Unit := .ok ()
  services : List (String × String) := []
  providersBack : Except String Unit := .ok ()
  servicesBack : List (String × String) := []

def providerError (error : String) : Except String Unit → String
  | .error rollbackError =>
    s!"provider apply failed ({error}); provider rollback also failed: {rollbackError}"
  | .ok () => "provider apply failed; previous config restored: " ++ error

def serviceError (reconciled : Reconciliation) : String :=
  match reconciled.servicesBack, reconciled.providersBack with
  | [], .ok () =>
    "proxy service apply failed; previous config restored: " ++ formatServiceFailures reconciled.services
  | failures, providers =>
    s!"proxy service apply failed ({formatServiceFailures reconciled.services}); " ++
      s!"rollback also failed: services={formatServiceFailures failures}, " ++
      "providers=" ++ (match providers with | .ok () => "ok" | .error error => error)

def AppState.install (state : AppState digest) (config : Config) : AppState digest :=
  (state.replaceHandle config).applyRuntimeConfig config

def AppState.validateChange (state : AppState digest) (next : Config) : Except String Unit := do
  validateServiceAccountTagTransitions state.runtimeConfig next
  validateServiceAccountReferences next state.accounts.accounts

def AppState.applyConfigTransaction (state : AppState digest) (next : Config)
    (reconciled : Reconciliation) : AppState digest × Except String Unit :=
  let previous := state.runtimeConfig
  match state.validateChange next with
  | .error error => (state, .error error)
  | .ok () =>
    let applied := state.install next
    match reconciled.providers with
    | .error error => (applied.install previous, .error (providerError error reconciled.providersBack))
    | .ok () =>
      match reconciled.services with
      | [] => (applied, .ok ())
      | _ :: _ => (applied.install previous, .error (serviceError reconciled))

theorem transaction_cases (state : AppState digest) (next : Config) (reconciled : Reconciliation) :
    (∃ error, state.validateChange next = .error error ∧
      state.applyConfigTransaction next reconciled = (state, .error error)) ∨
    (state.validateChange next = .ok () ∧ reconciled.providers = .ok () ∧ reconciled.services = [] ∧
      state.applyConfigTransaction next reconciled = (state.install next, .ok ())) ∨
    (state.validateChange next = .ok () ∧
      (reconciled.providers = .ok () → reconciled.services ≠ []) ∧ ∃ error,
      state.applyConfigTransaction next reconciled =
        ((state.install next).install state.runtimeConfig, .error error)) := by
  unfold AppState.applyConfigTransaction
  cases checked : state.validateChange next with
  | error error => exact .inl ⟨error, rfl, rfl⟩
  | ok _ =>
    right
    cases provided : reconciled.providers with
    | error error =>
      right
      refine ⟨rfl, fun ok => ?_, _, rfl⟩
      cases ok
    | ok _ =>
      cases served : reconciled.services with
      | nil => exact .inl ⟨rfl, rfl, rfl, rfl⟩
      | cons failure rest =>
        right
        exact ⟨rfl, fun _ => List.cons_ne_nil failure rest, _, rfl⟩

/-! ### What a failed change leaves -/

structure Restored (before after : AppState digest) : Prop where
  keys : ∀ id entry, before.meter.keys.lookup id = some entry →
    ∃ kept, after.meter.keys.lookup id = some kept ∧ kept.usage = entry.usage ∧
      kept.reserved = entry.reserved ∧ kept.config.creditsLimit = entry.config.creditsLimit
  limit : after.meter.service.limit = before.meter.service.limit
  handle : after.config = before.config
  snapshot : after.runtimeConfig = before.runtimeConfig

/-- Every key is listed once on the way there and once on the way back, or has nothing to lose. -/
def KeysOutlast (state : AppState digest) (next : Config) : Prop :=
  ∀ id entry, state.meter.keys.lookup id = some entry →
    ((listedIds digest next.apiKey).count id = 1 ∧
      (listedIds digest state.runtimeConfig.apiKey).count id = 1) ∨
    (entry.usage = {} ∧ entry.reserved = 0)

theorem AppState.listed {state : AppState digest} (found : state.meter.keys.lookup id = some entry) :
    id ∈ listedIds digest state.runtimeConfig.apiKey := by
  have last : lastListed digest state.runtimeConfig.apiKey id = some entry.config := by
    rw [← state.keyed id, found]
    rfl
  have member := List.mem_reverse.mp (List.mem_of_find?_eq_some last)
  have named := List.find?_some last
  exact List.mem_map.mpr ⟨entry.config, member, of_decide_eq_true named⟩

/-- A key after the change and its rollback: the same configuration, and its old standing only
if both lists name it once. -/
theorem AppState.lookup_rolledBack {state : AppState digest} (next : Config)
    (found : state.meter.keys.lookup id = some entry) :
    ∃ kept, ((state.install next).install state.runtimeConfig).meter.keys.lookup id = some kept ∧
      kept.config = entry.config ∧ standing kept =
        if (listedIds digest next.apiKey).count id = 1 ∧
            (listedIds digest state.runtimeConfig.apiKey).count id = 1 then
          standing entry else ({}, 0) := by
  have stands := standing_rebuilt_twice digest state.meter.keys next.apiKey
    state.runtimeConfig.apiKey found (AppState.listed found)
  obtain ⟨kept, here, stood⟩ := Option.map_eq_some_iff.mp stands
  have configured := ((state.install next).install state.runtimeConfig).keyed id
  have before := state.keyed id
  rw [found] at before
  rw [show ((state.install next).install state.runtimeConfig).meter.keys.lookup id = some kept from here]
    at configured
  refine ⟨kept, here, ?_, stood⟩
  exact Option.some.inj (configured.trans before.symm)

theorem AppState.rolledBack_keys (state : AppState digest) (next : Config) :
    (∀ id entry, state.meter.keys.lookup id = some entry →
      ∃ kept, ((state.install next).install state.runtimeConfig).meter.keys.lookup id = some kept ∧
        kept.usage = entry.usage ∧ kept.reserved = entry.reserved ∧
        kept.config.creditsLimit = entry.config.creditsLimit) ↔ KeysOutlast state next := by
  constructor
  · intro restored id entry found
    obtain ⟨kept, here, used, reserved, _⟩ := restored id entry found
    obtain ⟨same, there, _, stood⟩ := state.lookup_rolledBack next found
    cases here.symm.trans there
    split at stood
    · rename_i once
      exact .inl once
    · right
      have both := Prod.mk.inj stood
      exact ⟨used.symm.trans both.1, reserved.symm.trans both.2⟩
  · intro outlast id entry found
    obtain ⟨kept, here, configured, stood⟩ := state.lookup_rolledBack next found
    have stands : standing kept = standing entry := by
      rcases outlast id entry found with once | ⟨unused, free⟩
      · rw [stood, if_pos once]
      · have empty : standing entry = ({}, 0) := Prod.ext unused free
        rw [stood, empty, ite_self]
    have both := Prod.mk.inj stands
    exact ⟨kept, here, both.1, both.2, congrArg ApiKeyConfig.creditsLimit configured⟩

theorem AppState.rolledBack_restored (state : AppState digest) (next : Config) :
    Restored state ((state.install next).install state.runtimeConfig) ↔
      state.config = state.runtimeConfig ∧ KeysOutlast state next := by
  constructor
  · intro restored
    exact ⟨restored.handle.symm, (state.rolledBack_keys next).mp restored.keys⟩
  · rintro ⟨synced, outlast⟩
    exact {
      keys := (state.rolledBack_keys next).mpr outlast
      limit := state.limited.symm
      handle := synced.symm
      snapshot := rfl }

theorem Restored.refl (state : AppState digest) : Restored state state where
  keys := fun _ entry found => ⟨entry, found, rfl, rfl, rfl⟩
  limit := rfl
  handle := rfl
  snapshot := rfl

/-- A change that fails leaves metering alone exactly when it is refused beforehand or does not
fail at all, or when every key outlasts both rebuilds. -/
theorem failed_change_restores (state : AppState digest) (next : Config) (reconciled : Reconciliation) :
    (∀ error, (state.applyConfigTransaction next reconciled).2 = .error error →
      Restored state (state.applyConfigTransaction next reconciled).1) ↔
    ((∃ error, state.validateChange next = .error error) ∨
      (reconciled.providers = .ok () ∧ reconciled.services = []) ∨
      (state.config = state.runtimeConfig ∧ KeysOutlast state next)) := by
  rcases transaction_cases state next reconciled with
    ⟨refused, checked, done⟩ | ⟨_, provided, served, done⟩ | ⟨checked, unreconciled, error, done⟩
  · rw [done]
    constructor
    · exact fun _ => .inl ⟨refused, checked⟩
    · exact fun _ _ _ => Restored.refl state
  · rw [done]
    constructor
    · exact fun _ => .inr (.inl ⟨provided, served⟩)
    · exact fun _ error failed => nomatch failed
  · rw [done]
    constructor
    · intro restores
      exact .inr (.inr ((state.rolledBack_restored next).mp (restores error rfl)))
    · rintro (⟨refused, failed⟩ | ⟨provided, served⟩ | outlast) _ _
      · rw [checked] at failed
        cases failed
      · exact absurd served (unreconciled provided)
      · exact (state.rolledBack_restored next).mpr outlast

end Transaction

/-! ### A spent key that can spend again -/

/-- The daemon runs with one key under a limit of ten credits, six of them used. -/
def spentKey : AppState fun _ => [] where
  config := { apiKey := [Metering.limitedKey] }
  runtimeConfig := { apiKey := [Metering.limitedKey] }
  meter :=
    { keys := Finmap.singleton "k"
        { id := "k", config := Metering.limitedKey, usage := { totalCredits := 6 }, reserved := 0 }
      service := { day := "2026-01-01" }
      recoveryError := none }
  accounts := {}
  admissionMaximum := 500
  connectionsMaximum := 2000
  keyed := by
    intro id
    by_cases same : id = "k"
    · subst same
      rfl
    · rw [Finmap.lookup_eq_none.mpr (fun member => same (Finmap.mem_singleton id "k" _ |>.mp member))]
      simp [lastListed, configId, Metering.limitedKey, Ne.symm same]
  limited := rfl

def keyDropped : Config where
  proxyService := [{ id := "s", name := "api" }]

def portTaken : Reconciliation where
  services := [("s", "address in use")]

theorem failed_change_forgives_usage :
    (spentKey.applyConfigTransaction keyDropped portTaken).2 =
      .error "proxy service apply failed; previous config restored: s: address in use" ∧
    (spentKey.meter.keys.lookup "k").map (fun state => (state.config.creditsLimit, state.usage.totalCredits)) =
      some (some 10, 6) ∧
    ((spentKey.applyConfigTransaction keyDropped portTaken).1.meter.keys.lookup "k").map
      (fun state => (state.config.creditsLimit, state.usage.totalCredits)) = some (some 10, 0) ∧
    ¬ Restored spentKey (spentKey.applyConfigTransaction keyDropped portTaken).1 := by
  have before : (spentKey.meter.keys.lookup "k").map
      (fun state => (state.config.creditsLimit, state.usage.totalCredits)) = some (some 10, 6) := by
    decide
  have after : ((spentKey.applyConfigTransaction keyDropped portTaken).1.meter.keys.lookup "k").map
      (fun state => (state.config.creditsLimit, state.usage.totalCredits)) = some (some 10, 0) := by
    decide
  refine ⟨by decide, before, after, fun restored => ?_⟩
  obtain ⟨entry, found, counted⟩ := Option.map_eq_some_iff.mp before
  obtain ⟨kept, here, used, _⟩ := restored.keys "k" entry found
  rw [here, Option.map_some, used] at after
  have six := (Prod.mk.inj counted).2
  have none := (Prod.mk.inj (Option.some.inj after)).2
  exact absurd (none.symm.trans six) (by decide)

end KiroProxy.ConfigTransaction

import KiroProxy.Daemon.Usage
import Mathlib.Algebra.Order.Field.Rat

/-! API-key and service credit reservations. Credits are rationals. A call of the meter is
a sequence of critical sections, one per mutex it takes; the sections are the functions
below and `step` interleaves them. -/
namespace KiroProxy.Metering

open Usage (ApiKeyUsage UsageRecord Named Orders)

inductive MeterError where
  | unauthorized
  | limitExceeded
  | dailyLimitExceeded
  | persist (detail : String)
  deriving DecidableEq, Repr

def MeterError.message : MeterError → String
  | .unauthorized => "invalid API key"
  | .limitExceeded => "API key credit limit exceeded"
  | .dailyLimitExceeded => "service daily credit limit exceeded"
  | .persist detail => s!"usage persistence failed: {detail}"

structure ApiKeyConfig where
  id : Option String := none
  name : String := ""
  key : String := ""
  creditsLimit : Option Rat := none
  deriving DecidableEq

structure KeyState where
  id : String
  config : ApiKeyConfig
  usage : ApiKeyUsage
  reserved : Rat

structure ServiceDailyUsage where
  day : String := ""
  used : Rat := 0

structure Persisted where
  apiKeys : Named ApiKeyUsage := ∅
  serviceDaily : ServiceDailyUsage := {}

structure ServiceCreditState where
  day : String
  used : Rat := 0
  reserved : Rat := 0
  limit : Rat := 0

structure Meter where
  keys : Named KeyState
  service : ServiceCreditState
  recoveryError : Option String

structure CreditReservation where
  keyId : Option String
  estimate : Rat
  deriving DecidableEq

/-! ### Loading -/

section Ids

/- The digest of a key is the hash function's; nothing here depends on its values. -/
variable (digest : String → List UInt8)

def hexByte (byte : UInt8) : String :=
  let digits := Nat.toDigits 16 byte.toNat
  String.ofList (List.replicate (2 - digits.length) '0' ++ digits)

def keyId (key : String) : String :=
  ((digest key).take 8).foldl (fun output byte => output ++ hexByte byte) "ak_"

def legacyKeyId (key : String) : String :=
  "ak_" ++ hexByte ((digest key).getD 0 0) ++ hexByte ((digest key).getD 1 0)

def configId (config : ApiKeyConfig) : String := config.id.getD (keyId digest config.key)

def persistedUsage (persisted : Persisted) (config : ApiKeyConfig) : ApiKeyUsage :=
  match persisted.apiKeys.lookup (configId digest config) with
  | some usage => usage
  | none =>
    if config.id.isNone then
      (persisted.apiKeys.lookup (legacyKeyId digest config.key)).getD {}
    else {}

def loadKey (orders : String → Orders) (persisted : Persisted) (config : ApiKeyConfig) : KeyState :=
  let id := configId digest config
  { id := id, config := config
    usage := (persistedUsage digest persisted config).restart (orders id), reserved := 0 }

def load (orders : String → Orders) (today : String) (persisted : Persisted)
    (configs : List ApiKeyConfig) : Meter :=
  { keys := configs.foldl (fun keys config =>
      keys.insert (configId digest config) (loadKey digest orders persisted config)) ∅
    service :=
      { day := today
        used := if persisted.serviceDaily.day = today then max persisted.serviceDaily.used 0 else 0 }
    recoveryError := none }

/-- A key keeps usage and reservations across a reload only as long as it stays listed. -/
def replaceConfigs (keys : Named KeyState) (configs : List ApiKeyConfig) : Named KeyState :=
  (configs.foldl (fun (state : Named KeyState × Named KeyState) config =>
    let id := configId digest config
    let kept := (state.1.lookup id).map (fun state => (state.usage, state.reserved))
    let (usage, reserved) := kept.getD ({}, 0)
    (state.1.erase id, state.2.insert id { id, config, usage, reserved })) (keys, ∅)).2

end Ids

/-! ### Critical sections -/

def resetServiceDayIfNeeded (today : String) (service : ServiceCreditState) : ServiceCreditState :=
  if service.day ≠ today then { service with day := today, used := 0 } else service

/-- Takes capacity for a reservation or an extension. The day is reset even on refusal. -/
def holdService (today : String) (amount : Rat) (service : ServiceCreditState) :
    ServiceCreditState × Except MeterError Unit :=
  let service := resetServiceDayIfNeeded today service
  if service.limit > 0 ∧ service.used + service.reserved + amount > service.limit then
    (service, .error .dailyLimitExceeded)
  else ({ service with reserved := service.reserved + amount }, .ok ())

def releaseService (amount : Rat) (service : ServiceCreditState) : ServiceCreditState :=
  { service with reserved := max (service.reserved - amount) 0 }

def settleService (today : String) (estimate credits : Rat) (service : ServiceCreditState) :
    ServiceCreditState :=
  let service := releaseService estimate (resetServiceDayIfNeeded today service)
  { service with used := service.used + max credits 0 }

def holdKey (id : String) (amount : Rat) (keys : Named KeyState) : Except MeterError (Named KeyState) :=
  match keys.lookup id with
  | none => .error .unauthorized
  | some state =>
    if state.config.creditsLimit.any
        (fun limit => decide (state.usage.totalCredits + state.reserved + amount > limit)) then
      .error .limitExceeded
    else .ok (keys.insert id { state with reserved := state.reserved + amount })

/-- The entry that a reservation names; a key that is gone by then is not missed. -/
def changeKey (keyId : Option String) (change : KeyState → KeyState) (keys : Named KeyState) :
    Named KeyState :=
  match keyId with
  | none => keys
  | some id => match keys.lookup id with
    | none => keys
    | some state => keys.insert id (change state)

def KeyState.lower (amount : Rat) (state : KeyState) : KeyState :=
  { state with reserved := max (state.reserved - amount) 0 }

def KeyState.settle (estimate : Rat) (record : UsageRecord) (state : KeyState) : KeyState :=
  { state.lower estimate with usage := state.usage.add record }

def releaseKey (keyId : Option String) (amount : Rat) (keys : Named KeyState) : Named KeyState :=
  changeKey keyId (KeyState.lower amount) keys

def settleKey (keyId : Option String) (estimate : Rat) (record : UsageRecord)
    (keys : Named KeyState) : Named KeyState :=
  changeKey keyId (KeyState.settle estimate record) keys

def setDailyLimit (limit : Rat) (service : ServiceCreditState) : ServiceCreditState :=
  { service with limit := max limit 0 }

def resetDaily (today : String) (service : ServiceCreditState) : ServiceCreditState :=
  { service with day := today, used := 0 }

/-- `found` is the first entry that the search by id or name meets. -/
def resetUsage (idOrName found : String) (keys : Named KeyState) : Named KeyState :=
  match keys.lookup found with
  | none => keys
  | some state =>
    if state.id = idOrName ∨ state.config.name = idOrName then
      keys.insert found { state with usage := {} }
    else keys

/-! ### The interleaved system -/

/-- A call between two of its critical sections, under the section that comes next. -/
inductive Call where
  | reserveKey (keyId : Option String) (estimate : Rat)
  | reserveUndo (estimate : Rat)
  | extendKey (reservation : CreditReservation) (additional : Rat)
  | extendUndo (reservation : CreditReservation) (additional : Rat)
  | settleKey (reservation : CreditReservation) (record : UsageRecord)
  | dropKey (reservation : CreditReservation)

/-- `reservations` are those their holders may use next, `today` is the clock's day. -/
structure System where
  meter : Meter
  today : String
  reservations : List CreditReservation := []
  calls : List Call := []

inductive Action where
  | reserve (keyId : Option String) (estimate : Rat)
  | extend (n : Nat) (additional : Rat)
  | settle (n : Nat) (record : UsageRecord)
  | drop (n : Nat)
  | advance (n : Nat)
  | setDailyLimit (limit : Rat)
  | resetDaily
  | resetUsage (idOrName found : String)
  | replaceConfigs (configs : List ApiKeyConfig)
  | newDay (day : String)

def System.withService (s : System) (service : ServiceCreditState) : System :=
  { s with meter := { s.meter with service := service } }

def System.withKeys (s : System) (keys : Named KeyState) : System :=
  { s with meter := { s.meter with keys := keys } }

def System.begin (s : System) (call : Call) : System := { s with calls := s.calls ++ [call] }

def System.returns (s : System) (reservation : CreditReservation) : System :=
  { s with reservations := s.reservations ++ [reservation] }

def reserve (s : System) (keyId : Option String) (estimate : Rat) : System :=
  if s.meter.recoveryError.isSome then s
  else
    let estimate := max estimate 0
    match holdService s.today estimate s.meter.service with
    | (service, .error _) => s.withService service
    | (service, .ok _) => (s.withService service).begin (.reserveKey keyId estimate)

def extend (s : System) (n : Nat) (additional : Rat) : System :=
  match s.reservations[n]? with
  | none => s
  | some reservation =>
    let additional := max additional 0
    if additional = 0 then s
    else match holdService s.today additional s.meter.service with
      | (service, .error _) => s.withService service
      | (service, .ok _) =>
        ({ s with reservations := s.reservations.eraseIdx n }.withService service).begin
          (.extendKey reservation additional)

def settle (s : System) (n : Nat) (record : UsageRecord) : System :=
  match s.reservations[n]? with
  | none => s
  | some reservation =>
    ({ s with reservations := s.reservations.eraseIdx n }.withService
      (settleService s.today reservation.estimate record.credits s.meter.service)).begin
        (.settleKey reservation record)

def dropReservation (s : System) (n : Nat) : System :=
  match s.reservations[n]? with
  | none => s
  | some reservation =>
    ({ s with reservations := s.reservations.eraseIdx n }.withService
      (releaseService reservation.estimate s.meter.service)).begin (.dropKey reservation)

def nextSection (s : System) : Call → System
  | .reserveKey none estimate => s.returns ⟨none, estimate⟩
  | .reserveKey (some id) estimate => match holdKey id estimate s.meter.keys with
    | .error _ => s.begin (.reserveUndo estimate)
    | .ok keys => (s.withKeys keys).returns ⟨some id, estimate⟩
  | .reserveUndo estimate => s.withService (releaseService estimate s.meter.service)
  | .extendKey reservation additional => match reservation.keyId with
    | none => s.returns { reservation with estimate := reservation.estimate + additional }
    | some id => match holdKey id additional s.meter.keys with
      | .error _ => s.begin (.extendUndo reservation additional)
      | .ok keys => (s.withKeys keys).returns
          { reservation with estimate := reservation.estimate + additional }
  | .extendUndo reservation additional =>
    (s.withService (releaseService additional s.meter.service)).returns reservation
  | .settleKey reservation record =>
    s.withKeys (settleKey reservation.keyId reservation.estimate record s.meter.keys)
  | .dropKey reservation => s.withKeys (releaseKey reservation.keyId reservation.estimate s.meter.keys)

def advance (s : System) (n : Nat) : System :=
  match s.calls[n]? with
  | none => s
  | some call => nextSection { s with calls := s.calls.eraseIdx n } call

def step (digest : String → List UInt8) (s : System) : Action → System
  | .reserve keyId estimate => reserve s keyId estimate
  | .extend n additional => extend s n additional
  | .settle n record => settle s n record
  | .drop n => dropReservation s n
  | .advance n => advance s n
  | .setDailyLimit limit => s.withService (setDailyLimit limit s.meter.service)
  | .resetDaily => s.withService (resetDaily s.today s.meter.service)
  | .resetUsage idOrName found => s.withKeys (resetUsage idOrName found s.meter.keys)
  | .replaceConfigs configs => s.withKeys (replaceConfigs digest s.meter.keys configs)
  | .newDay day => { s with today := day }

/-- A freshly loaded meter: nobody holds a reservation and no call is under way. -/
def start (digest : String → List UInt8) (orders : String → Orders) (today : String)
    (persisted : Persisted) (configs : List ApiKeyConfig) : System :=
  { meter := load digest orders today persisted configs, today := today }

end KiroProxy.Metering

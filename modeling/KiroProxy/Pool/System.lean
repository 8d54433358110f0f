import KiroProxy.Lib.Run
import KiroProxy.Pool.Account

/-! The account pool under concurrent calls. Every access to shared state is one step of one
call, and a call can be cancelled where it awaits. The read lock that a scan holds on the
account map, and the mutexes inside of an account, are left out, so that the model has more
interleavings than the code; `replace_accounts`, which excludes all others by its write lock,
is one step. The score order of the candidates depends on doubles and on random jitter; each
scan is given an arbitrary order. -/
namespace KiroProxy.Pool

inductive PoolError where
  | noAvailableAccount (model : String)
  | queueFull
  | queueTimeout
  deriving DecidableEq, Repr

structure Request where
  model : String
  preferIds : List String
  deriving DecidableEq, Repr

/-- What a call inside of the queue carries: how it was admitted, and how long it waits. -/
structure Ticket where
  overflow : Bool
  wait : Nat
  deadline : Nat
  deriving DecidableEq, Repr

/-- Why the candidates are collected: to see whether there are any, for the first attempt, or
for another attempt from inside of the queue. -/
inductive Stage where
  | probe | attempt | retry (ticket : Ticket)
  deriving DecidableEq, Repr

inductive Outcome where
  | lease (cell : Nat)
  | failed (error : PoolError)
  | cancelled
  deriving DecidableEq, Repr

/-- Where a call stands, by the access that comes next. A lease is alive from the access that
takes its slot to the one that gives it back. -/
inductive Call where
  | listing (model : String) (excludedIds : List String)
  | opening (stage : Stage) (request : Request)
  | scanning (stage : Stage) (request : Request) (rest found : List Nat)
  | checking (stage : Stage) (request : Request) (cell : Nat) (check : Check) (rest found : List Nat)
  | limiting (stage : Stage) (request : Request) (found : List Nat)
  | picking (stage : Stage) (request : Request) (maximum : Nat) (rest : List Nat)
  | configuring (request : Request)
  | entering (request : Request) (config : PoolConfig)
  | admitted (request : Request) (config : PoolConfig) (position : Nat)
  | polling (request : Request) (ticket : Ticket)
  | waiting (request : Request) (ticket : Ticket) (seen : Nat)
  | leaving (overflow : Bool) (outcome : Outcome)
  | leased (cell : Nat)
  | resolving (id : String) (report : Report)
  | reporting (cell : Nat) (report : Report)
  | replacing (accounts : List Account)
  | updating (config : PoolConfig)
  | notifying
  | done (outcome : Option Outcome)
  deriving DecidableEq, Repr

/-- The state that the calls share; `accounts` maps ids to cells in insertion order, and a
cell stays after its account has been replaced, as long as leases point to it. -/
structure Shared where
  cells : List AccountState
  accounts : List (String × Nat)
  config : PoolConfig
  queued : Nat := 0
  notified : Nat := 0
  clock : Nat := 0
  deriving DecidableEq, Repr

/-- `IndexMap::insert`: a known key keeps its place. -/
def insertIndex (map : List (String × Nat)) (id : String) (cell : Nat) : List (String × Nat) :=
  if map.any (·.1 = id) then map.map fun entry => if entry.1 = id then (id, cell) else entry
  else map ++ [(id, cell)]

namespace Shared

def modify (s : Shared) (cell : Nat) (f : AccountState → AccountState) : Shared :=
  { s with cells := s.cells.modify cell f }

/-- `Notify::notify_waiters`: whoever registered before sees the count move. -/
def notifyWaiters (s : Shared) : Shared := { s with notified := s.notified + 1 }

def replaceOne (current : List (String × Nat)) (s : Shared × List (String × Nat)) (account : Account) :
    Shared × List (String × Nat) :=
  match current.lookup account.id with
  | some cell => (s.1.modify cell fun state => { state with account := account }, insertIndex s.2 account.id cell)
  | none => ({ s.1 with cells := s.1.cells ++ [.new account] }, insertIndex s.2 account.id s.1.cells.length)

def replaceAccounts (s : Shared) (accounts : List Account) : Shared :=
  let (replaced, next) := accounts.foldl (replaceOne s.accounts) (s, [])
  { replaced with accounts := next }

end Shared

/-- The result of an acquire; inside of the queue the guard is dropped first. -/
def Stage.finish (stage : Stage) (outcome : Outcome) : Call :=
  match stage, outcome with
  | .retry ticket, outcome => .leaving ticket.overflow outcome
  | _, .lease cell => .leased cell
  | _, outcome => .done (some outcome)

/-- After a scan: the probe wants a candidate, the attempts go for a slot. -/
def Stage.scanned (stage : Stage) (request : Request) (found : List Nat) : Call :=
  match stage with
  | .probe =>
    if found.isEmpty then .done (some (.failed (.noAvailableAccount request.model))) else .opening .attempt request
  | stage => .limiting stage request found

def Stage.missed (stage : Stage) (request : Request) : Call :=
  match stage with
  | .retry ticket => .polling request ticket
  | _ => .configuring request

def ordered (order found : List Nat) : List Nat := if order.isPerm found then order else found

def overflowing (config : PoolConfig) (position : Nat) : Bool :=
  config.maxQueueSize = 0 || config.maxQueueSize ≤ position

def queueWait (config : PoolConfig) (position : Nat) : Nat :=
  if config.maxQueueSize = 0 then 0
  else if overflowing config position then config.queueFullWaitMs
  else config.maxQueueWaitMs

def startWait (clock : Nat) (request : Request) (config : PoolConfig) (position : Nat) : Call :=
  let overflow := overflowing config position
  if overflow ∧ config.queueFullWaitMs = 0 then .leaving overflow (.failed .queueFull)
  else
    let wait := queueWait config position
    .polling request { overflow := overflow, wait := wait, deadline := clock + wait }

def poll (s : Shared) (request : Request) (ticket : Ticket) : Call :=
  if ticket.wait = 0 then
    .leaving ticket.overflow (.failed (if ticket.overflow then .queueFull else .noAvailableAccount request.model))
  else if ticket.deadline ≤ s.clock then .leaving ticket.overflow (.failed .queueTimeout)
  else .waiting request ticket s.notified

/-- `timeout` looks at the notification before it looks at the time. -/
def wake (s : Shared) (request : Request) (ticket : Ticket) (seen : Nat) : Call :=
  if s.notified ≠ seen then .opening (.retry ticket) request
  else if ticket.deadline ≤ s.clock then .leaving ticket.overflow (.failed .queueTimeout)
  else .waiting request ticket seen

def afterReport (cell : Nat) (report : Report) : Option Report → Call
  | some next => .reporting cell next
  | none => if report = .resetCredit then .notifying else .done none

section Steps

variable (catalog : Catalog)

def Shared.advance (s : Shared) (order : List Nat) : Call → Shared × Call
  | .listing model excludedIds =>
    let ids := (s.accounts.filterMap fun entry => s.cells[entry.2]?.map (·.account.id)).filter (· ∉ excludedIds)
    (s, if ids.isEmpty then .done (some (.failed (.noAvailableAccount model)))
      else .opening .probe { model := model, preferIds := ids })
  | .opening stage request => (s, .scanning stage request (s.accounts.map (·.2)) [])
  | .scanning stage request [] found => (s, stage.scanned request found)
  | .scanning stage request (cell :: rest) found =>
    (s, match s.cells[cell]? with
      | none => .scanning stage request rest found
      | some state =>
        if request.preferIds ≠ [] ∧ state.account.id ∉ request.preferIds then .scanning stage request rest found
        else .checking stage request cell .fresh rest found)
  | .checking stage request cell check rest found =>
    match s.cells[cell]? with
    | none => (s, .scanning stage request rest found)
    | some state =>
      let (_, answer) := check.step catalog s.config s.clock request.model state
      (s.modify cell fun state => (check.step catalog s.config s.clock request.model state).1, match answer with
        | .inl next => .checking stage request cell next rest found
        | .inr eligible => .scanning stage request rest (if eligible then found ++ [cell] else found))
  | .limiting stage request found =>
    (s, .picking stage request s.config.maxConcurrentPerAccount (ordered order found))
  | .picking stage request _ [] => (s, stage.missed request)
  | .picking stage request maximum (cell :: rest) =>
    match s.cells[cell]?.bind (·.tryAcquireSlot maximum) with
    | some taken => (s.modify cell fun _ => taken, stage.finish (.lease cell))
    | none => (s, .picking stage request maximum rest)
  | .configuring request => (s, .entering request s.config)
  | .entering request config => ({ s with queued := s.queued + 1 }, .admitted request config s.queued)
  | .admitted request config position => (s, startWait s.clock request config position)
  | .polling request ticket => (s, poll s request ticket)
  | .waiting request ticket seen => (s, wake s request ticket seen)
  | .leaving _ outcome =>
    ({ s with queued := if s.queued = 0 then 2 ^ 64 - 1 else s.queued - 1 }, match outcome with
      | .lease cell => .leased cell
      | outcome => .done (some outcome))
  | .leased cell => (s.modify cell AccountState.releaseSlot, .notifying)
  | .resolving id report =>
    (s, match s.accounts.lookup id with
      | some cell => .reporting cell report
      | none => .done none)
  | .reporting cell report =>
    (s.modify cell fun state => (report.step s.config s.clock state).1,
      match s.cells[cell]? with
      | some state => afterReport cell report (report.step s.config s.clock state).2
      | none => .done none)
  | .replacing accounts => (s.replaceAccounts accounts, .notifying)
  | .updating config => ({ s with config := config }, .notifying)
  | .notifying => (s.notifyWaiters, .done none)
  | .done outcome => (s, .done outcome)

end Steps

/-- A call that is dropped where it awaits; inside of the queue its guard is dropped with it. -/
def Call.cancel : Call → Call
  | .opening stage _ | .scanning stage _ _ _ | .checking stage _ _ _ _ _ => stage.finish .cancelled
  | .waiting _ ticket _ => .leaving ticket.overflow .cancelled
  | .listing _ _ | .resolving _ _ | .reporting _ _ | .replacing _ => .done (some .cancelled)
  | call => call

inductive Operation where
  | acquire (model : String) (preferIds : List String)
  | acquireExcluding (model : String) (excludedIds : List String)
  | acquireScopedExcluding (model : String) (allowedIds excludedIds : List String)
  | recordSuccess (id : String)
  | recordError (id : String)
  | recordQuotaError (id : String)
  | markBanned (id : String)
  | resetHealth (id : String)
  | replaceAccounts (accounts : List Account)
  | updateConfig (config : PoolConfig)
  deriving DecidableEq, Repr

def Operation.call : Operation → Call
  | acquire model preferIds => .opening .probe { model := model, preferIds := preferIds }
  | acquireExcluding model excludedIds => .listing model excludedIds
  | acquireScopedExcluding model allowedIds excludedIds =>
    let ids := allowedIds.filter (· ∉ excludedIds)
    if ids.isEmpty then .done (some (.failed (.noAvailableAccount model)))
    else .opening .probe { model := model, preferIds := ids }
  | recordSuccess id => .resolving id .success
  | recordError id => .resolving id .error
  | recordQuotaError id => .resolving id .quota
  | markBanned id => .resolving id .ban
  | resetHealth id => .resolving id .resetHealth
  | replaceAccounts accounts => .replacing accounts
  | updateConfig config => .updating config

structure AccountPool where
  shared : Shared
  calls : List Call := []
  deriving DecidableEq, Repr

/-- `AccountPool::new` -/
def AccountPool.new (accounts : List Account) (config : PoolConfig) : AccountPool :=
  { shared := Shared.replaceAccounts { cells := [], accounts := [], config := config } accounts }

inductive Action where
  | start (operation : Operation)
  | advance (call : Nat) (order : List Nat)
  | cancel (call : Nat)
  | settle (call : Nat) (actual : Rat)
  | tick (ms : Nat)
  deriving DecidableEq, Repr

def step (catalog : Catalog) (pool : AccountPool) : Action → AccountPool
  | .start operation => { pool with calls := pool.calls ++ [operation.call] }
  | .advance i order =>
    match pool.calls[i]? with
    | none => pool
    | some call =>
      let (shared, next) := pool.shared.advance catalog order call
      { shared := shared, calls := pool.calls.set i next }
  | .cancel i =>
    match pool.calls[i]? with
    | none => pool
    | some call => { pool with calls := pool.calls.set i call.cancel }
  | .settle i actual =>
    match pool.calls[i]? with
    | some (.leased cell) =>
      { pool with shared := pool.shared.modify cell (·.settleCredits actual (pool.shared.clock / 1000)) }
    | _ => pool
  | .tick ms => { pool with shared := { pool.shared with clock := pool.shared.clock + ms } }

def reached (catalog : Catalog) (accounts : List Account) (config : PoolConfig) (actions : List Action) :
    AccountPool := Run.run (step catalog) (.new accounts config) actions

end KiroProxy.Pool

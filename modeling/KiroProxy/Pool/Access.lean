import KiroProxy.Pool.System

/-! All that a step can do, said once: the state it leaves behind, and where a call goes on.
What holds of the pool is read off from here, not from the code of the steps. -/
namespace KiroProxy.Pool

theorem replaceAccounts_elim {Q : Shared → Prop} {s : Shared} {accounts : List Account} (before : Q s)
    (one : ∀ made account, Q made.1 → Q (Shared.replaceOne s.accounts made account).1)
    (mapped : ∀ t accounts, Q t → Q { t with accounts := accounts }) : Q (s.replaceAccounts accounts) := by
  have folded : ∀ made : Shared × List (String × Nat), Q made.1 →
      Q (accounts.foldl (Shared.replaceOne s.accounts) made).1 := by
    induction accounts with
    | nil => exact fun _ start => start
    | cons account rest ih => exact fun made start => ih _ (one made account start)
  exact mapped _ _ (folded (s, []) before)

theorem replaceAccounts_rest (s : Shared) (accounts : List Account) :
    (s.replaceAccounts accounts).queued = s.queued ∧ (s.replaceAccounts accounts).config = s.config ∧
      (s.replaceAccounts accounts).notified = s.notified := by
  apply replaceAccounts_elim (Q := fun t => t.queued = s.queued ∧ t.config = s.config ∧ t.notified = s.notified)
    ⟨rfl, rfl, rfl⟩
  · intro made account same
    unfold Shared.replaceOne
    cases s.accounts.lookup account.id <;> exact same
  · exact fun _ _ same => same

/-! ### Where a call can go next

Each rule names the calls that a step can lead to, for any property of calls. -/

section Next

variable {Q : Call → Prop} {s : Shared} {request : Request} {ticket : Ticket}

theorem finish_elim {stage : Stage} {outcome : Outcome} (queued : ∀ overflow, Q (.leaving overflow outcome))
    (leased : ∀ cell, outcome = .lease cell → Q (.leased cell)) (done : Q (.done (some outcome))) :
    Q (stage.finish outcome) := by
  cases stage with
  | retry ticket => exact queued ticket.overflow
  | probe =>
    cases outcome with
    | lease cell => exact leased cell rfl
    | failed error => exact done
    | cancelled => exact done
  | attempt =>
    cases outcome with
    | lease cell => exact leased cell rfl
    | failed error => exact done
    | cancelled => exact done

theorem scanned_elim {stage : Stage} {found : List Nat}
    (empty : Q (.done (some (.failed (.noAvailableAccount request.model)))))
    (first : Q (.opening .attempt request)) (go : stage ≠ .probe → Q (.limiting stage request found)) :
    Q (stage.scanned request found) := by
  cases stage with
  | probe =>
    simp only [Stage.scanned]
    split
    · exact empty
    · exact first
  | attempt => exact go (by simp)
  | retry ticket => exact go (by simp)

theorem startWait_elim {clock position : Nat} {config : PoolConfig}
    (full : Q (.leaving (overflowing config position) (.failed .queueFull)))
    (waits : ∀ ticket, ticket.overflow = overflowing config position → Q (.polling request ticket)) :
    Q (startWait clock request config position) := by
  simp only [startWait]
  split
  · exact full
  · exact waits _ rfl

theorem poll_elim (gone : ∀ error, Q (.leaving ticket.overflow (.failed error)))
    (waits : Q (.waiting request ticket s.notified)) : Q (poll s request ticket) := by
  simp only [poll]
  split
  · exact gone _
  · split
    · exact gone _
    · exact waits

theorem wake_elim {seen : Nat} (woken : Q (.opening (.retry ticket) request))
    (gone : ∀ error, Q (.leaving ticket.overflow (.failed error))) (waits : Q (.waiting request ticket seen)) :
    Q (wake s request ticket seen) := by
  simp only [wake]
  split
  · exact woken
  · split
    · exact gone _
    · exact waits

theorem afterReport_elim {cell : Nat} {report : Report} {next : Option Report}
    (more : ∀ report, next = some report → Q (.reporting cell report)) (notify : Q .notifying)
    (done : Q (.done none)) : Q (afterReport cell report next) := by
  cases next with
  | some next => exact more next rfl
  | none =>
    simp only [afterReport]
    split
    · exact notify
    · exact done

theorem mem_ordered {order found : List Nat} {x : Nat} : x ∈ ordered order found ↔ x ∈ found := by
  unfold ordered
  split
  case isTrue perm => exact (List.isPerm_iff.mp perm).mem_iff
  case isFalse => rfl

end Next

/-! ### One access -/

variable (catalog : Catalog) (order : List Nat)

inductive Access (s : Shared) : Call → Shared → Call → Prop where
  | denied {model excludedIds} :
      Access s (.listing model excludedIds) s (.done (some (.failed (.noAvailableAccount model))))
  | listed {model excludedIds ids} :
      Access s (.listing model excludedIds) s (.opening .probe { model := model, preferIds := ids })
  | opened {stage request} :
      Access s (.opening stage request) s (.scanning stage request (s.accounts.map (·.2)) [])
  | scanned {stage request found} :
      Access s (.scanning stage request [] found) s (stage.scanned request found)
  | skipped {stage request cell rest found}
      (apart : ∀ state, s.cells[cell]? = some state →
        request.preferIds ≠ [] ∧ state.account.id ∉ request.preferIds) :
      Access s (.scanning stage request (cell :: rest) found) s (.scanning stage request rest found)
  | met {stage request cell rest found} :
      Access s (.scanning stage request (cell :: rest) found) s (.checking stage request cell .fresh rest found)
  | vanished {stage request cell check rest found} (gone : s.cells[cell]? = none) :
      Access s (.checking stage request cell check rest found) s (.scanning stage request rest found)
  | checked {stage request cell check next rest found} {state : AccountState} (here : s.cells[cell]? = some state)
      (answer : (check.step catalog s.config s.clock request.model state).2 = .inl next) :
      Access s (.checking stage request cell check rest found)
        (s.modify cell fun state => (check.step catalog s.config s.clock request.model state).1)
        (.checking stage request cell next rest found)
  | judged {stage request cell check eligible rest found} {state : AccountState} (here : s.cells[cell]? = some state)
      (answer : (check.step catalog s.config s.clock request.model state).2 = .inr eligible) :
      Access s (.checking stage request cell check rest found)
        (s.modify cell fun state => (check.step catalog s.config s.clock request.model state).1)
        (.scanning stage request rest (if eligible then found ++ [cell] else found))
  | limited {stage request found} :
      Access s (.limiting stage request found) s
        (.picking stage request s.config.maxConcurrentPerAccount (ordered order found))
  | missed {stage request maximum} : Access s (.picking stage request maximum []) s (stage.missed request)
  | full {stage request maximum cell rest} (busy : s.cells[cell]?.bind (·.tryAcquireSlot maximum) = none) :
      Access s (.picking stage request maximum (cell :: rest)) s (.picking stage request maximum rest)
  | taken {stage request maximum cell rest} {state taken : AccountState} (here : s.cells[cell]? = some state)
      (got : state.tryAcquireSlot maximum = some taken) :
      Access s (.picking stage request maximum (cell :: rest)) (s.modify cell fun _ => taken)
        (stage.finish (.lease cell))
  | configured {request} : Access s (.configuring request) s (.entering request s.config)
  | entered {request config} :
      Access s (.entering request config) { s with queued := s.queued + 1 } (.admitted request config s.queued)
  | admitted {request config position} :
      Access s (.admitted request config position) s (startWait s.clock request config position)
  | polled {request ticket} : Access s (.polling request ticket) s (poll s request ticket)
  | woken {request ticket seen} : Access s (.waiting request ticket seen) s (wake s request ticket seen)
  | left {overflow outcome} :
      Access s (.leaving overflow outcome) { s with queued := if s.queued = 0 then 2 ^ 64 - 1 else s.queued - 1 }
        (Stage.probe.finish outcome)
  | released {cell} : Access s (.leased cell) (s.modify cell AccountState.releaseSlot) .notifying
  | resolved {id report cell} (found : s.accounts.lookup id = some cell) :
      Access s (.resolving id report) s (.reporting cell report)
  | unknown {id report} : Access s (.resolving id report) s (.done none)
  | reported {cell report} {state : AccountState} (here : s.cells[cell]? = some state) :
      Access s (.reporting cell report) (s.modify cell fun state => (report.step s.config s.clock state).1)
        (afterReport cell report (report.step s.config s.clock state).2)
  | unreported {cell report} (gone : s.cells[cell]? = none) :
      Access s (.reporting cell report) (s.modify cell fun state => (report.step s.config s.clock state).1) (.done none)
  | replaced {accounts} : Access s (.replacing accounts) (s.replaceAccounts accounts) .notifying
  | updated {config} : Access s (.updating config) { s with config := config } .notifying
  | notified : Access s .notifying s.notifyWaiters (.done none)
  | finished {outcome} : Access s (.done outcome) s (.done outcome)

theorem advance_access (s : Shared) (call : Call) :
    Access catalog order s call (s.advance catalog order call).1 (s.advance catalog order call).2 := by
  cases call with
  | listing model excludedIds =>
    simp only [Shared.advance]
    split
    · exact .denied
    · exact .listed
  | opening stage request => exact .opened
  | scanning stage request rest found =>
    cases rest with
    | nil => exact .scanned
    | cons cell rest =>
      simp only [Shared.advance]
      split
      case h_1 gone => exact .skipped fun state here => by simp [gone] at here
      case h_2 state here =>
        split
        case isTrue apart =>
          refine .skipped fun other there => ?_
          rw [here, Option.some.injEq] at there
          exact there ▸ apart
        · exact .met
  | checking stage request cell check rest found =>
    simp only [Shared.advance]
    split
    case h_1 gone => exact .vanished gone
    case h_2 state here =>
      cases answer : (check.step catalog s.config s.clock request.model state).2 with
      | inl next => exact .checked here answer
      | inr eligible => exact .judged here answer
  | limiting stage request found => exact .limited
  | picking stage request maximum rest =>
    cases rest with
    | nil => exact .missed
    | cons cell rest =>
      simp only [Shared.advance]
      split
      case h_1 taken got =>
        obtain ⟨state, here, got⟩ := Option.bind_eq_some_iff.mp got
        exact .taken here got
      case h_2 busy => exact .full busy
  | configuring request => exact .configured
  | entering request config => exact .entered
  | admitted request config position => exact .admitted
  | polling request ticket => exact .polled
  | waiting request ticket seen => exact .woken
  | leaving overflow outcome => cases outcome <;> exact .left
  | leased cell => exact .released
  | resolving id report =>
    simp only [Shared.advance]
    split
    case h_1 cell found => exact .resolved found
    · exact .unknown
  | reporting cell report =>
    simp only [Shared.advance]
    split
    case h_1 state here => exact .reported here
    case h_2 gone => exact .unreported gone
  | replacing accounts => exact .replaced
  | updating config => exact .updated
  | notifying => exact .notified
  | done outcome => exact .finished

/-! ### One step -/

inductive Stepped (pool : AccountPool) : Action → AccountPool → Prop where
  | skipped {action} : Stepped pool action pool
  | started {operation} :
      Stepped pool (.start operation) { pool with calls := pool.calls ++ [operation.call] }
  | advanced {i order call t next} (here : pool.calls[i]? = some call)
      (access : Access catalog order pool.shared call t next) :
      Stepped pool (.advance i order) { shared := t, calls := pool.calls.set i next }
  | cancelled {i call} (here : pool.calls[i]? = some call) :
      Stepped pool (.cancel i) { pool with calls := pool.calls.set i call.cancel }
  | settled {i actual cell} (here : pool.calls[i]? = some (.leased cell)) :
      Stepped pool (.settle i actual)
        { pool with shared := pool.shared.modify cell (·.settleCredits actual (pool.shared.clock / 1000)) }
  | ticked {ms} :
      Stepped pool (.tick ms) { pool with shared := { pool.shared with clock := pool.shared.clock + ms } }

theorem step_stepped (pool : AccountPool) (action : Action) :
    Stepped catalog pool action (step catalog pool action) := by
  cases action with
  | start operation => exact .started
  | advance i order =>
    simp only [step]
    split
    · exact .skipped
    case h_2 call here => exact .advanced here (advance_access catalog order pool.shared call)
  | cancel i =>
    simp only [step]
    split
    · exact .skipped
    case h_2 call here => exact .cancelled here
  | settle i actual =>
    simp only [step]
    split
    case h_1 cell here => exact .settled here
    · exact .skipped
  | tick ms => exact .ticked

end KiroProxy.Pool

import KiroProxy.Pool.Slots
import KiroProxy.Pool.Identity

/-! How long a ban lasts. The health of an account is one value that several reports write
without looking at it first; a ban is over as soon as one of them has written. -/
namespace KiroProxy.Pool

open Run Census

/-- Between reading the health as cooling and writing it as available. -/
def Call.racing (c : Nat) : Call → Bool
  | .checking _ _ cell .cooling _ _ | .checking _ _ cell .expired _ _ | .reporting cell .successRecover => cell = c
  | .resolving _ .successRecover => true
  | _ => false

/-- The call neither resets the health of the account nor removes the account. -/
def Call.keeps (id : String) (c : Nat) : Call → Prop
  | .resolving other .resetHealth => other ≠ id
  | .reporting cell .resetHealth => cell ≠ c
  | .replacing accounts => ∃ account ∈ accounts, account.id = id
  | _ => True

/-- Nothing that the call is in the middle of lifts a ban unknowingly, or removes the account. -/
def Call.calm (id : String) (c : Nat) (call : Call) : Prop := call.racing c = false ∧ call.keeps id c

def Action.keeps (id : String) : Action → Prop
  | .start (.resetHealth other) => other ≠ id
  | .start (.replaceAccounts accounts) => ∃ account ∈ accounts, account.id = id
  | _ => True

/-- The next access of the call is the health write of `record_error` or of
`record_quota_error` on the cell. -/
def Call.overwrites (c : Nat) : Call → Bool
  | .reporting cell (.cool _) | .reporting cell .exhaust => cell = c
  | _ => false

def AccountPool.overwrites (pool : AccountPool) (c : Nat) : Action → Bool
  | .advance i _ => pool.calls[i]?.any (·.overwrites c)
  | _ => false

def Foreign (s : Shared) (id : String) (c : Nat) : Prop := ∃ other, s.idOf c = some other ∧ other ≠ id

def Call.avoids (s : Shared) (id : String) (c : Nat) : Call → Prop
  | .scanning _ _ rest found => (∀ x ∈ rest, x = c ∨ Foreign s id x) ∧ ∀ x ∈ found, Foreign s id x
  | .checking _ _ cell check rest found =>
    (cell = c ∧ (check = .fresh ∨ check = .gate) ∨ Foreign s id cell) ∧
      (∀ x ∈ rest, x = c ∨ Foreign s id x) ∧ ∀ x ∈ found, Foreign s id x
  | .limiting _ _ found => ∀ x ∈ found, Foreign s id x
  | .picking _ _ _ rest => ∀ x ∈ rest, Foreign s id x
  | .leased cell | .leaving _ (.lease cell) => Foreign s id cell
  | _ => True

/-! ### One access under a ban -/

section Banned

variable {catalog : Catalog} {order : List Nat} {s t : Shared} {call next : Call} {id : String} {c : Nat}

/-- The account is in the map, and its health is `Banned`. -/
structure Banned (s : Shared) (id : String) (c : Nat) : Prop where
  mapped : Mapped s
  own : s.accounts.lookup id = some c
  health : s.healthOf c = some .banned

theorem Banned.idOf (banned : Banned s id c) : s.idOf c = some id :=
  banned.mapped.ids id c (mem_of_lookup banned.own)

theorem Banned.state (banned : Banned s id c) : ∃ state, s.cells[c]? = some state ∧ state.health = .banned :=
  Option.map_eq_some_iff.mp banned.health

theorem Foreign.mono {x : Nat} (ids : ∀ c id, s.idOf c = some id → t.idOf c = some id)
    (foreign : Foreign s id x) : Foreign t id x := by
  obtain ⟨other, was, apart⟩ := foreign
  exact ⟨other, ids x other was, apart⟩

theorem Banned.cells (banned : Banned s id c) {x : Nat} (member : x ∈ s.accounts.map Prod.snd) :
    x = c ∨ Foreign s id x := by
  obtain ⟨⟨key, cell⟩, entry, rfl⟩ := List.mem_map.mp member
  rcases eq_or_ne key id with rfl | other
  · have found := lookup_of_mem banned.mapped.keys entry
    rw [banned.own, Option.some.injEq] at found
    exact .inl found.symm
  · exact .inr ⟨key, banned.mapped.ids key cell entry, other⟩

variable {cell : Nat} {report : Report}

section Checks

variable {config : PoolConfig} {now : Nat} {model : String} {check : Check} {state : AccountState}

theorem Check.step_health (calm : check ≠ .expired) (state : AccountState) :
    (check.step catalog config now model state).1.health = state.health := by
  cases check <;> first | rfl | exact absurd rfl calm

theorem Check.next_banned {next : Check} (here : state.health = .banned)
    (calm : check ≠ .cooling ∧ check ≠ .expired)
    (answer : (check.step catalog config now model state).2 = .inl next) : next = .gate := by
  cases check with
  | fresh => simpa [Check.step, here] using answer.symm
  | cooling => exact absurd rfl calm.1
  | expired => exact absurd rfl calm.2
  | gate => simp [Check.step, here] at answer
  | account => simp [Check.step] at answer

theorem Check.judges_banned {eligible : Bool} (here : state.health = .banned) (early : check = .fresh ∨ check = .gate)
    (answer : (check.step catalog config now model state).2 = .inr eligible) : eligible = false := by
  rcases early with rfl | rfl
  · simp [Check.step] at answer
  · simpa [Check.step, here] using answer.symm

theorem checking_calm {stage : Stage} {request : Request} {rest found : List Nat}
    (calm : (Call.checking stage request cell check rest found).racing c = false) (own : cell = c) :
    check ≠ .cooling ∧ check ≠ .expired := by
  constructor <;> rintro rfl <;> simp [Call.racing, own] at calm

end Checks

theorem Report.step_banned {config : PoolConfig} {now : Nat} {state : AccountState} (here : state.health = .banned)
    (calm : report ≠ .successRecover) (warm : ∀ duration, report ≠ .cool duration) (unspent : report ≠ .exhaust)
    (unreset : report ≠ .resetHealth) :
    (report.step config now state).1.health = .banned := by
  cases report <;> first | exact here | rfl | skip
  · exact absurd rfl calm
  · exact absurd rfl unspent
  · exact absurd rfl (warm _)
  · exact absurd rfl unreset

theorem healthOf_modify_at {f : AccountState → AccountState} {health : AccountHealth}
    (was : s.healthOf c = some health) (kept : cell = c → ∀ state, state.health = health → (f state).health = health) :
    (s.modify cell f).healthOf c = some health := by
  unfold Shared.healthOf at was ⊢
  rw [Shared.cells_modify]
  split
  case isTrue same =>
    obtain ⟨state, here, well⟩ := Option.map_eq_some_iff.mp was
    simp [here, kept same state well]
  case isFalse => exact was

theorem reporting_banned (banned : Banned s id c) (quiet : (Call.reporting cell report).calm id c)
    (unwritten : (Call.reporting cell report).overwrites c = false) :
    (s.modify cell fun state => (report.step s.config s.clock state).1).healthOf c = some .banned := by
  obtain ⟨calm, keeps⟩ := quiet
  apply healthOf_modify_at banned.health
  rintro rfl state here
  apply Report.step_banned here
  · rintro rfl
    simp [Call.racing] at calm
  · rintro duration rfl
    simp [Call.overwrites] at unwritten
  · rintro rfl
    simp [Call.overwrites] at unwritten
  · rintro rfl
    exact keeps rfl

theorem Access.banned (access : Access catalog order s call t next) (banned : Banned s id c) (quiet : call.calm id c)
    (unwritten : call.overwrites c = false) : Banned t id c := by
  refine ⟨access.mapped banned.mapped, ?_, ?_⟩
  · cases access with
    | replaced => exact (replaceAccounts_spec banned.mapped _).2.2.2 id c banned.own quiet.2
    | _ => exact banned.own
  · cases access with
    | checked here answer | judged here answer =>
      apply healthOf_modify_at banned.health
      intro same state well
      rw [Check.step_health (checking_calm quiet.1 same).2 state, well]
    | @taken stage request maximum cell rest state taken here got =>
      apply healthOf_modify_at banned.health
      rintro rfl _ _
      obtain ⟨found, there, well⟩ := banned.state
      rw [here, Option.some.injEq] at there
      rw [(tryAcquireSlot_account got).2, there, well]
    | released => exact healthOf_modify_at banned.health fun _ _ here => here
    | reported here => exact reporting_banned banned quiet unwritten
    | unreported => exact reporting_banned banned quiet unwritten
    | replaced => exact (replaceAccounts_spec banned.mapped _).2.2.1 c _ banned.health
    | _ => exact banned.health

theorem finish_calm (stage : Stage) (outcome : Outcome) : (stage.finish outcome).calm id c :=
  finish_elim (fun _ => ⟨rfl, trivial⟩) (fun _ _ => ⟨rfl, trivial⟩) ⟨rfl, trivial⟩

theorem afterReport_calm {config : PoolConfig} {now : Nat} {state : AccountState}
    (here : cell = c → state.health = .banned) :
    (afterReport cell report (report.step config now state).2).calm id c := by
  cases report with
  | successCheck =>
    simp only [Report.step]
    split
    case isTrue cooling =>
      refine ⟨?_, trivial⟩
      simp only [afterReport, Call.racing, decide_eq_false_iff_not]
      intro same
      rw [here same] at cooling
      cases cooling
    case isFalse => exact ⟨rfl, trivial⟩
  | quotaPush now config =>
    simp only [Report.step]
    split <;> exact ⟨rfl, trivial⟩
  | _ => exact ⟨rfl, trivial⟩

theorem Access.calm (access : Access catalog order s call t next) (banned : Banned s id c) (quiet : call.calm id c) :
    next.calm id c := by
  obtain ⟨own, there, well⟩ := banned.state
  cases access with
  | @checked stage request cell check next rest found state here answer =>
    refine ⟨?_, trivial⟩
    rcases eq_or_ne cell c with rfl | other
    · rw [here, Option.some.injEq] at there
      obtain rfl := Check.next_banned (there ▸ well) (checking_calm quiet.1 rfl) answer
      rfl
    · cases next <;> simp [Call.racing, other]
  | @resolved other report cell found =>
    cases report with
    | successRecover => exact absurd quiet.1 (by simp [Call.racing])
    | resetHealth =>
      refine ⟨rfl, ?_⟩
      rintro rfl
      have named := banned.mapped.ids other cell (mem_of_lookup found)
      rw [banned.idOf, Option.some.injEq] at named
      exact quiet.2 named.symm
    | _ => exact ⟨rfl, trivial⟩
  | reported here =>
    apply afterReport_calm
    rintro rfl
    rw [here, Option.some.injEq] at there
    rw [there, well]
  | scanned => exact scanned_elim ⟨rfl, trivial⟩ ⟨rfl, trivial⟩ fun _ => ⟨rfl, trivial⟩
  | @missed stage => cases stage <;> exact ⟨rfl, trivial⟩
  | taken here got => exact finish_calm _ _
  | left => exact finish_calm _ _
  | admitted => exact startWait_elim ⟨rfl, trivial⟩ fun _ _ => ⟨rfl, trivial⟩
  | polled => exact poll_elim (fun _ => ⟨rfl, trivial⟩) ⟨rfl, trivial⟩
  | woken => exact wake_elim ⟨rfl, trivial⟩ (fun _ => ⟨rfl, trivial⟩) ⟨rfl, trivial⟩
  | finished => exact quiet
  | _ => exact ⟨rfl, trivial⟩

theorem Access.avoids (access : Access catalog order s call t next) (banned : Banned s id c)
    (avoids : call.avoids s id c) : next.avoids s id c := by
  obtain ⟨own, there, well⟩ := banned.state
  cases access with
  | opened => exact ⟨fun x member => banned.cells member, fun x member => by simp at member⟩
  | scanned => exact scanned_elim trivial trivial fun _ => avoids.2
  | skipped => exact ⟨fun x member => avoids.1 x (List.mem_cons_of_mem _ member), avoids.2⟩
  | @met stage request cell rest found =>
    refine ⟨?_, fun x member => avoids.1 x (List.mem_cons_of_mem cell member), avoids.2⟩
    rcases avoids.1 cell List.mem_cons_self with same | foreign
    · exact .inl ⟨same, .inl rfl⟩
    · exact .inr foreign
  | vanished gone => exact avoids.2
  | @checked stage request cell check next rest found state here answer =>
    refine ⟨?_, avoids.2⟩
    rcases avoids.1 with ⟨rfl, early⟩ | foreign
    · rw [here, Option.some.injEq] at there
      have calm : check ≠ .cooling ∧ check ≠ .expired := by rcases early with rfl | rfl <;> simp
      exact .inl ⟨rfl, .inr (Check.next_banned (there ▸ well) calm answer)⟩
    · exact .inr foreign
  | @judged stage request cell check eligible rest found state here answer =>
    obtain ⟨place, later, clean⟩ := avoids
    refine ⟨later, ?_⟩
    rcases place with ⟨rfl, early⟩ | foreign
    · rw [here, Option.some.injEq] at there
      rw [Check.judges_banned (there ▸ well) early answer]
      exact clean
    · intro x member
      split at member
      · rcases List.mem_append.mp member with old | new
        · exact clean x old
        · exact List.mem_singleton.mp new ▸ foreign
      · exact clean x member
  | limited => exact fun x member => avoids x (mem_ordered.mp member)
  | @missed stage => cases stage <;> trivial
  | full busy => exact fun x member => avoids x (List.mem_cons_of_mem _ member)
  | @taken stage request maximum cell => cases stage <;> exact avoids cell List.mem_cons_self
  | admitted => exact startWait_elim trivial fun _ _ => trivial
  | polled => exact poll_elim (fun _ => trivial) trivial
  | woken => exact wake_elim trivial (fun _ => trivial) trivial
  | @left overflow outcome => cases outcome <;> exact avoids
  | reported here => exact afterReport_elim (fun _ _ => trivial) trivial trivial
  | _ => trivial

theorem Call.avoids_mono (ids : ∀ c id, s.idOf c = some id → t.idOf c = some id)
    (avoids : call.avoids s id c) : call.avoids t id c := by
  have mono : ∀ x, Foreign s id x → Foreign t id x := fun x foreign => foreign.mono ids
  cases call with
  | scanning stage request rest found =>
    exact ⟨fun x member => (avoids.1 x member).imp_right (mono x), fun x member => mono x (avoids.2 x member)⟩
  | checking stage request cell check rest found =>
    exact ⟨avoids.1.imp_right (mono cell), fun x member => (avoids.2.1 x member).imp_right (mono x),
      fun x member => mono x (avoids.2.2 x member)⟩
  | limiting stage request found => exact fun x member => mono x (avoids x member)
  | picking stage request maximum rest => exact fun x member => mono x (avoids x member)
  | leased cell => exact mono cell avoids
  | leaving overflow outcome =>
    cases outcome with
    | lease cell => exact mono cell avoids
    | failed error => trivial
    | cancelled => trivial
  | _ => trivial

theorem cancel_calm (call : Call) (calm : call.calm id c) : call.cancel.calm id c := by
  cases call with
  | opening stage request => exact finish_calm stage _
  | scanning stage request rest found => exact finish_calm stage _
  | checking stage request cell check rest found => exact finish_calm stage _
  | _ => first | exact calm | exact ⟨rfl, trivial⟩

theorem cancel_avoids (call : Call) (avoids : call.avoids s id c) : call.cancel.avoids s id c := by
  cases call with
  | opening stage request => cases stage <;> trivial
  | scanning stage request rest found => cases stage <;> trivial
  | checking stage request cell check rest found => cases stage <;> trivial
  | _ => exact avoids

theorem operation_calm (operation : Operation) (keeps : Action.keeps id (.start operation)) :
    operation.call.calm id c ∧ operation.call.avoids s id c := by
  cases operation with
  | acquireScopedExcluding model allowedIds excludedIds =>
    simp only [Operation.call]
    split <;> exact ⟨⟨rfl, trivial⟩, trivial⟩
  | resetHealth other => exact ⟨⟨rfl, keeps⟩, trivial⟩
  | replaceAccounts accounts => exact ⟨⟨rfl, keeps⟩, trivial⟩
  | _ => exact ⟨⟨rfl, trivial⟩, trivial⟩

end Banned

/-! ### Runs after a ban -/

/-- The state of a pool in which the account is banned: nobody is about to lift the ban
unknowingly, and the calls from the `n`-th on never get to the account. -/
structure StillBanned (n : Nat) (id : String) (c : Nat) (pool : AccountPool) : Prop where
  banned : Banned pool.shared id c
  calm : ∀ call ∈ pool.calls, call.calm id c
  late : ∀ j call, n ≤ j → pool.calls[j]? = some call → call.avoids pool.shared id c

section Steps

variable {catalog : Catalog} {order : List Nat} {call next : Call} {t : Shared} {n : Nat} {id : String} {c : Nat}
  {pool after : AccountPool} {action : Action}

theorem Access.stillBanned {i : Nat} (access : Access catalog order pool.shared call t next)
    (here : pool.calls[i]? = some call) (before : StillBanned n id c pool) (unwritten : call.overwrites c = false) :
    StillBanned n id c { shared := t, calls := pool.calls.set i next } := by
  have ids : ∀ x other, pool.shared.idOf x = some other → t.idOf x = some other :=
    fun x other was => access.idOf before.banned.mapped was
  have calm := before.calm call (List.mem_of_getElem? here)
  constructor
  · exact access.banned before.banned calm unwritten
  · exact all_set before.calm (access.calm before.banned calm)
  · intro j later late there
    rcases getElem?_set_cases there with old | ⟨rfl, rfl⟩
    · exact Call.avoids_mono ids (before.late j later late old)
    · exact Call.avoids_mono ids (access.avoids before.banned (before.late i call late here))

theorem Stepped.stillBanned (stepped : Stepped catalog pool action after) (before : StillBanned n id c pool)
    (ok : action.keeps id ∧ pool.overwrites c action = false) : StillBanned n id c after := by
  obtain ⟨keeps, unwritten⟩ := ok
  cases stepped with
  | skipped => exact before
  | @started operation =>
    obtain ⟨calm, avoids⟩ := operation_calm (s := pool.shared) (c := c) operation keeps
    refine ⟨before.banned, ?_, ?_⟩
    · intro call member
      rcases List.mem_append.mp member with old | new
      · exact before.calm call old
      · rw [List.mem_singleton.mp new]
        exact calm
    · intro j call late there
      rcases getElem?_snoc_cases there with old | rfl
      · exact before.late j call late old
      · exact avoids
  | advanced here access =>
    apply access.stillBanned here before
    simpa [AccountPool.overwrites, here] using unwritten
  | @cancelled i call here =>
    have calm := before.calm call (List.mem_of_getElem? here)
    refine ⟨before.banned, all_set before.calm (cancel_calm call calm), ?_⟩
    intro j later late there
    rcases getElem?_set_cases there with old | ⟨rfl, rfl⟩
    · exact before.late j later late old
    · exact cancel_avoids call (before.late i call late here)
  | @settled i actual cell here =>
    have ids := fun x => pool.shared.idOf_modify cell x
      (fun state => settleCredits_id state actual (pool.shared.clock / 1000))
    have kept := fun x => pool.shared.healthOf_modify cell x
      (fun state => settleCredits_health state actual (pool.shared.clock / 1000))
    refine ⟨⟨settle_mapped before.banned.mapped cell actual _, before.banned.own, ?_⟩, before.calm, ?_⟩
    · rw [kept]
      exact before.banned.health
    · intro j call late there
      refine Call.avoids_mono ?_ (before.late j call late there)
      intro x other was
      rw [ids, was]
  | ticked =>
    refine ⟨⟨⟨before.banned.mapped.keys, before.banned.mapped.ids⟩, before.banned.own, before.banned.health⟩,
      before.calm, ?_⟩
    intro j call late there
    exact Call.avoids_mono (fun _ _ was => was) (before.late j call late there)

end Steps

/-- No call from the `n`-th on has a lease on the account. -/
def NoLeaseSince (n : Nat) (id : String) (pool : AccountPool) : Prop :=
  ∀ j call c, n ≤ j → pool.calls[j]? = some call → call.holds c = true → pool.shared.idOf c ≠ some id

theorem StillBanned.no_lease {n : Nat} {id : String} {c : Nat} {pool : AccountPool} (still : StillBanned n id c pool) :
    NoLeaseSince n id pool := by
  intro j call cell late there holds same
  have avoids := still.late j call late there
  have foreign : Foreign pool.shared id cell := by
    cases call with
    | leased held =>
      obtain rfl : held = cell := by simpa [Call.holds] using holds
      exact avoids
    | leaving overflow outcome =>
      cases outcome with
      | lease held =>
        obtain rfl : held = cell := by simpa [Call.holds] using holds
        exact avoids
      | failed error => simp [Call.holds] at holds
      | cancelled => simp [Call.holds] at holds
    | _ => simp [Call.holds] at holds
  obtain ⟨other, named, apart⟩ := foreign
  rw [same, Option.some.injEq] at named
  exact apart named.symm

theorem ban_stillBanned (catalog : Catalog) {pool : AccountPool} {k c : Nat} {id : String} (order : List Nat)
    (mapped : Mapped pool.shared)
    (banning : pool.calls[k]? = some (.reporting c .ban)) (own : pool.shared.accounts.lookup id = some c)
    (calm : ∀ call ∈ pool.calls, call.calm id c) :
    StillBanned pool.calls.length id c (step catalog pool (.advance k order)) := by
  have access := advance_access catalog order pool.shared (.reporting c .ban)
  have named := mapped.ids id c (mem_of_lookup own)
  obtain ⟨state, here, -⟩ := Option.map_eq_some_iff.mp named
  have banned : Banned (pool.shared.advance catalog order (.reporting c .ban)).1 id c := by
    refine ⟨access.mapped mapped, own, ?_⟩
    simp only [Shared.advance, Shared.healthOf, Shared.cells_modify, here]
    rfl
  have next : (pool.shared.advance catalog order (.reporting c .ban)).2 = .done none := by
    simp only [Shared.advance, here]
    rfl
  simp only [step, banning]
  refine ⟨banned, all_set calm (by simp only [next]; exact ⟨rfl, trivial⟩), ?_⟩
  intro j call late there
  have inside := (List.getElem?_eq_some_iff.mp there).1
  simp only [List.length_set] at inside
  omega

/-- A ban lasts, and no later acquire gets a lease on the account, in every run in which the
ban does not fall between the read and the write of a recovery, and in which afterwards no
`record_error` and no `record_quota_error` writes the health of the account. -/
theorem ban_sticky_unless_overwritten (catalog : Catalog) (accounts : List Account) (config : PoolConfig)
    (before after : List Action) (k : Nat) (order : List Nat) (id : String) (c : Nat)
    (banning : (reached catalog accounts config before).calls[k]? = some (.reporting c .ban))
    (own : (reached catalog accounts config before).shared.accounts.lookup id = some c)
    (kept : ∀ call ∈ (reached catalog accounts config before).calls, call.keeps id c)
    (keeps : ∀ action ∈ after, action.keeps id)
    (unraced : ∀ call ∈ (reached catalog accounts config before).calls, call.racing c = false)
    (unwritten : Along (step catalog) (fun pool action => pool.overwrites c action = false)
      (step catalog (reached catalog accounts config before) (.advance k order)) after) :
    NoLeaseSince (reached catalog accounts config before).calls.length id
      (reached catalog accounts config (before ++ .advance k order :: after)) := by
  have start := ban_stillBanned catalog order (reached_mapped catalog accounts config before) banning own
    fun call member => ⟨unraced call member, kept call member⟩
  have split : reached catalog accounts config (before ++ .advance k order :: after) =
      run (step catalog) (step catalog (reached catalog accounts config before) (.advance k order)) after := by
    rw [reached, run_append, run_cons]
    rfl
  rw [split]
  have still := run_keeps (fun pool action => (step_stepped catalog pool action).stillBanned)
    ((Along.of_mem keeps).and unwritten) start
  exact still.no_lease

def bannedInFlight : List Action :=
  .start (.acquire "" []) :: List.replicate 14 (.advance 0 []) ++ [.start (.markBanned "a"), .advance 1 []]

theorem ban_sticky_turned_down :
    NoLeaseSince 2 "a" (reached anyModel [plainAccount "a"] {}
      (bannedInFlight ++ .advance 1 [] :: .start (.acquire "" []) :: List.replicate 6 (.advance 2 []))) ∧
    (reached anyModel [plainAccount "a"] {}
      (bannedInFlight ++ .advance 1 [] :: .start (.acquire "" []) :: List.replicate 6 (.advance 2 []))).calls[2]? =
        some (.done (some (.failed (.noAvailableAccount "")))) := by
  have calls : (reached anyModel [plainAccount "a"] {} bannedInFlight).calls = [.leased 0, .reporting 0 .ban] := by
    decide
  refine ⟨?_, by decide⟩
  have sticky := ban_sticky_unless_overwritten anyModel [plainAccount "a"] {} bannedInFlight
    (.start (.acquire "" []) :: List.replicate 6 (.advance 2 [])) 1 [] "a" 0 (by rw [calls]; rfl) (by decide)
    (by rw [calls]; simp [Call.keeps]) (by simp [Action.keeps]) (by rw [calls]; decide) (by decide)
  rwa [calls] at sticky

/-- A ban keeps every later acquire away from the account, until a reset, as long as the
account stays in the pool. -/
def BanSticky (catalog : Catalog) : Prop :=
  ∀ (accounts : List Account) (config : PoolConfig) (before after : List Action) (k : Nat) (order : List Nat)
    (id : String) (c : Nat),
    (reached catalog accounts config before).calls[k]? = some (.reporting c .ban) →
    (reached catalog accounts config before).shared.accounts.lookup id = some c →
    (∀ call ∈ (reached catalog accounts config before).calls, call.keeps id c) →
    (∀ action ∈ after, action.keeps id) →
    NoLeaseSince (reached catalog accounts config before).calls.length id
      (reached catalog accounts config (before ++ .advance k order :: after))

/-- The request that was in flight reports its error after the ban; once the short cooldown is
over, the next request gets the banned account. -/
def reportedAfterwards : List Action :=
  .start (.recordError "a") :: List.replicate 6 (.advance 2 []) ++
    .tick 5000 :: .start (.acquire "" []) :: List.replicate 16 (.advance 3 [])

theorem ban_overwritten_by_report : ¬BanSticky anyModel := by
  intro sticky
  have calls : (reached anyModel [plainAccount "a"] {} bannedInFlight).calls = [.leased 0, .reporting 0 .ban] := by
    decide
  have away := sticky [plainAccount "a"] {} bannedInFlight reportedAfterwards 1 [] "a" 0 (by rw [calls]; rfl)
    (by decide) (by rw [calls]; simp [Call.keeps]) (by simp [reportedAfterwards, Action.keeps])
    3 (.leased 0) 0 (by rw [calls]; decide) (by decide) rfl
  exact away (by decide)

end KiroProxy.Pool

import KiroProxy.Http.Dispatch

/-! The leases of one dispatch: no account twice, but where a fallback outside the scope of the key is passed over. -/
namespace KiroProxy.Dispatch

variable {R : Type} {outside : Outside} {config : Config} {request : Request} {attempt : Nat} {lease : String}

structure Kept (before after : State) : Prop where
  leased : after.leased = before.leased
  attempted : after.attemptedAccounts = before.attemptedAccounts
  prepared : after.preparedLease = before.preparedLease

theorem Kept.refl (state : State) : Kept state state := ⟨rfl, rfl, rfl⟩

theorem Kept.trans {first second third : State} (one : Kept first second) (two : Kept second third) :
    Kept first third :=
  ⟨two.leased.trans one.leased, two.attempted.trans one.attempted, two.prepared.trans one.prepared⟩

abbrev Keeps (before : State) (flow : Flow R State) : Prop :=
  flow.Ends (Kept before) (fun _ => False) (Kept before)

variable {before state : State}

theorem Keeps.after {flow : Flow R State} (kept : Kept before state) (keeps : Keeps state flow) :
    Keeps before flow :=
  keeps.imp (fun _ => kept.trans) (fun _ => id) (fun _ => kept.trans)

/-! ### The parts of an attempt -/

theorem authFailure_keeps (answers : Answers R) (state : State) (error : Kiro.KiroError) :
    Keeps state (authFailure answers attempt lease state error) := by
  unfold authFailure
  dsimp only
  split
  case isTrue => split <;> exact ⟨rfl, rfl, rfl⟩
  case isFalse => exact ⟨rfl, rfl, rfl⟩

theorem quotaFailure_keeps (answers : Answers R) (state : State) (error : Kiro.KiroError) :
    Keeps state (quotaFailure config answers attempt lease state error) := by
  unfold quotaFailure
  split <;> exact ⟨rfl, rfl, rfl⟩

theorem truncated_keeps (model : String) (state : State) :
    (truncated (R := R) outside request model state).Ends (fun value => Kept state value.1) (fun _ => False)
      (Kept state) := by
  unfold truncated
  split <;> exact ⟨rfl, rfl, rfl⟩

theorem sendFallback_keeps (answers : Answers R) (fallback resolved : String) (tokens : Nat) (state : State) :
    Keeps state (sendFallback outside answers attempt lease fallback resolved tokens state) := by
  unfold sendFallback
  dsimp only
  split
  case h_1 => exact ⟨rfl, rfl, rfl⟩
  case h_2 => split <;> exact ⟨rfl, rfl, rfl⟩

/-- The model that the request falls back to is outside the scope of the key. -/
structure OutOfScope (config : Config) (request : Request) (answers : Answers R) (state : State) : Prop where
  enabled : config.enableModelFallback = true
  first : state.fallbackModel = none
  outOfScope : ∃ fallback resolved, fallbackOf answers state.actualModel = some (fallback, resolved) ∧
    ModelAllowed.modelIsAllowed request.allowedModels "kiro" resolved = false

theorem capacityFailure_ends (answers : Answers R) (state : State) (error : Kiro.KiroError) :
    (capacityFailure outside config request answers attempt lease state error).Ends (Kept state)
      (fun after => Kept state after ∧ OutOfScope config request answers state) (Kept state) := by
  unfold capacityFailure
  extract_lets logged marked failed
  have kept : Kept state failed := by
    dsimp only [failed, marked, logged]
    split <;> exact ⟨rfl, rfl, rfl⟩
  have same : failed.fallbackModel = state.fallbackModel ∧ failed.actualModel = state.actualModel := by
    dsimp only [failed, marked, logged]
    split <;> exact ⟨rfl, rfl⟩
  split
  case isFalse => exact kept
  case isTrue enabled =>
    cases found : fallbackOf answers failed.actualModel with
    | none => exact kept
    | some pair =>
      obtain ⟨fallback, resolved⟩ := pair
      dsimp only
      split
      case isTrue =>
        refine Flow.Ends.bind ((truncated_keeps resolved failed).imp (fun _ => kept.trans) (fun _ => False.elim)
          (fun _ => kept.trans)) ?_
        rintro ⟨after, tokens⟩ - cut
        dsimp only
        split
        · exact ((sendFallback_keeps answers fallback resolved tokens after).after cut).imp (fun _ => id)
            (fun _ => False.elim) (fun _ => id)
        · exact cut
      case isFalse out =>
        exact ⟨kept, enabled.1, same.1 ▸ enabled.2, fallback, resolved, same.2 ▸ found, Bool.eq_false_iff.2 out⟩

/-- The request ends in an error of the model's capacity, and the fallback is outside the scope of the key. -/
structure Skips (config : Config) (request : Request) (answers : Answers R) (state : State) (error : Kiro.KiroError) :
    Prop extends OutOfScope config request answers state where
  failed : answers.generate state.requestPayload = .error error
  notAuth : error.isAuth = false
  notQuota : ¬ (error.isQuota = true ∧ ¬ error.isThrottle = true)
  capacity : error.isModelCapacityError = true

theorem send_ends (answers : Answers R) (state : State) :
    (send outside config request answers attempt lease state).Ends (Kept state)
      (fun after => Kept state after ∧ ∃ error, Skips config request answers state error) (Kept state) := by
  have kept : Kept state (state.sending lease) := ⟨rfl, rfl, rfl⟩
  unfold send
  dsimp only
  split
  case h_1 => exact ⟨rfl, rfl, rfl⟩
  case h_2 error failed =>
    unfold failure
    split
    case isTrue =>
      exact (Keeps.after kept (authFailure_keeps answers _ error)).imp (fun _ => id) (fun _ => False.elim) fun _ => id
    case isFalse notAuth =>
    split
    case isTrue =>
      exact (Keeps.after kept (quotaFailure_keeps answers _ error)).imp (fun _ => id) (fun _ => False.elim) fun _ => id
    case isFalse notQuota =>
    split
    case isTrue capacity =>
      refine (capacityFailure_ends answers _ error).imp (fun _ => kept.trans) ?_ (fun _ => kept.trans)
      rintro after ⟨same, out⟩
      exact ⟨kept.trans same, error, ⟨out.enabled, out.first, out.outOfScope⟩, failed, Bool.eq_false_iff.2 notAuth,
        notQuota, capacity⟩
    case isFalse =>
      dsimp only
      split
      · exact ⟨rfl, rfl, rfl⟩
      · split <;> exact ⟨rfl, rfl, rfl⟩

theorem prepare_keeps (answers : Answers R) (state : State) :
    Keeps state (prepare outside request answers lease state) := by
  unfold prepare
  split
  case isFalse => exact ⟨rfl, rfl, rfl⟩
  case isTrue =>
    extract_lets prepared
    have same : Kept state prepared := ⟨rfl, rfl, rfl⟩
    split
    case isTrue => exact same
    case isFalse =>
      refine Flow.Ends.bind ((truncated_keeps _ prepared).imp (fun _ => same.trans) (fun _ => id)
        (fun _ => same.trans)) ?_
      rintro ⟨after, tokens⟩ - cut
      have kept : Kept state { after with inputTokens := tokens } := ⟨cut.leased, cut.attempted, cut.prepared⟩
      dsimp only
      split
      · exact kept.trans ⟨rfl, rfl, rfl⟩
      · exact kept

/-! ### The lease of an attempt -/

/-- No answer of the pool is an account that it was told to leave out. -/
def Honest (answers : Answers R) : Prop :=
  ∀ model excluded id, answers.acquire model excluded = .ok id ∨ answers.acquireAgain model excluded = .ok id →
    id ∉ excluded

/-- One more lease was taken, of the prepared account or of one that was not tried before. -/
structure Took (lease : String) (before after : State) : Prop where
  leased : after.leased = before.leased ++ [lease]
  fresh : before.preparedLease = some lease ∨ before.preparedLease = none ∧ lease ∉ before.attemptedAccounts
  prepared : after.preparedLease = none

theorem Took.after {after later : State} (took : Took lease before after) (kept : Kept after later) :
    Took lease before later :=
  ⟨kept.leased.trans took.leased, took.fresh, kept.prepared.trans took.prepared⟩

def Ended (before after : State) : Prop := after.leased = before.leased ∨ ∃ lease, Took lease before after

theorem leaseOr_ends (kept : Kept before state) (unprepared : before.preparedLease = none)
    {answer : Except PoolError String} {exhausted : Bool} {otherwise : PoolError → Flow R (State × String)}
    (honest : ∀ id, answer = .ok id → id ∉ before.attemptedAccounts) {nexts : State → Prop}
    (rest : ∀ error, (otherwise error).Ends
      (fun value => Took value.2 before value.1 ∧ value.1.attemptedAccounts = before.attemptedAccounts) nexts
      (Ended before)) :
    (leaseOr state answer exhausted otherwise).Ends
      (fun value => Took value.2 before value.1 ∧ value.1.attemptedAccounts = before.attemptedAccounts) nexts
      (Ended before) := by
  unfold leaseOr
  split
  case h_1 lease =>
    exact ⟨⟨congrArg (· ++ [lease]) kept.leased, .inr ⟨unprepared, honest lease rfl⟩,
      kept.prepared.trans unprepared⟩, kept.attempted⟩
  case h_2 =>
    split
    · exact .inl kept.leased
    · split
      · exact .inl kept.leased
      · exact rest _
  case h_3 => exact .inl kept.leased

theorem acquire_ends {answers : Answers R} (honest : Honest answers) (unprepared : state.preparedLease = none) :
    (acquire request answers state).Ends
      (fun value => Took value.2 state value.1 ∧ value.1.attemptedAccounts = state.attemptedAccounts)
      (fun _ => False) (Ended state) := by
  unfold acquire
  refine leaseOr_ends (Kept.refl state) unprepared (fun id got => honest _ _ _ (.inl got)) fun _ => ?_
  split
  rename_i next model chosen
  have kept : Kept state next := by
    split at chosen <;> cases chosen <;> exact ⟨rfl, rfl, rfl⟩
  exact leaseOr_ends kept unprepared (fun id got => kept.attempted ▸ honest _ _ _ (.inr got)) fun _ => .inl kept.leased

theorem mapped_kept (answers : Answers R) (state : State) : Kept state (mapped config request answers state) := by
  unfold mapped
  split <;> exact ⟨rfl, rfl, rfl⟩

theorem chooseModel_ends (answers : Answers R) (state : State) :
    (chooseModel outside config request answers attempt lease state).Ends (Kept state)
      (Kept (state.attempted lease)) (Kept state) := by
  have kept : Kept state (mapped config request answers state) := mapped_kept answers state
  have passed (before : State) (same : Kept state before) (runtime : Runtime) :
      (Flow.next (R := R) (A := State) (incompatible outside request answers attempt lease runtime before)).Ends
        (Kept state) (Kept (state.attempted lease)) (Kept state) :=
    ⟨same.leased, congrArg (List.insert lease) same.attempted, same.prepared⟩
  unfold chooseModel
  split
  case h_1 => exact Kept.refl state
  case h_2 runtime _ =>
    extract_lets ruled routed
    split
    case h_1 => exact kept
    case h_2 =>
      have same : Kept state routed := ⟨kept.leased, kept.attempted, kept.prepared⟩
      split
      case h_1 => exact same.trans ⟨rfl, rfl, rfl⟩
      case h_2 =>
        split
        case isTrue =>
          split
          case isTrue => exact passed routed same runtime
          case isFalse =>
            split
            case h_1 => exact same.trans ⟨rfl, rfl, rfl⟩
            case h_2 => exact passed routed same runtime
        case isFalse => split <;> exact same.trans ⟨rfl, rfl, rfl⟩

/-! ### One attempt -/

/-- The step takes a lease, and ends in the branch that goes on without a record of its account. -/
def SkipsFallback (outside : Outside) (config : Config) (request : Request) (answers : Answers R) (attempt : Nat)
    (state : State) : Prop :=
  ∃ chosen lease ready error, select outside config request answers attempt state = .through (chosen, lease) ∧
    prepare outside request answers lease chosen = .through ready ∧ Skips config request answers ready error

/-- What a step leaves to the next one: a lease of an account that is recorded from now on, or was skipped. -/
structure Went (skipped : Prop) (before after : State) : Prop where
  took : ∃ lease, Took lease before after ∧ (¬ skipped → lease ∈ after.attemptedAccounts)
  kept : ∀ id ∈ before.attemptedAccounts, id ∈ after.attemptedAccounts

theorem select_ends {answers : Answers R} (honest : Honest answers) (state : State) (skipped : Prop) :
    (select outside config request answers attempt state).Ends
      (fun value => Took value.2 state value.1 ∧ value.1.attemptedAccounts = state.attemptedAccounts)
      (Went skipped state) (Ended state) := by
  unfold select
  cases prepared : state.preparedLease with
  | some lease => exact ⟨⟨rfl, .inl prepared, rfl⟩, rfl⟩
  | none =>
    refine Flow.Ends.bind ((acquire_ends honest prepared).imp (fun _ => id) (fun _ => False.elim) (fun _ => id)) ?_
    rintro ⟨leased, lease⟩ - ⟨took, same⟩
    refine Flow.Ends.bind ((chooseModel_ends answers leased).imp (fun chosen kept => ?_) (fun after kept => ?_)
      (fun after kept => .inr ⟨lease, took.after kept⟩)) fun chosen _ => id
    · exact ⟨took.after kept, kept.attempted.trans same⟩
    · have recorded : after.attemptedAccounts = state.attemptedAccounts.insert lease := by
        rw [kept.attempted, ← same]
        rfl
      refine ⟨⟨lease, ⟨kept.leased.trans took.leased, took.fresh, kept.prepared.trans took.prepared⟩, fun _ => ?_⟩, ?_⟩
      · rw [recorded]
        exact List.mem_insert_self
      · intro id tried
        rw [recorded]
        exact List.mem_insert_of_mem tried

variable (outside config request attempt) in
theorem step_ends {answers : Answers R} (honest : Honest answers) (state : State) :
    (step outside config request answers attempt state).Ends (fun _ => True)
      (Went (SkipsFallback outside config request answers attempt state) state) (Ended state) := by
  unfold step
  refine Flow.Ends.bind (select_ends honest state _) ?_
  rintro ⟨chosen, lease⟩ chose ⟨took, same⟩
  refine Flow.Ends.bind ((prepare_keeps answers chosen).imp (fun _ => id) (fun _ => False.elim)
    fun _ kept => .inr ⟨lease, took.after kept⟩) ?_
  intro ready made prepared
  have took : Took lease state ready := took.after prepared
  have same : ready.attemptedAccounts = state.attemptedAccounts := prepared.attempted.trans same
  refine Flow.Ends.bind ((send_ends answers ready).imp (fun _ => id) ?_ fun _ kept => .inr ⟨lease, took.after kept⟩) ?_
  · rintro after ⟨kept, error, skips⟩
    refine ⟨⟨lease, took.after kept, fun never => ?_⟩, fun id tried => ?_⟩
    · exact (never ⟨chosen, lease, ready, error, chose, made, skips⟩).elim
    · rwa [kept.attempted, same]
  · intro after _ kept
    have took : Took lease state (after.attempted lease) :=
      ⟨kept.leased.trans took.leased, took.fresh, kept.prepared.trans took.prepared⟩
    refine ⟨⟨lease, took, fun _ => List.mem_insert_self⟩, ?_⟩
    intro id tried
    refine List.mem_insert_of_mem ?_
    rwa [kept.attempted, same]

/-! ### The run -/

inductive Reaches (outside : Outside) (config : Config) (request : Request) (draws : MappingDraws)
    (answers : Nat → Answers R) : Nat → State → Prop
  | start : Reaches outside config request draws answers (start config request draws).attemptLogs.length
      (start config request draws)
  | next {attempt : Nat} {state after : State} (reached : Reaches outside config request draws answers attempt state)
      (left : attempt < attempts config request)
      (goes : step outside config request (answers attempt) attempt state = .next after) :
      Reaches outside config request draws answers (attempt + 1) after

variable {draws : MappingDraws} {answers : Nat → Answers R}

theorem loop_ends (honest : ∀ attempt, Honest (answers attempt)) (left : Nat) {attempt : Nat}
    (reached : Reaches outside config request draws answers attempt state)
    (all : left = attempts config request - attempt) :
    ∃ last before, Reaches outside config request draws answers last before ∧
      ((loop outside config request answers left attempt state).1 = before ∨
        last < attempts config request ∧ Ended before (loop outside config request answers left attempt state).1) := by
  induction left generalizing attempt state with
  | zero => exact ⟨attempt, state, reached, .inl rfl⟩
  | succ left ih =>
    have within : attempt < attempts config request := by omega
    have ends := step_ends outside config request attempt (honest attempt) state
    unfold loop
    cases goes : step outside config request (answers attempt) attempt state with
    | through never => exact never.elim
    | next after => exact ih (.next reached within goes) (by omega)
    | leave after =>
      rw [goes] at ends
      exact ⟨attempt, state, reached, .inr ⟨within, ends⟩⟩
    | done after result =>
      rw [goes] at ends
      exact ⟨attempt, state, reached, .inr ⟨within, ends⟩⟩

variable (outside config request draws) in
theorem dispatch_ends (honest : ∀ attempt, Honest (answers attempt)) :
    ∃ last before, Reaches outside config request draws answers last before ∧
      ((dispatchUpstream outside config request draws answers).1 = before ∨
        last < attempts config request ∧ Ended before (dispatchUpstream outside config request draws answers).1) :=
  loop_ends honest _ .start rfl

/-- The accounts leased are pairwise different and on record, unless the lease prepared before is still to be taken. -/
structure Apart (state : State) : Prop where
  nodup : state.leased.Nodup
  recorded : ∀ id ∈ state.leased, id ∈ state.attemptedAccounts
  first : state.preparedLease = none ∨ state.leased = []

theorem Took.nodup {after : State} (took : Took lease before after) (apart : Apart before) :
    after.leased.Nodup := by
  have fresh : lease ∉ before.leased := by
    rcases took.fresh with prepared | ⟨-, untried⟩
    · rcases apart.first with unprepared | none
      · rw [prepared] at unprepared
        cases unprepared
      · rw [none]
        exact List.not_mem_nil
    · exact fun leased => untried (apart.recorded lease leased)
  rw [took.leased]
  exact List.nodup_append.2 ⟨apart.nodup, List.nodup_singleton lease, fun id leased other single same =>
    fresh (List.mem_singleton.1 single ▸ same ▸ leased)⟩

theorem Went.apart {skipped : Prop} {after : State} (went : Went skipped before after) (never : ¬ skipped)
    (apart : Apart before) : Apart after := by
  obtain ⟨lease, took, recorded⟩ := went.took
  refine ⟨took.nodup apart, fun id leased => ?_, .inl took.prepared⟩
  rw [took.leased] at leased
  rcases List.mem_append.1 leased with old | new
  · exact went.kept id (apart.recorded id old)
  · exact List.mem_singleton.1 new ▸ recorded never

theorem start_leased (config : Config) (request : Request) (draws : MappingDraws) :
    (start config request draws).leased = [] := by
  unfold start
  split <;> rfl

theorem reaches_count (honest : ∀ attempt, Honest (answers attempt))
    (reached : Reaches outside config request draws answers attempt state) :
    state.leased.length ≤ attempt ∧ state.leased.length ≤ attempts config request := by
  induction reached with
  | start =>
    rw [start_leased]
    exact ⟨Nat.zero_le _, Nat.zero_le _⟩
  | @next attempt state after reached left goes ih =>
    have went := step_ends outside config request attempt (honest attempt) state
    rw [goes] at went
    obtain ⟨lease, took, -⟩ := went.took
    rw [took.leased, List.length_append, List.length_singleton]
    omega

theorem reaches_apart (honest : ∀ attempt, Honest (answers attempt))
    (never : ∀ attempt state, Reaches outside config request draws answers attempt state →
      attempt < attempts config request → ¬ SkipsFallback outside config request (answers attempt) attempt state)
    (reached : Reaches outside config request draws answers attempt state) : Apart state := by
  induction reached with
  | start =>
    have none := start_leased config request draws
    refine ⟨none ▸ List.nodup_nil, fun id leased => ?_, .inr none⟩
    rw [none] at leased
    cases leased
  | @next attempt state after reached left goes ih =>
    have went := step_ends outside config request attempt (honest attempt) state
    rw [goes] at went
    exact went.apart (never attempt state reached left) ih

/-- A dispatch takes at most one lease for each attempt, and never two of one account unless an attempt passes over a
fallback outside the scope of the key. -/
theorem accounts_leased_once (honest : ∀ attempt, Honest (answers attempt)) :
    (dispatchUpstream outside config request draws answers).1.leased.length ≤
      retryAttemptCount config.maxRetries (request.accountIds.length % 2 ^ 32) ∧
    ((∀ attempt state, Reaches outside config request draws answers attempt state → attempt < attempts config request →
        ¬ SkipsFallback outside config request (answers attempt) attempt state) →
      (∀ attempt state, Reaches outside config request draws answers attempt state → state.leased.Nodup) ∧
      (dispatchUpstream outside config request draws answers).1.leased.Nodup) := by
  obtain ⟨last, before, reached, ends⟩ := dispatch_ends outside config request draws honest
  have few := reaches_count honest reached
  constructor
  · rcases ends with same | ⟨left, same | ⟨lease, took⟩⟩
    · exact same ▸ few.2
    · exact same ▸ few.2
    · rw [took.leased, List.length_append, List.length_singleton]
      exact Nat.lt_of_le_of_lt few.1 left
  · intro never
    have apart {attempt : Nat} {state : State} (reached : Reaches outside config request draws answers attempt state) :
        Apart state := reaches_apart honest never reached
    refine ⟨fun _ _ reached => (apart reached).nodup, ?_⟩
    rcases ends with same | ⟨-, same | ⟨lease, took⟩⟩
    · exact same ▸ (apart reached).nodup
    · exact same ▸ (apart reached).nodup
    · exact took.nodup (apart reached)

theorem unrestricted_never (answers : Answers R) (attempt : Nat) (state : State) (free : request.allowedModels = []) :
    ¬ SkipsFallback outside config request answers attempt state := by
  rintro ⟨chosen, lease, ready, error, -, -, skips⟩
  obtain ⟨fallback, resolved, -, out⟩ := skips.outOfScope
  rw [free] at out
  cases out

def passing : Outside where
  prepareModelRequest := id
  truncate payload _ := .ok (payload, 0)
  contextMaximum _ := 100
  logModel := id

def sonnetRequest (allowedModels : List String) : Request where
  accountIds := ["a", "b"]
  model := "claude-sonnet-4.5"
  requestedModel := "claude-sonnet-4.5"
  keyId := none
  allowedModels := allowedModels
  serviceId := none
  defaultModel := ""
  lockedMappingRule := none
  inputTokens := 1
  payload := Tokens.twoTurns
  prepared := none
  preflightOnly := false
  automaticHistoryTruncation := false

/-- The model is unavailable at every account, and the first account not tried yet is leased. -/
def unavailable : Answers Unit where
  acquire _ excluded := (["a", "b"].find? (· ∉ excluded)).elim (.error (.noAvailableAccount "")) .ok
  exhausted _ := false
  acquireAgain _ _ := .error (.noAvailableAccount "")
  exhaustedAgain _ := false
  chosen := { displayName := "" }
  runtime := some ⟨fun _ => some ["claude-sonnet-4.5", "claude-sonnet-4"]⟩
  draws := ⟨fun _ => {}, fun _ => 0⟩
  leased := { displayName := "" }
  sending := { displayName := "" }
  generate _ := .error ⟨some 503, "", "model temporarily unavailable"⟩
  recovered := false
  refreshed := { displayName := "" }
  regenerate _ := .ok ()
  catalog := ["claude-sonnet-4.5", "claude-sonnet-4"]
  fallbackRuntime := some ⟨fun _ => some ["claude-sonnet-4.5", "claude-sonnet-4"]⟩
  generateFallback _ := .error ⟨some 503, "", "model temporarily unavailable"⟩

theorem unavailable_honest : Honest unavailable := by
  rintro model excluded id (got | got)
  · have found : (["a", "b"].find? (· ∉ excluded)) = some id := by
      dsimp only [unavailable] at got
      cases search : ["a", "b"].find? (· ∉ excluded) with
      | none =>
        rw [search] at got
        cases got
      | some other =>
        rw [search] at got
        exact congrArg some (Except.ok.inj got)
    simpa using List.find?_some found
  · cases got

theorem accounts_leased_once_unscoped :
    (dispatchUpstream passing { maxRetries := 1 } (sonnetRequest []) unavailable.draws fun _ => unavailable).1.leased.Nodup :=
  ((accounts_leased_once fun _ => unavailable_honest).2 fun attempt state _ _ =>
    unrestricted_never unavailable attempt state rfl).2

/-- The fallback is outside the scope of the key, and the account that could not serve the model is leased again. -/
theorem account_leased_again : Honest unavailable ∧
    ¬ (dispatchUpstream passing { maxRetries := 1 } (sonnetRequest ["claude-sonnet-4.5"]) unavailable.draws
      fun _ => unavailable).1.leased.Nodup :=
  ⟨unavailable_honest, by decide +kernel⟩

end KiroProxy.Dispatch

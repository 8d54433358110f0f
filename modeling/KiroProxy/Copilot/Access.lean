import KiroProxy.Copilot.Operations
import KiroProxy.Lib.Holder
import KiroProxy.Lib.Indexed
import KiroProxy.Lib.Run
import Mathlib.Data.List.InsertIdx

/-! What one access on the Copilot provider can change, and who holds its locks. -/
namespace KiroProxy.Copilot

def Phase.isInside : Phase → Bool
  | .inside _ => true
  | _ => false

def Phase.refreshing : Phase → Option String
  | .tokenAgain account _ | .tokenRefresh account _ | .tokenExchange account _ _ | .tokenStore account _ _
  | .entering (.credentials account _ _ _) | .inside (.saving _ (.credentials account _ _)) => some account.id
  | _ => none

def Phase.managed : Phase → Bool
  | .ready (.importCredentials _ _ _) | .ready (.edit _ _) | .ready (.removeAccount _)
  | .importExchange _ _ _ _ | .importModels _ _ _ _ _
  | .entering (.add _ _ _) | .entering (.edit _ _) | .entering (.remove _)
  | .inside (.saving _ (.added _ _ _)) | .inside (.saving _ (.edited _)) | .inside (.saving _ (.removed _))
  | .inside (.addedToken _ _ _) | .inside (.addedLimit _ _) | .inside (.addedModels _ _)
  | .inside (.disabledToken _)
  | .inside (.removedToken _) | .inside (.removedLimit _) | .inside (.removedModels _) => true
  | _ => false

def Phase.granted : Phase → Option (String × CopilotCredentials)
  | .entering (.credentials account written _ _) => some (account.id, written)
  | .inside (.saving _ (.credentials account written _)) => some (account.id, written)
  | _ => none

def Outcome.told : Outcome → Option Outcome
  | .imported account => some (.imported account)
  | .removed account => some (.removed account)
  | _ => none

/-- What an operation has done to the list, and reports or is to report. -/
def Phase.told : Phase → Option Outcome
  | .inside (.addedToken account _ _) | .inside (.addedLimit account _) | .inside (.addedModels account _) =>
    some (.imported account)
  | .inside (.removedToken account) | .inside (.removedLimit account) | .inside (.removedModels account) =>
    some (.removed account)
  | .inside (.writingModels outcome) | .done outcome => outcome.told
  | _ => none

structure Phase.Free (phase : Phase) : Prop where
  outside : phase.isInside = false
  refreshing : phase.refreshing = none
  told : phase.told = none

variable {id : String} {i : Nat} {client : Client}

section Outside

variable {provider after : CopilotProvider} {answer : Answer} {phase next : Phase}

inductive Touched (provider : CopilotProvider) (phase : Phase) : CopilotProvider → Prop where
  | same : Touched provider phase provider
  | forget (id : String) : Touched provider phase (provider.forget id)
  | modelRefresh (held : Bool) : Touched provider phase { provider with modelRefresh := held }
  | refreshLocks (held : List String) : Touched provider phase { provider with refreshLocks := held }
  | health (id : String) (error : Option String) (free : provider.accountsLocked = false) :
    Touched provider phase (provider.setAccountRuntimeError id error)
  | store (account : CopilotAccount) (token : CachedApiToken) (caller : Caller)
    (here : phase = .tokenStore account token caller) (held : List String) :
    Touched provider phase
      { provider with tokenCache := provider.tokenCache.insert account.id token, refreshLocks := held }

inductive Locks (provider after : CopilotProvider) (phase next : Phase) : Prop where
  | kept (holder : next.refreshing = phase.refreshing) (locks : after.refreshLocks = provider.refreshLocks)
  | taken (id : String) (had : phase.refreshing = none) (now : next.refreshing = some id)
    (free : id ∉ provider.refreshLocks) (locks : after.refreshLocks = id :: provider.refreshLocks)
  | released (id : String) (had : phase.refreshing = some id) (now : next.refreshing = none)
    (locks : after.refreshLocks = provider.refreshLocks.erase id)

theorem setAccountRuntimeError_locks (id : String) (error : Option String) :
    (provider.setAccountRuntimeError id error).refreshLocks = provider.refreshLocks := by
  unfold CopilotProvider.setAccountRuntimeError
  split
  · rfl
  · rfl

theorem resume_free (account : CopilotAccount) (caller : Caller) (result : Except String CachedApiToken) :
    (resume account caller result).Free := by
  cases caller with
  | refreshAccount idOrLogin => cases result <;> exact ⟨rfl, rfl, rfl⟩
  | models discovery => cases result <;> exact ⟨rfl, rfl, rfl⟩
  | executePath execution retriedAuth => cases result <;> exact ⟨rfl, rfl, rfl⟩

theorem resume_managed (account : CopilotAccount) (caller : Caller) (result : Except String CachedApiToken) :
    (resume account caller result).managed = false := by
  cases caller with
  | refreshAccount idOrLogin => cases result <;> rfl
  | models discovery => cases result <;> rfl
  | executePath execution retriedAuth => cases result <;> rfl

theorem importUser_free (credentials : CopilotCredentials) (label expectedLogin : Option String) :
    (provider.importUser answer credentials label expectedLogin).Free := by
  unfold CopilotProvider.importUser
  split
  · exact ⟨rfl, rfl, rfl⟩
  · split
    · exact ⟨rfl, rfl, rfl⟩
    · exact ⟨rfl, rfl, rfl⟩

theorem importExchange_free (host : String) (credentials : CopilotCredentials) (label : Option String)
    (user : GithubUser) : (CopilotProvider.importExchange answer host credentials label user).Free := by
  unfold CopilotProvider.importExchange
  split
  · exact ⟨rfl, rfl, rfl⟩
  · exact ⟨rfl, rfl, rfl⟩

theorem importModels_free (host : String) (credentials : CopilotCredentials) (label : Option String)
    (user : GithubUser) (exchanged : CachedApiToken) :
    (CopilotProvider.importModels answer host credentials label user exchanged).Free := by
  unfold CopilotProvider.importModels
  split
  · exact ⟨rfl, rfl, rfl⟩
  · exact ⟨rfl, rfl, rfl⟩
  · exact ⟨rfl, rfl, rfl⟩

theorem executeSend_free (execution : Execution) (account : CopilotAccount) (retriedAuth : Bool) :
    (CopilotProvider.executeSend answer execution account retriedAuth).Free ∧
      (CopilotProvider.executeSend answer execution account retriedAuth).managed = false := by
  unfold CopilotProvider.executeSend
  split
  · exact ⟨⟨rfl, rfl, rfl⟩, rfl⟩
  · dsimp only
    split
    · exact ⟨⟨rfl, rfl, rfl⟩, rfl⟩
    · split
      · split
        · exact ⟨⟨rfl, rfl, rfl⟩, rfl⟩
        · exact ⟨⟨rfl, rfl, rfl⟩, rfl⟩
      · split
        · exact ⟨⟨rfl, rfl, rfl⟩, rfl⟩
        · exact ⟨⟨rfl, rfl, rfl⟩, rfl⟩

structure Outside (provider after : CopilotProvider) (phase next : Phase) : Prop where
  touched : Touched provider phase after
  outside : next.isInside = false
  locks : Locks provider after phase next
  managed : next.managed = true → phase.managed = true
  granted : next.granted = none ∨ ∃ account caller, phase = .tokenRefresh account caller
  told : next.told = none

theorem granted_refreshing {phase : Phase} {written : CopilotCredentials}
    (granted : phase.granted = some (id, written)) : phase.refreshing = some id := by
  cases phase with
  | entering change =>
    cases change with
    | credentials account written now caller =>
      cases granted
      rfl
    | _ => cases granted
  | inside here =>
    cases here with
    | saving list then_ =>
      cases then_ with
      | credentials account written caller =>
        cases granted
        rfl
      | _ => cases granted
    | _ => cases granted
  | _ => cases granted

theorem granted_none {phase : Phase} (free : phase.refreshing = none) : phase.granted = none := by
  cases granted : phase.granted with
  | none => rfl
  | some issued =>
    have held := granted_refreshing granted
    rw [free] at held
    cases held

theorem Outside.free (free : phase.refreshing = none) (then_ : next.Free)
    (managed : next.managed = true → phase.managed = true) : Outside provider provider phase next :=
  ⟨.same, then_.outside, .kept (by rw [then_.refreshing, free]) rfl, managed, .inl (granted_none then_.refreshing),
    then_.told⟩

theorem Outside.released (held : phase.refreshing = some id) {account : CopilotAccount} {caller : Caller}
    {result : Except String CachedApiToken} :
    Outside provider (provider.unlockRefresh id) phase (resume account caller result) := by
  obtain ⟨outside, none, told⟩ := resume_free account caller result
  refine ⟨.refreshLocks _, outside, .released id held none rfl, ?_, .inl (granted_none none), told⟩
  rw [resume_managed]
  exact fun managed => nomatch managed

theorem tokenMissing_does (account : CopilotAccount) (caller : Caller) (held : phase.refreshing = some account.id) :
    Outside provider (provider.tokenMissing answer account caller).1 phase
      (provider.tokenMissing answer account caller).2 := by
  have kept : ∀ next : Phase, next.isInside = false → next.refreshing = some account.id → next.managed = false →
      next.granted = none → next.told = none → Outside provider provider phase next := by
    intro next outside still unmanaged ungranted untold
    refine ⟨.same, outside, .kept (by rw [still, held]) rfl, ?_, .inl ungranted, untold⟩
    rw [unmanaged]
    nofun
  unfold CopilotProvider.tokenMissing
  split
  · split
    · exact kept _ rfl rfl rfl rfl rfl
    · split
      · exact .released held
      · exact kept _ rfl rfl rfl rfl rfl
  · exact kept _ rfl rfl rfl rfl rfl

theorem tokenRefresh_does (account : CopilotAccount) (caller : Caller) :
    Outside provider (provider.tokenRefresh answer account caller).2.1 (.tokenRefresh account caller)
      (provider.tokenRefresh answer account caller).2.2 := by
  unfold CopilotProvider.tokenRefresh
  split
  · exact .released rfl
  · split
    · exact .released rfl
    · split
      · exact ⟨.same, rfl, .kept rfl rfl, nofun, .inr ⟨account, caller, rfl⟩, rfl⟩
      · exact .released rfl

theorem unanswered_free (execution : Execution) (message : String) :
    (CopilotProvider.unanswered execution message).Free := ⟨rfl, rfl, rfl⟩

theorem outside_does (moved : provider.outside answer phase = some (after, next)) :
    Outside provider after phase next := by
  cases phase with
  | ready operation =>
    cases operation with
    | importCredentials credentials label expectedLogin =>
      cases moved
      exact .free rfl (importUser_free credentials label expectedLogin) fun _ => rfl
    | edit idOrLogin edit =>
      cases moved
      exact .free rfl ⟨rfl, rfl, rfl⟩ fun _ => rfl
    | removeAccount idOrLogin =>
      cases moved
      exact .free rfl ⟨rfl, rfl, rfl⟩ fun _ => rfl
    | refreshAccount idOrLogin =>
      simp only [CopilotProvider.outside] at moved
      split at moved
      · cases moved
      · split at moved
        · cases moved
          exact .free rfl ⟨rfl, rfl, rfl⟩ nofun
        · cases moved
          exact .free rfl ⟨rfl, rfl, rfl⟩ nofun
    | models refresh =>
      simp only [CopilotProvider.outside] at moved
      split at moved
      · cases moved
      · split at moved
        · cases moved
          exact .free rfl ⟨rfl, rfl, rfl⟩ nofun
        · cases moved
          exact .free rfl ⟨rfl, rfl, rfl⟩ nofun
    | executePath model protocol =>
      simp only [CopilotProvider.outside] at moved
      split at moved
      · cases moved
        exact .free rfl ⟨rfl, rfl, rfl⟩ nofun
      · split at moved
        · cases moved
        · cases moved
          exact .free rfl ⟨rfl, rfl, rfl⟩ nofun
  | importExchange host credentials label user =>
    cases moved
    exact .free rfl (importExchange_free host credentials label user) fun _ => rfl
  | importModels host credentials label user exchanged =>
    cases moved
    exact .free rfl (importModels_free host credentials label user exchanged) fun _ => rfl
  | refreshForget account idOrLogin =>
    cases moved
    exact ⟨.forget account.id, rfl, .kept rfl rfl, nofun, .inl rfl, rfl⟩
  | refreshModels account idOrLogin token =>
    simp only [CopilotProvider.outside] at moved
    split at moved
    · cases moved
      exact .free rfl ⟨rfl, rfl, rfl⟩ nofun
    · cases moved
      exact .free rfl ⟨rfl, rfl, rfl⟩ nofun
  | modelsCached accounts refresh =>
    simp only [CopilotProvider.outside] at moved
    split at moved
    · cases moved
      exact .free rfl ⟨rfl, rfl, rfl⟩ nofun
    · cases moved
      exact .free rfl ⟨rfl, rfl, rfl⟩ nofun
  | modelsWaiting accounts refresh =>
    simp only [CopilotProvider.outside] at moved
    split at moved
    · cases moved
    · cases moved
      exact ⟨.modelRefresh true, rfl, .kept rfl rfl, nofun, .inl rfl, rfl⟩
  | modelsAgain accounts refresh =>
    simp only [CopilotProvider.outside] at moved
    split at moved
    · cases moved
      exact ⟨.modelRefresh false, rfl, .kept rfl rfl, nofun, .inl rfl, rfl⟩
    · cases moved
      exact .free rfl ⟨rfl, rfl, rfl⟩ nofun
  | modelsNext discovery =>
    simp only [CopilotProvider.outside] at moved
    split at moved
    · cases moved
      exact .free rfl ⟨rfl, rfl, rfl⟩ nofun
    · cases moved
      exact .free rfl ⟨rfl, rfl, rfl⟩ nofun
  | modelsFetch discovery account token =>
    simp only [CopilotProvider.outside] at moved
    split at moved
    · cases moved
      exact .free rfl ⟨rfl, rfl, rfl⟩ nofun
    · cases moved
      exact .free rfl ⟨rfl, rfl, rfl⟩ nofun
  | executeNext execution =>
    simp only [CopilotProvider.outside] at moved
    split at moved
    · cases moved
      exact .free rfl (unanswered_free execution _) nofun
    · cases moved
      exact .free rfl ⟨rfl, rfl, rfl⟩ nofun
  | executeAccounts execution capable =>
    simp only [CopilotProvider.outside] at moved
    split at moved
    · cases moved
    · split at moved
      · cases moved
        exact .free rfl (unanswered_free execution _) nofun
      · cases moved
        exact .free rfl ⟨rfl, rfl, rfl⟩ nofun
  | executeLimits execution accounts =>
    simp only [CopilotProvider.outside] at moved
    split at moved
    · cases moved
      exact .free rfl (unanswered_free execution _) nofun
    · obtain ⟨account, -, same⟩ := Option.map_eq_some_iff.1 moved
      cases same
      exact .free rfl ⟨rfl, rfl, rfl⟩ nofun
  | executeSend execution account token retriedAuth =>
    cases moved
    have free : (CopilotProvider.executeSend answer execution account retriedAuth).Free ∧ _ :=
      executeSend_free execution account retriedAuth
    exact .free rfl free.1 (by rw [free.2]; nofun)
  | executeForget execution account =>
    cases moved
    exact ⟨.forget account.id, rfl, .kept rfl rfl, nofun, .inl rfl, rfl⟩
  | executeFailed execution id error =>
    simp only [CopilotProvider.outside] at moved
    split at moved
    · cases moved
    case isFalse free =>
      cases moved
      exact ⟨.health id (some error) (by simpa using free), rfl, .kept rfl (setAccountRuntimeError_locks id _), nofun, .inl rfl, rfl⟩
  | executeSettled id error =>
    simp only [CopilotProvider.outside] at moved
    split at moved
    · cases moved
    case isFalse free =>
      cases moved
      exact ⟨.health id error (by simpa using free), rfl, .kept rfl (setAccountRuntimeError_locks id _), nofun, .inl rfl, rfl⟩
  | tokenCached account caller =>
    simp only [CopilotProvider.outside] at moved
    split at moved
    · cases moved
      exact .free rfl (resume_free account caller _) (by rw [resume_managed]; nofun)
    · cases moved
      exact .free rfl ⟨rfl, rfl, rfl⟩ nofun
  | tokenWaiting account caller =>
    simp only [CopilotProvider.outside] at moved
    split at moved
    · cases moved
    case isFalse free =>
      cases moved
      exact ⟨.refreshLocks _, rfl, .taken account.id rfl rfl free rfl, nofun, .inl rfl, rfl⟩
  | tokenAgain account caller =>
    simp only [CopilotProvider.outside] at moved
    split at moved
    · cases moved
      exact .released rfl
    · have same := Option.some.inj moved
      have does : Outside provider (provider.tokenMissing answer account caller).1 (.tokenAgain account caller)
          (provider.tokenMissing answer account caller).2 := tokenMissing_does account caller rfl
      rw [same] at does
      exact does
  | tokenExchange account githubToken caller =>
    simp only [CopilotProvider.outside] at moved
    split at moved
    · cases moved
      exact .released rfl
    · cases moved
      exact ⟨.same, rfl, .kept rfl rfl, nofun, .inl rfl, rfl⟩
  | tokenStore account token caller =>
    cases moved
    have free := resume_free account caller (.ok token)
    exact ⟨.store account token caller rfl _, free.outside, .released account.id rfl free.refreshing rfl,
      by rw [resume_managed]; nofun, .inl (granted_none free.refreshing), free.told⟩
  | tokenRefresh account caller => cases moved
  | entering change => cases moved
  | inside here => cases moved
  | done outcome => cases moved

end Outside

/-! ### Under the mutation lock -/

def CopilotAccount.cell (account : CopilotAccount) : String × CopilotCredentials := (account.id, account.credentials)

def cells (accounts : List CopilotAccount) : List (String × CopilotCredentials) := accounts.map CopilotAccount.cell

/-- What is to be saved is the list with the change that the operation makes. -/
def After.Follows (accounts next : List CopilotAccount) : After → Prop
  | .added account _ _ => cells next = cells accounts ++ [account.cell]
  | .edited _ => cells next = cells accounts
  | .removed account => ∃ i, (cells accounts)[i]? = some account.cell ∧ cells next = (cells accounts).eraseIdx i
  | .refreshed id _ _ => cells next = cells accounts ∧ id ∈ accounts.map (·.id)
  | .discovered snapshot outcome => outcome.told = none ∧
    cells next = cells accounts ∧ ∀ id, (snapshot.get? id).isSome = true → id ∈ accounts.map (·.id)
  | .credentials account written _ => ∃ i, (cells accounts).findIdx? (·.1 = account.id) = some i ∧
      cells next = (cells accounts).modify i fun cell => (cell.1, written)

def CopilotProvider.ids (provider : CopilotProvider) : List String := provider.accounts.map (·.id)

def Section.Sound (provider : CopilotProvider) : Section → Prop
  | .savingModels snapshot list _ outcome => (After.discovered snapshot outcome).Follows provider.accounts list
  | .saving list then_ => then_.Follows provider.accounts list
  | .addedToken account _ _ => account.id ∈ provider.ids
  | .addedLimit account _ => account.id ∈ provider.ids
  | .addedModels account _ => account.id ∈ provider.ids
  | .refreshedModels id _ _ => id ∈ provider.ids
  | _ => True

section Inside

variable {provider after : CopilotProvider} {answer : Answer} {change : Change} {next : Phase}

inductive Entered (provider : CopilotProvider) (change : Change) : CopilotProvider → Phase → Prop where
  | refused (error : String) (plain : (Phase.entering change).refreshing = none) :
    Entered provider change provider (.done (.failed error))
  | gone (account : CopilotAccount) (credentials : CopilotCredentials) (now : Int) (caller : Caller) (error : String)
    (here : change = .credentials account credentials now caller)
    (absent : account.id ∉ provider.accounts.map (·.id)) :
    Entered provider change (provider.unlockRefresh account.id) (resume account caller (.error error))
  | missing (id idOrLogin : String) (plain : (Phase.entering change).refreshing = none) :
    Entered provider change { provider with mutation := true } (.inside (.refreshedMissing id idOrLogin))
  | saving (list : List CopilotAccount) (then_ : After) (follows : then_.Follows provider.accounts list)
    (holder : (Phase.inside (.saving list then_)).refreshing = (Phase.entering change).refreshing)
    (kind : (Phase.inside (.saving list then_)).managed = (Phase.entering change).managed)
    (granted : (Phase.inside (.saving list then_)).granted = (Phase.entering change).granted) :
    Entered provider change { provider with mutation := true, accountsLocked := true } (.inside (.saving list then_))
  | discovering (snapshot : Table String AccountModelCache) (list : List CopilotAccount) (changed : Bool)
    (outcome : Outcome) (follows : (After.discovered snapshot outcome).Follows provider.accounts list)
    (plain : (Phase.entering change).refreshing = none) :
    Entered provider change { provider with mutation := true, accountsLocked := true }
      (.inside (.savingModels snapshot list changed outcome))

variable {accounts : List CopilotAccount} {there : Section}

theorem cells_modify (i : Nat) {f : CopilotAccount → CopilotAccount}
    (same : ∀ account, (f account).cell = account.cell) : cells (accounts.modify i f) = cells accounts :=
  Indexed.map_modify_same accounts i same

theorem ids_cells (accounts : List CopilotAccount) : (cells accounts).map Prod.fst = accounts.map (·.id) := by
  rw [cells, List.map_map]
  rfl

theorem found_id (found : accounts.findIdx? (·.id = id) = some i) : id ∈ accounts.map (·.id) := by
  obtain ⟨inside, same, -⟩ := List.findIdx?_eq_some_iff_getElem.1 found
  rw [← of_decide_eq_true same]
  exact List.mem_map_of_mem (List.getElem_mem inside)

theorem After.Follows.congr {others list : List CopilotAccount} (same : cells others = cells accounts) {then_ : After}
    (follows : then_.Follows accounts list) : then_.Follows others list := by
  have ids : others.map (·.id) = accounts.map (·.id) := by rw [← ids_cells, ← ids_cells, same]
  cases then_ with
  | added account exchanged models => exact Eq.trans follows (by rw [same])
  | edited disabled => exact Eq.trans follows same.symm
  | removed account =>
    obtain ⟨i, here, rest⟩ := follows
    exact ⟨i, by rw [same, here], by rw [same, rest]⟩
  | refreshed id models now => exact ⟨follows.1.trans same.symm, by rw [ids]; exact follows.2⟩
  | discovered snapshot outcome =>
    refine ⟨follows.1, follows.2.1.trans same.symm, ?_⟩
    rw [ids]
    exact follows.2.2
  | credentials account written caller =>
    obtain ⟨i, found, rest⟩ := follows
    exact ⟨i, by rw [same, found], by rw [same, rest]⟩

theorem Section.Sound.congr (same : cells after.accounts = cells provider.accounts) {here : Section}
    (sound : here.Sound provider) : here.Sound after := by
  have ids : after.ids = provider.ids := by
    unfold CopilotProvider.ids
    rw [← ids_cells, ← ids_cells, same]
  cases here with
  | savingModels snapshot list changed outcome =>
    have follows : (After.discovered snapshot outcome).Follows provider.accounts list := sound
    exact follows.congr same
  | saving list then_ =>
    have follows : then_.Follows provider.accounts list := sound
    exact follows.congr same
  | addedToken account exchanged models =>
    rw [Section.Sound, ids]
    exact sound
  | addedLimit account models =>
    rw [Section.Sound, ids]
    exact sound
  | addedModels account models =>
    rw [Section.Sound, ids]
    exact sound
  | refreshedModels id models now =>
    rw [Section.Sound, ids]
    exact sound
  | _ => exact True.intro

theorem edit_cell (now : Int) (edit : Edit) (account : CopilotAccount) :
    (edit.apply now account).cell = account.cell := by
  cases edit with
  | enabled value => rfl
  | tags add remove => rfl
  | health => rfl

theorem discover_does (discovery : Discovery) (now : Int) :
    ∃ snapshot list changed outcome, provider.discover discovery now = .savingModels snapshot list changed outcome ∧
      (After.discovered snapshot outcome).Follows provider.accounts list := by
  refine ⟨_, _, _, _, rfl, ?_, ?_, ?_⟩
  · split
    · rfl
    · rfl
  · unfold cells
    rw [List.map_map]
    apply List.map_congr_left
    intro account _
    dsimp only [Function.comp]
    split
    · rfl
    · rfl
    · rfl
  · intro id found
    obtain ⟨entry, found⟩ := Option.isSome_iff_exists.1 found
    have kept := (Table.get?_filter found).1
    rw [Bool.and_eq_true, decide_eq_true_iff] at kept
    have enabled : id ∈ (provider.accounts.filter (·.enabled)).map (·.id) := kept.1
    obtain ⟨account, member, rfl⟩ := List.mem_map.1 enabled
    exact List.mem_map_of_mem (List.mem_filter.1 member).1

theorem enter_does (moved : provider.enter answer change = some (after, next)) :
    provider.mutation = false ∧ Entered provider change after next := by
  unfold CopilotProvider.enter at moved
  split at moved
  case isTrue => cases moved
  case isFalse free =>
    have unlocked : provider.mutation = false := by
      rw [Bool.or_eq_true, not_or] at free
      simpa using free.1
    refine ⟨unlocked, ?_⟩
    dsimp only at moved
    cases change with
    | add account exchanged models =>
      dsimp only at moved
      split at moved
      · cases moved
        exact .refused _ rfl
      · cases moved
        exact .saving _ _ (by simp [After.Follows, cells]) rfl rfl rfl
    | edit idOrLogin edit =>
      dsimp only at moved
      split at moved
      · cases moved
        exact .saving _ _ (cells_modify _ fun account => edit_cell answer.now edit account) rfl rfl rfl
      · cases moved
        exact .refused _ rfl
    | remove idOrLogin =>
      dsimp only at moved
      split at moved
      case h_1 i found =>
        obtain ⟨account, here, same⟩ := Option.map_eq_some_iff.1 moved
        cases same
        refine .saving _ _ ⟨i, ?_, ?_⟩ rfl rfl rfl
        · rw [cells, List.getElem?_map, here]
          rfl
        · rw [cells, cells, List.eraseIdx_map]
      · cases moved
        exact .refused _ rfl
    | refreshed account idOrLogin token models now =>
      dsimp only at moved
      split at moved
      case h_1 i found =>
        cases moved
        refine .saving _ _ ⟨cells_modify i fun _ => rfl, ?_⟩ rfl rfl rfl
        exact found_id found
      · cases moved
        exact .missing _ _ rfl
    | discovered discovery now =>
      dsimp only at moved
      have does : ∃ snapshot list changed outcome,
          provider.discover discovery now = .savingModels snapshot list changed outcome ∧
            (After.discovered snapshot outcome).Follows provider.accounts list := discover_does discovery now
      obtain ⟨snapshot, list, changed, outcome, same, follows⟩ := does
      rw [same] at moved
      cases moved
      exact .discovering snapshot list changed outcome follows rfl
    | credentials account credentials now caller =>
      dsimp only at moved
      split at moved
      case h_1 i found =>
        cases moved
        refine .saving _ _ ⟨i, ?_, ?_⟩ rfl rfl rfl
        · rw [cells, List.findIdx?_map]
          exact found
        · exact Indexed.map_modify _ i fun _ => rfl
      case h_2 found =>
        cases moved
        refine .gone account credentials now caller _ rfl ?_
        intro member
        obtain ⟨other, listed, same⟩ := List.mem_map.1 member
        have different := List.findIdx?_eq_none_iff.1 found other listed
        simp [same] at different

theorem advance_cases {world later : World} {phase : Phase}
    (moved : provider.advance answer world phase = some (later, after, next)) :
    phase.isInside = false ∧
      (phase.granted = none ∧ later.files = world.files ∧
        (later.log = world.log ∨ ∃ account caller, phase = .tokenRefresh account caller)) ∧
      Outside provider after phase next ∨
    (∃ change, phase = .entering change ∧ later = world ∧ provider.mutation = false ∧
      Entered provider change after next) ∨
    ∃ here, phase = .inside here ∧ provider.inside answer world here = (later, after, next) := by
  have outside : ∀ other : Phase, other.isInside = false → other.granted = none →
      (provider.outside answer other).map (world, ·) = some (later, after, next) →
      other.isInside = false ∧
        (other.granted = none ∧ later.files = world.files ∧
          (later.log = world.log ∨ ∃ account caller, other = .tokenRefresh account caller)) ∧
        Outside provider after other next := by
    intro other apart ungranted moved
    obtain ⟨result, moved, same⟩ := Option.map_eq_some_iff.1 moved
    cases same
    exact ⟨apart, ⟨ungranted, rfl, .inl rfl⟩, outside_does moved⟩
  cases phase with
  | entering change =>
    obtain ⟨result, moved, same⟩ := Option.map_eq_some_iff.1 moved
    cases same
    obtain ⟨unlocked, entered⟩ := enter_does moved
    exact .inr (.inl ⟨change, rfl, rfl, unlocked, entered⟩)
  | inside here => exact .inr (.inr ⟨here, rfl, Option.some.inj moved⟩)
  | tokenRefresh account caller =>
    have does : Outside provider (provider.tokenRefresh answer account caller).2.1 _ _ :=
      tokenRefresh_does account caller
    simp only [CopilotProvider.advance] at moved
    generalize provider.tokenRefresh answer account caller = result at does moved
    obtain ⟨events, changed, phase⟩ := result
    cases moved
    exact .inl ⟨rfl, ⟨rfl, rfl, .inr ⟨account, caller, rfl⟩⟩, does⟩
  | _ => exact .inl (outside _ rfl rfl moved)

/-! ### Who holds the mutation lock -/

theorem touched_cells {phase : Phase} (touched : Touched provider phase after) :
    cells after.accounts = cells provider.accounts := by
  cases touched with
  | health id error free =>
    unfold CopilotProvider.setAccountRuntimeError
    split
    · exact cells_modify _ fun _ => rfl
    · rfl
  | _ => rfl

theorem touched_mutation {phase : Phase} (touched : Touched provider phase after) :
    after.mutation = provider.mutation ∧ after.accountsLocked = provider.accountsLocked := by
  cases touched with
  | health id error free =>
    unfold CopilotProvider.setAccountRuntimeError
    split
    · exact ⟨rfl, rfl⟩
    · exact ⟨rfl, rfl⟩
  | _ => exact ⟨rfl, rfl⟩

theorem entered_mutation (entered : Entered provider change after next) (unlocked : provider.mutation = false) :
    after.mutation = next.isInside := by
  cases entered with
  | refused error plain => exact unlocked
  | gone account credentials now caller error here absent =>
    rw [(resume_free account caller _).outside]
    exact unlocked
  | missing id idOrLogin plain => rfl
  | saving list then_ follows holder kind granted => rfl
  | discovering snapshot list changed outcome follows plain => rfl

theorem saved_mutation (locked : provider.mutation = true) (list : List CopilotAccount) (then_ : After) :
    (provider.saved list then_).1.mutation = (provider.saved list then_).2.isInside := by
  cases then_ with
  | edited disabled => cases disabled <;> first | rfl | exact locked
  | discovered snapshot outcome => rfl
  | credentials account written caller => rfl
  | _ => exact locked

theorem unsaved_mutation (error : String) (then_ : After) :
    (provider.unsaved error then_).1.mutation = false ∧ (provider.unsaved error then_).2.isInside = false := by
  cases then_ with
  | credentials account written caller => exact ⟨rfl, (resume_free account caller _).outside⟩
  | _ => exact ⟨rfl, rfl⟩

theorem inside_mutation (locked : provider.mutation = true) (answer : Answer) (world : World) (here : Section) :
    (provider.inside answer world here).2.1.mutation = (provider.inside answer world here).2.2.isInside := by
  cases here with
  | savingModels snapshot list changed outcome =>
    simp only [CopilotProvider.inside]
    split
    · rfl
    · split
      · exact locked
      · exact saved_mutation locked list _
  | saving list then_ =>
    simp only [CopilotProvider.inside]
    split
    · obtain ⟨free, out⟩ := unsaved_mutation _ then_
      rw [free, out]
    · exact saved_mutation locked list then_
  | disabledToken id => rfl
  | refreshedMissing id idOrLogin => rfl
  | writingModels outcome => rfl
  | _ => exact locked

theorem step_held (held : Holder.Held Phase.isInside client.calls client.provider.mutation) (action : Nat × Answer) :
    Holder.Held Phase.isInside (client.step action).calls (client.step action).provider.mutation := by
  unfold Client.step
  split
  case h_2 => exact held
  case h_1 world provider phase moved =>
    dsimp only
    rcases advance_cases moved with ⟨apart, -, does⟩ | ⟨change, here, -, unlocked, entered⟩ | ⟨section_, here, does⟩
    · rw [(touched_mutation does.touched).1]
      exact held.keep (by rw [does.outside, apart])
    · have flag := entered_mutation entered unlocked
      rw [unlocked] at held
      cases inside : phase.isInside with
      | true =>
        rw [flag, inside]
        exact held.take inside
      | false =>
        rw [flag, inside]
        exact held.keep (by rw [inside, here]; rfl)
    · have had : (client.calls action.1).isInside = true := by
        rw [here]
        rfl
      have locked := held.set action.1 had
      have flag := inside_mutation locked action.2 client.world section_
      rw [does] at flag
      dsimp only at flag
      rw [flag]
      cases inside : phase.isInside with
      | true =>
        rw [locked] at held
        exact held.keep (by rw [inside, had])
      | false => exact held.release had inside

/-! ### What an operation knows under the lock -/

theorem saved_sound {list : List CopilotAccount} {then_ : After} (follows : then_.Follows provider.accounts list)
    (same : (provider.saved list then_).2 = .inside there) :
    there.Sound (provider.saved list then_).1 := by
  cases then_ with
  | added account exchanged models =>
    cases same
    have grown : cells list = cells provider.accounts ++ [account.cell] := follows
    show account.id ∈ list.map (·.id)
    rw [← ids_cells, grown, List.map_append]
    exact List.mem_append_right _ (List.mem_singleton_self account.id)
  | edited disabled =>
    cases disabled with
    | none => cases same
    | some id =>
      cases same
      exact True.intro
  | removed account =>
    cases same
    exact True.intro
  | refreshed id models now =>
    cases same
    show id ∈ list.map (·.id)
    rw [← ids_cells, follows.1, ids_cells]
    exact follows.2
  | discovered snapshot outcome => cases same
  | credentials account written caller => cases same

theorem unsaved_leaves (error : String) (then_ : After) :
    (provider.unsaved error then_).2 ≠ .inside there := by
  intro same
  have out : (provider.unsaved error then_).2.isInside = false := (unsaved_mutation error then_).2
  rw [same] at out
  cases out

theorem inside_sound {here : Section} (sound : here.Sound provider) (answer : Answer) (world : World)
    (same : (provider.inside answer world here).2.2 = .inside there) :
    there.Sound (provider.inside answer world here).2.1 := by
  cases here with
  | savingModels snapshot list changed outcome =>
    simp only [CopilotProvider.inside] at same ⊢
    split at same
    · cases same
    · split at same
      case isTrue changes =>
        cases same
        rw [if_pos changes]
        exact sound
      case isFalse => cases same
  | saving list then_ =>
    simp only [CopilotProvider.inside] at same ⊢
    split at same
    · exact absurd same (unsaved_leaves _ then_)
    · exact saved_sound sound same
  | addedToken account exchanged models =>
    cases same
    exact sound
  | addedLimit account models =>
    cases same
    exact sound
  | disabledToken id => cases same
  | refreshedMissing id idOrLogin => cases same
  | writingModels outcome => cases same
  | _ =>
    cases same
    exact True.intro

theorem entered_sound (entered : Entered provider change after next) (same : next = .inside there) :
    there.Sound after := by
  cases entered with
  | refused error plain => cases same
  | gone account credentials now caller error given absent =>
    have out := (resume_free account caller (.error error)).outside
    rw [same] at out
    cases out
  | missing id idOrLogin plain =>
    cases same
    exact True.intro
  | saving list then_ follows holder kind granted =>
    cases same
    exact follows
  | discovering snapshot list changed outcome follows plain =>
    cases same
    exact follows

end Inside

/-! ### Every interleaving -/

structure Sound (client : Client) : Prop where
  held : Holder.Held Phase.isInside client.calls client.provider.mutation
  sound : ∀ i here, client.calls i = .inside here → here.Sound client.provider

theorem Sound.nobody (sound : Sound client) (unlocked : client.provider.mutation = false) (i : Nat) :
    (client.calls i).isInside = false := by
  by_contra inside
  have locked := sound.held.set i (by simpa using inside)
  rw [unlocked] at locked
  cases locked

theorem Sound.alone (sound : Sound client) {j : Nat} (had : (client.calls i).isInside = true) (different : j ≠ i) :
    (client.calls j).isInside = false := by
  by_contra inside
  exact different (sound.held.one j i (by simpa using inside) had)

theorem step_sound (before : Sound client) (action : Nat × Answer) : Sound (client.step action) := by
  have held := step_held before.held action
  unfold Client.step at held ⊢
  split at held
  case h_2 => exact before
  case h_1 world after next moved =>
    refine ⟨held, ?_⟩
    intro i there here
    dsimp only at here ⊢
    rcases eq_or_ne i action.1 with rfl | different
    · rw [Function.update_self] at here
      rcases advance_cases moved with ⟨-, -, does⟩ | ⟨change, -, -, -, entered⟩ | ⟨work, was, does⟩
      · have out := does.outside
        rw [here] at out
        cases out
      · exact entered_sound entered here
      · have later : _ → there.Sound (client.provider.inside action.2 client.world work).2.1 :=
          inside_sound (before.sound action.1 work was) action.2 client.world
        rw [does] at later
        exact later here
    · rw [Function.update_of_ne different] at here
      have inside : (client.calls i).isInside = true := by
        rw [here]
        rfl
      rcases advance_cases moved with ⟨-, -, does⟩ | ⟨change, -, -, unlocked, -⟩ | ⟨work, was, -⟩
      · exact (before.sound i there here).congr (touched_cells does.touched)
      · rw [before.nobody unlocked i] at inside
        cases inside
      · have had : (client.calls action.1).isInside = true := by
          rw [was]
          rfl
        rw [before.alone had different] at inside
        cases inside

def opened (id : String) (enabled : Bool) (settings : CopilotSettings) (files : Files)
    (operations : Nat → Operation) : Client where
  world := { files := files }
  provider := load id enabled settings files
  calls i := .ready (operations i)

theorem opened_sound (id : String) (enabled : Bool) (settings : CopilotSettings) (files : Files)
    (operations : Nat → Operation) : Sound (opened id enabled settings files operations) := by
  refine ⟨⟨?_, ?_, ?_⟩, ?_⟩
  · intro up
    cases up
  · intro i inside
    cases inside
  · intro i j inside
    cases inside
  · intro i here same
    cases same

theorem step_other (client : Client) {action : Nat × Answer} (apart : action.1 ≠ i) :
    (client.step action).calls i = client.calls i := by
  unfold Client.step
  split
  · exact Function.update_of_ne (Ne.symm apart) _ _
  · rfl

theorem run_untouched (client : Client) {actions : List (Nat × Answer)} (apart : ∀ action ∈ actions, action.1 ≠ i) :
    (Run.run Client.step client actions).calls i = client.calls i := by
  induction actions generalizing client with
  | nil => rfl
  | cons action rest ih =>
    rw [Run.run_cons, ih _ fun other member => apart other (List.mem_cons_of_mem action member),
      step_other client (apart action List.mem_cons_self)]

end KiroProxy.Copilot

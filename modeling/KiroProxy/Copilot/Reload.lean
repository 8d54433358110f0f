import KiroProxy.Copilot.AccountsFile
import KiroProxy.Lib.Run

/-! `ProviderManager` and the instances of the Copilot provider that it loads: each has its own list of the accounts,
and all write the same file. -/
namespace KiroProxy.Copilot

open Run

structure CopilotConfig where
  enabled : Bool
  settings : CopilotSettings
  deriving DecidableEq

/-- An instance is named by its place among all that have been loaded. -/
structure CopilotEntry where
  config : CopilotConfig
  runtime : Nat

/-- An operation takes its instance from the registry or from the manager, and keeps it. -/
inductive ManagerCall where
  | request (registered : Bool) (operation : Operation)
  | unavailable
  | running (runtime : Nat) (phase : Phase)
  | reconcile (config : Option CopilotConfig)
  | comparing (config : Option CopilotConfig)
  | loading (config : CopilotConfig) (accounts : List CopilotAccount)
  | prepared (entry : Option CopilotEntry)
  | publishing (entry : Option CopilotEntry)
  | registering (runtime : Option Nat)
  | reconciled

structure ProviderManager where
  id : String
  world : World
  instances : List CopilotProvider := []
  copilots : Option CopilotEntry := none
  registry : Option Nat := none
  readers : Nat := 0
  calls : Nat → ManagerCall

def started (runtime : Option Nat) (operation : Operation) : ManagerCall :=
  match runtime with
  | some runtime => .running runtime (.ready operation)
  | none => .unavailable

namespace ProviderManager

def proceed (manager : ProviderManager) (i : Nat) (call : ManagerCall) : ProviderManager :=
  { manager with calls := Function.update manager.calls i call }

/-- An instance with the same configuration stays; else one is loaded, and its accounts are read first. -/
def compare (manager : ProviderManager) (answer : Answer) : Option CopilotConfig → ManagerCall
  | none => .prepared none
  | some config =>
    match manager.copilots.filter (·.config = config) with
    | some entry => .prepared (some entry)
    | none => if answer.accountsLoaded then .loading config manager.world.files.accounts else .prepared none

def loaded (manager : ProviderManager) (config : CopilotConfig) (accounts : List CopilotAccount) : CopilotProvider :=
  load manager.id config.enabled config.settings ⟨accounts, manager.world.files.models⟩

/-- One access of a call. `reconcile` keeps `copilots` from being written while it reads it. -/
def step (manager : ProviderManager) (action : Nat × Answer) : ProviderManager :=
  let (i, answer) := action
  match manager.calls i with
  | .request true operation => manager.proceed i (started manager.registry operation)
  | .request false operation => manager.proceed i (started (manager.copilots.map CopilotEntry.runtime) operation)
  | .running k phase =>
    match manager.instances[k]? with
    | some provider =>
      match provider.advance answer manager.world phase with
      | some (world, after, next) =>
        { manager with world := world, instances := manager.instances.set k after }.proceed i (.running k next)
      | none => manager
    | none => manager
  | .reconcile config => { manager with readers := manager.readers + 1 }.proceed i (.comparing config)
  | .comparing config => manager.proceed i (manager.compare answer config)
  | .loading config accounts =>
    if answer.modelsLoaded then
      { manager with instances := manager.instances ++ [manager.loaded config accounts] }.proceed i
        (.prepared (some ⟨config, manager.instances.length⟩))
    else manager.proceed i (.prepared none)
  | .prepared entry => { manager with readers := manager.readers - 1 }.proceed i (.publishing entry)
  | .publishing entry =>
    if manager.readers = 0 then
      { manager with copilots := entry }.proceed i (.registering (entry.map CopilotEntry.runtime))
    else manager
  | .registering runtime => { manager with registry := runtime }.proceed i .reconciled
  | .unavailable | .reconciled => manager

end ProviderManager

/-! ### The instances -/

def ManagerCall.phase (k : Nat) : ManagerCall → Phase
  | .running runtime phase => if runtime = k then phase else .done .finished
  | _ => .done .finished

def ManagerCall.runtime : ManagerCall → Option Nat
  | .running runtime _ => some runtime
  | .prepared entry | .publishing entry => entry.map CopilotEntry.runtime
  | .registering runtime => runtime
  | _ => none

def ProviderManager.client (manager : ProviderManager) (k : Nat) (provider : CopilotProvider) : Client where
  world := manager.world
  provider := provider
  calls i := (manager.calls i).phase k

/-- Under each instance its operations are as if it were alone, and no instance is named that is not there. -/
structure Managed (manager : ProviderManager) : Prop where
  sound : ∀ k provider, manager.instances[k]? = some provider → Sound (manager.client k provider)
  named : ∀ i k, (manager.calls i).runtime = some k → k < manager.instances.length
  kept : ∀ k, manager.copilots.map CopilotEntry.runtime = some k → k < manager.instances.length
  registered : ∀ k, manager.registry = some k → k < manager.instances.length

section Instances

variable {manager : ProviderManager} {i k : Nat} {call : ManagerCall}

theorem phases_update (calls : Nat → ManagerCall) (i k : Nat) (call : ManagerCall) :
    (fun j => (Function.update calls i call j).phase k) =
      Function.update (fun j => (calls j).phase k) i (call.phase k) :=
  Function.comp_update (ManagerCall.phase k) calls i call

theorem Sound.aside {client : Client} (before : Sound client) (world : World) {i : Nat} {next : Phase}
    (had : (client.calls i).isInside = false) (out : next.isInside = false) :
    Sound ⟨world, client.provider, Function.update client.calls i next⟩ := by
  refine ⟨before.held.keep (by rw [out, had]), ?_⟩
  intro j here same
  dsimp only at same
  rcases eq_or_ne j i with rfl | different
  · rw [Function.update_self] at same
    rw [same] at out
    cases out
  · rw [Function.update_of_ne different] at same
    exact before.sound j here same

def ManagerCall.idle (call : ManagerCall) : Prop := ∀ k, (call.phase k).isInside = false

theorem named_update {calls : Nat → ManagerCall} {bound : Nat}
    (named : ∀ i k, (calls i).runtime = some k → k < bound) (now : ∀ k, call.runtime = some k → k < bound)
    (j l : Nat) (has : (Function.update calls i call j).runtime = some l) : l < bound := by
  rcases eq_or_ne j i with rfl | different
  · rw [Function.update_self] at has
    exact now l has
  · rw [Function.update_of_ne different] at has
    exact named j l has

theorem Managed.proceed (before : Managed manager) (had : (manager.calls i).idle) (out : call.idle)
    (now : ∀ k, call.runtime = some k → k < manager.instances.length) : Managed (manager.proceed i call) := by
  refine ⟨?_, named_update before.named now, before.kept, before.registered⟩
  intro k provider here
  unfold ProviderManager.client ProviderManager.proceed
  dsimp only
  rw [phases_update]
  exact (before.sound k provider here).aside manager.world (had k) (out k)

theorem Managed.readers (before : Managed manager) (readers : Nat) : Managed { manager with readers := readers } :=
  ⟨before.sound, before.named, before.kept, before.registered⟩

theorem Managed.loaded (before : Managed manager) (config : CopilotConfig) (accounts : List CopilotAccount) :
    Managed { manager with instances := manager.instances ++ [manager.loaded config accounts] } := by
  have grown : ∀ k, k < manager.instances.length →
      k < (manager.instances ++ [manager.loaded config accounts]).length := by
    intro k inside
    rw [List.length_append]
    exact Nat.lt_add_right _ inside
  refine ⟨?_, fun i k has => grown k (before.named i k has), fun k has => grown k (before.kept k has),
    fun k has => grown k (before.registered k has)⟩
  intro k provider here
  rcases Nat.lt_trichotomy k manager.instances.length with old | rfl | beyond
  · rw [List.getElem?_append_left old] at here
    exact before.sound k provider here
  · rw [List.getElem?_concat_length] at here
    obtain rfl := Option.some.inj here
    have nobody : ∀ i, ((manager.calls i).phase manager.instances.length).isInside = false := by
      intro i
      cases call : manager.calls i with
      | running runtime phase =>
        have inside : runtime < manager.instances.length := before.named i runtime (by rw [call]; rfl)
        rw [ManagerCall.phase, if_neg (Nat.ne_of_lt inside)]
        rfl
      | _ => rfl
    refine ⟨⟨?_, ?_, ?_⟩, ?_⟩
    · intro up
      cases up
    · intro i inside
      cases (nobody i).symm.trans inside
    · intro i j inside
      cases (nobody i).symm.trans inside
    · intro i section_ same
      have none := nobody i
      rw [show (manager.calls i).phase manager.instances.length = .inside section_ from same] at none
      cases none
  · rw [List.getElem?_eq_none (by simp; omega)] at here
    cases here

theorem Managed.advance (before : Managed manager) {answer : Answer} {provider after : CopilotProvider}
    {phase next : Phase} {world : World} (running : manager.calls i = .running k phase)
    (here : manager.instances[k]? = some provider)
    (moved : provider.advance answer manager.world phase = some (world, after, next)) :
    Managed ({ manager with world := world, instances := manager.instances.set k after }.proceed i
      (.running k next)) := by
  have same : (manager.instances.set k after).length = manager.instances.length := List.length_set
  have inside : k < manager.instances.length := before.named i k (by rw [running]; rfl)
  refine ⟨?_, ?_, ?_, ?_⟩
  · intro l other there
    unfold ProviderManager.client ProviderManager.proceed
    dsimp only
    rw [phases_update]
    rcases eq_or_ne l k with rfl | different
    · have set : (manager.instances.set l after)[l]? = some after := List.getElem?_set_self inside
      obtain rfl := Option.some.inj (there.symm.trans set)
      have stepped := step_sound (before.sound l provider here) (i, answer)
      have stands : (manager.client l provider).calls i = phase := by
        show (manager.calls i).phase l = phase
        rw [running, ManagerCall.phase, if_pos rfl]
      have moved : (manager.client l provider).provider.advance (i, answer).2 (manager.client l provider).world
          phase = some (world, other, next) := moved
      unfold Client.step at stepped
      rw [stands, moved] at stepped
      rw [ManagerCall.phase, if_pos rfl]
      exact stepped
    · have unset : (manager.instances.set k after)[l]? = manager.instances[l]? :=
        List.getElem?_set_ne (Ne.symm different)
      apply (before.sound l other (unset.symm.trans there)).aside
      · show ((manager.calls i).phase l).isInside = false
        rw [running, ManagerCall.phase, if_neg (Ne.symm different)]
        rfl
      · rw [ManagerCall.phase, if_neg (Ne.symm different)]
        rfl
  · intro j l has
    show l < (manager.instances.set k after).length
    rw [same]
    apply named_update before.named _ j l has
    intro m has
    rw [← Option.some.inj has]
    exact inside
  · intro l has
    show l < (manager.instances.set k after).length
    rw [same]
    exact before.kept l has
  · intro l has
    show l < (manager.instances.set k after).length
    rw [same]
    exact before.registered l has

theorem started_idle (runtime : Option Nat) (operation : Operation) : (started runtime operation).idle := by
  intro k
  cases runtime with
  | none => rfl
  | some runtime =>
    rw [started, ManagerCall.phase]
    split
    · rfl
    · rfl

theorem started_runtime (runtime : Option Nat) (operation : Operation) :
    (started runtime operation).runtime = runtime := by
  cases runtime with
  | none => rfl
  | some runtime => rfl

theorem compare_idle (answer : Answer) (config : Option CopilotConfig) : (manager.compare answer config).idle := by
  intro k
  cases config with
  | none => rfl
  | some config =>
    rw [ProviderManager.compare]
    split
    · rfl
    · split
      · rfl
      · rfl

theorem compare_runtime {answer : Answer} {config : Option CopilotConfig}
    (has : (manager.compare answer config).runtime = some k) : manager.copilots.map CopilotEntry.runtime = some k := by
  cases config with
  | none => cases has
  | some config =>
    rw [ProviderManager.compare] at has
    split at has
    case h_1 entry found =>
      rw [(Option.filter_eq_some_iff.1 found).1]
      exact has
    · split at has
      · cases has
      · cases has

theorem step_managed (before : Managed manager) (action : Nat × Answer) : Managed (manager.step action) := by
  obtain ⟨i, answer⟩ := action
  unfold ProviderManager.step
  dsimp only
  have idle (call : ManagerCall) (here : manager.calls i = call) (idle : call.idle) : (manager.calls i).idle := by
    rw [here]
    exact idle
  split
  case h_1 operation here =>
    apply before.proceed (idle _ here fun _ => rfl) (started_idle _ operation)
    rw [started_runtime]
    exact before.registered
  case h_2 operation here =>
    apply before.proceed (idle _ here fun _ => rfl) (started_idle _ operation)
    rw [started_runtime]
    exact before.kept
  case h_3 k phase running =>
    split
    case h_1 provider here =>
      split
      case h_1 world after next moved => exact before.advance running here moved
      case h_2 => exact before
    case h_2 => exact before
  case h_4 config here =>
    exact (before.readers _).proceed (idle _ here fun _ => rfl) (fun _ => rfl) nofun
  case h_5 config here =>
    apply before.proceed (idle _ here fun _ => rfl) (compare_idle answer config)
    intro k has
    exact before.kept k (compare_runtime has)
  case h_6 config accounts here =>
    split
    · apply (before.loaded config accounts).proceed (idle _ here fun _ => rfl) fun _ => rfl
      intro k has
      rw [← Option.some.inj has]
      simp
    · exact before.proceed (idle _ here fun _ => rfl) (fun _ => rfl) nofun
  case h_7 entry here =>
    apply (before.readers (manager.readers - 1)).proceed (idle _ here fun _ => rfl) fun _ => rfl
    intro k has
    exact before.named i k (by rw [here]; exact has)
  case h_8 entry here =>
    have known : ∀ k, entry.map CopilotEntry.runtime = some k → k < manager.instances.length :=
      fun k has => before.named i k (by rw [here]; exact has)
    split
    · have published : Managed { manager with copilots := entry } :=
        ⟨before.sound, before.named, known, before.registered⟩
      exact published.proceed (idle _ here fun _ => rfl) (fun _ => rfl) known
    · exact before
  case h_9 runtime here =>
    have known : ∀ k, runtime = some k → k < manager.instances.length :=
      fun k has => before.named i k (by rw [here]; exact has)
    have registered : Managed { manager with registry := runtime } :=
      ⟨before.sound, before.named, before.kept, known⟩
    exact registered.proceed (idle _ here fun _ => rfl) (fun _ => rfl) nofun
  case h_10 => exact before
  case h_11 => exact before

end Instances

/-! ### The accounts file -/

def ManagerCall.operation : ManagerCall → Phase
  | .running _ phase => phase
  | _ => .done .finished

def ProviderManager.told (manager : ProviderManager) (i : Nat) : Option Outcome := (manager.calls i).operation.told

structure Filed (known : List String) (manager : ProviderManager) : Prop where
  managed : Managed manager
  kept : Kept known (cells manager.world.files.accounts) manager.world.log
  told : Told known manager.world.log manager.told

/-- The instance that an access has write the accounts file, and what it writes. -/
def ProviderManager.saving (manager : ProviderManager) (action : Nat × Answer) : Option (CopilotProvider × After) :=
  match manager.calls action.1, action.2.accountsSaved with
  | .running k (.inside (.saving _ then_)), .ok () => manager.instances[k]?.map (·, then_)
  | _, _ => none

/-- An instance writes the accounts file only while its list has the accounts and the credentials of the file. -/
def ProviderManager.current (manager : ProviderManager) (action : Nat × Answer) : Bool :=
  (manager.saving action).all fun saving => cells saving.1.accounts = cells manager.world.files.accounts

def ProviderManager.newIds (known : List String) (manager : ProviderManager) (action : Nat × Answer) : Bool :=
  (manager.saving action).all fun saving => NewAccount known manager.world.log saving.2

section Filed_

variable {manager : ProviderManager} {known : List String}

theorem told_update (manager : ProviderManager) (i : Nat) (call : ManagerCall) :
    (manager.proceed i call).told = Function.update manager.told i call.operation.told :=
  Function.comp_update (fun call : ManagerCall => call.operation.told) manager.calls i call

theorem step_cases (manager : ProviderManager) (action : Nat × Answer) :
    (manager.step action).world = manager.world ∧ (manager.step action).told = manager.told ∨
      ∃ k phase provider world after next, manager.calls action.1 = .running k phase ∧
        manager.instances[k]? = some provider ∧
        provider.advance action.2 manager.world phase = some (world, after, next) ∧
        (manager.step action).world = world ∧
        (manager.step action).told = Function.update manager.told action.1 next.told := by
  obtain ⟨i, answer⟩ := action
  have silent (later : ProviderManager) (same : later.told = manager.told) (call : ManagerCall)
      (had : manager.told i = none) (out : call.operation.told = none) :
      (later.proceed i call).told = manager.told := by
    rw [told_update, same, out, ← had, Function.update_eq_self]
  have started_silent (runtime : Option Nat) (operation : Operation) :
      (started runtime operation).operation.told = none := by
    cases runtime <;> rfl
  unfold ProviderManager.step
  dsimp only
  split
  case h_1 operation here =>
    exact .inl ⟨rfl, silent manager rfl _ (by rw [ProviderManager.told, here]; rfl) (started_silent _ operation)⟩
  case h_2 operation here =>
    exact .inl ⟨rfl, silent manager rfl _ (by rw [ProviderManager.told, here]; rfl) (started_silent _ operation)⟩
  case h_3 k phase running =>
    split
    case h_1 provider here =>
      split
      case h_1 world after next moved =>
        exact .inr ⟨k, phase, provider, world, after, next, running, here, moved, rfl, told_update _ i _⟩
      case h_2 => exact .inl ⟨rfl, rfl⟩
    case h_2 => exact .inl ⟨rfl, rfl⟩
  case h_4 config here =>
    exact .inl ⟨rfl, silent _ rfl _ (by rw [ProviderManager.told, here]; rfl) rfl⟩
  case h_5 config here =>
    refine .inl ⟨rfl, silent manager rfl _ (by rw [ProviderManager.told, here]; rfl) ?_⟩
    cases config with
    | none => rfl
    | some config =>
      rw [ProviderManager.compare]
      split
      · rfl
      · split
        · rfl
        · rfl
  case h_6 config accounts here =>
    have had : manager.told i = none := by rw [ProviderManager.told, here]; rfl
    split
    · exact .inl ⟨rfl, silent _ rfl _ had rfl⟩
    · exact .inl ⟨rfl, silent manager rfl _ had rfl⟩
  case h_7 entry here =>
    exact .inl ⟨rfl, silent _ rfl _ (by rw [ProviderManager.told, here]; rfl) rfl⟩
  case h_8 entry here =>
    split
    · exact .inl ⟨rfl, silent _ rfl _ (by rw [ProviderManager.told, here]; rfl) rfl⟩
    · exact .inl ⟨rfl, rfl⟩
  case h_9 runtime here =>
    exact .inl ⟨rfl, silent _ rfl _ (by rw [ProviderManager.told, here]; rfl) rfl⟩
  case h_10 => exact .inl ⟨rfl, rfl⟩
  case h_11 => exact .inl ⟨rfl, rfl⟩

theorem step_filed {action : Nat × Answer} (before : Filed known manager) (new : manager.newIds known action = true)
    (current : manager.current action = true) : Filed known (manager.step action) := by
  have managed := step_managed before.managed action
  rcases step_cases manager action with ⟨world, told⟩ |
    ⟨k, phase, provider, world, after, next, running, here, moved, later, told⟩
  · refine ⟨managed, ?_, ?_⟩
    · rw [world]
      exact before.kept
    · rw [world, told]
      exact before.told
  · have had : manager.told action.1 = phase.told := by
      rw [ProviderManager.told, running]
      rfl
    have sound : ∀ there, phase = .inside there → there.Sound provider := by
      intro there same
      apply (before.managed.sound k provider here).sound action.1 there
      show (manager.calls action.1).phase k = _
      rw [running, ManagerCall.phase, if_pos rfl]
      exact same
    cases advance_access moved sound with
    | quiet same tells log =>
      rw [tells, ← had, Function.update_eq_self] at told
      rcases log with log | ⟨token, issued, log⟩
      · refine ⟨managed, ?_, ?_⟩
        · rw [later, same, log]
          exact before.kept
        · rw [later, told, log]
          exact before.told
      · refine ⟨managed, ?_, ?_⟩
        · rw [later, same, log]
          exact before.kept.quiet rfl rfl rfl
        · rw [later, told, log]
          exact before.told.quiet
    | saved list then_ inside saves same tells log =>
      have saving : manager.saving action = some (provider, then_) := by
        rw [ProviderManager.saving, running, inside, saves]
        dsimp only
        rw [here]
        rfl
      rw [ProviderManager.newIds, saving] at new
      rw [ProviderManager.current, saving] at current
      have follows : then_.Follows provider.accounts list := sound _ inside
      refine ⟨managed, ?_, ?_⟩
      · rw [later, same, log]
        exact before.kept.save (follows.congr (of_decide_eq_true current).symm) (of_decide_eq_true new)
      · rw [later, told, tells, log]
        exact before.told.save (by rw [had, inside]; rfl) then_

end Filed_

/-! ### Every interleaving -/

def ProviderManager.returned (manager : ProviderManager) (i : Nat) : Option Outcome :=
  match manager.calls i with
  | .running _ (.done outcome) => some outcome
  | _ => none

/-- The accounts file has every account that it is to have, none that was removed, and the newest credentials. -/
structure NothingLost (known : List String) (manager : ProviderManager) : Prop where
  listed : ∀ id, (id ∈ known ∨ ∃ i account, manager.returned i = some (.imported account) ∧ account.id = id) →
    (∀ i account, manager.returned i = some (.removed account) → account.id ≠ id) →
    id ∈ manager.world.files.accounts.map (·.id)
  removed : ∀ i account, manager.returned i = some (.removed account) →
    account.id ∉ manager.world.files.accounts.map (·.id)
  credentials : ∀ account ∈ manager.world.files.accounts, ∀ written,
    lastWritten manager.world.log account.id = some written → account.credentials = written

def ManagerCall.waits : ManagerCall → Bool
  | .request _ _ | .reconcile _ => true
  | _ => false

def ProviderManager.opened (id : String) (files : Files) (calls : Nat → ManagerCall) : ProviderManager where
  id := id
  world := { files := files }
  calls := calls

def ProviderManager.Quiet (manager : ProviderManager) : Prop := ∀ i, (manager.calls i).operation.busy = false

variable {actions : List (Nat × Answer)}

section Runs

variable {id : String} {files : Files} {calls : Nat → ManagerCall} {known : List String}
  {manager : ProviderManager} {i : Nat}

theorem opened_filed (waits : ∀ i, (calls i).waits = true) (distinct : (files.accounts.map (·.id)).Nodup) :
    Filed (files.accounts.map (·.id)) (ProviderManager.opened id files calls) := by
  have silent : (ProviderManager.opened id files calls).told = fun _ => none := by
    funext i
    have waiting := waits i
    show (calls i).operation.told = none
    generalize calls i = call at waiting
    cases call with
    | request registered operation => rfl
    | reconcile config => rfl
    | _ => cases waiting
  refine ⟨⟨?_, ?_, nofun, nofun⟩, ⟨?_, ?_, ?_, ?_, ?_⟩, ?_⟩
  · intro k provider here
    cases here
  · intro i k has
    have waiting := waits i
    replace has : (calls i).runtime = some k := has
    generalize calls i = call at waiting has
    cases call with
    | request registered operation => cases has
    | reconcile config => cases has
    | _ => cases waiting
  · rw [ids_cells]
    exact distinct
  · intro id
    rw [ids_cells]
    exact ⟨fun member => ⟨List.mem_append_left _ member, List.not_mem_nil⟩,
      fun both => (List.mem_append.1 both.1).resolve_right List.not_mem_nil⟩
  · intro id member
    cases member
  · intro id given
    cases given
  · intro id written given
    cases given
  · rw [silent]
    refine ⟨?_, ?_, ?_⟩
    · intro i account told
      cases told
    · intro i account told
      cases told
    · intro id member
      cases member

theorem returned_told {outcome : Outcome} (returned : manager.returned i = some outcome) :
    manager.told i = outcome.told := by
  unfold ProviderManager.returned at returned
  split at returned
  case h_1 k other here =>
    obtain rfl := Option.some.inj returned
    rw [ProviderManager.told, here]
    rfl
  case h_2 => cases returned

theorem told_returned (quiet : manager.Quiet) {outcome : Outcome} (told : manager.told i = some outcome) :
    manager.returned i = some outcome := by
  have idle := quiet i
  unfold ProviderManager.told at told
  unfold ProviderManager.returned
  cases call : manager.calls i with
  | running k phase =>
    rw [call] at idle told
    cases phase with
    | ready operation => cases told
    | done ended =>
      cases ended with
      | imported account => exact told
      | removed account => exact told
      | _ => cases told
    | _ => cases idle
  | _ =>
    rw [call] at told
    cases told

theorem Filed.nothingLost (filed : Filed known manager) (quiet : manager.Quiet) : NothingLost known manager := by
  refine ⟨?_, ?_, ?_⟩
  · intro id given unremoved
    rw [← ids_cells, filed.kept.listed]
    refine ⟨?_, ?_⟩
    · rcases given with initial | ⟨i, account, returned, rfl⟩
      · exact List.mem_append_left _ initial
      · exact filed.told.imported i account (returned_told returned)
    · intro gone
      obtain ⟨i, account, told, same⟩ := filed.told.removals id gone
      exact unremoved i account (told_returned quiet told) same
  · intro i account returned
    rw [← ids_cells, filed.kept.listed]
    exact fun both => both.2 (filed.told.removed i account (returned_told returned))
  · intro account member written last
    have here : account.cell ∈ cells manager.world.files.accounts := List.mem_map_of_mem member
    have listed : account.id ∈ (cells manager.world.files.accounts).map Prod.fst := by
      rw [ids_cells]
      exact List.mem_map_of_mem member
    have found : (cells manager.world.files.accounts).lookup account.id = some account.credentials :=
      lookup_of_mem filed.kept.distinct here
    exact Option.some.inj (found.symm.trans (filed.kept.credentials account.id written last listed))

/-- Where an instance writes the accounts file only while its list has what the file has, no update is lost. -/
theorem reload_loses_nothing {actions : List (Nat × Answer)} (waits : ∀ i, (calls i).waits = true)
    (distinct : (files.accounts.map (·.id)).Nodup)
    (new : Along ProviderManager.step
      (fun manager action => manager.newIds (files.accounts.map (·.id)) action = true)
      (.opened id files calls) actions)
    (current : Along ProviderManager.step (fun manager action => manager.current action = true)
      (.opened id files calls) actions)
    (quiet : (run ProviderManager.step (.opened id files calls) actions).Quiet) :
    NothingLost (files.accounts.map (·.id)) (run ProviderManager.step (.opened id files calls) actions) := by
  have filed := run_keeps (fun manager action before ok => step_filed before ok.1 ok.2) (new.and current)
    (opened_filed waits distinct)
  exact filed.nothingLost quiet

theorem ProviderManager.step_other (manager : ProviderManager) {action : Nat × Answer} {i : Nat}
    (apart : action.1 ≠ i) : (manager.step action).calls i = manager.calls i := by
  have kept (later : ProviderManager) (same : later.calls = manager.calls) (call : ManagerCall) :
      (later.proceed action.1 call).calls i = manager.calls i := by
    rw [ProviderManager.proceed, same]
    exact Function.update_of_ne (Ne.symm apart) _ _
  unfold ProviderManager.step
  dsimp only
  split
  case h_3 k phase running =>
    split
    · split
      · exact kept _ rfl _
      · rfl
    · rfl
  case h_6 config accounts here =>
    split
    · exact kept _ rfl _
    · exact kept _ rfl _
  case h_8 entry here =>
    split
    · exact kept _ rfl _
    · rfl
  case h_10 => rfl
  case h_11 => rfl
  all_goals exact kept _ rfl _

theorem ProviderManager.run_other (manager : ProviderManager) {i : Nat} (apart : ∀ action ∈ actions, action.1 ≠ i) :
    (run ProviderManager.step manager actions).calls i = manager.calls i := by
  induction actions generalizing manager with
  | nil => rfl
  | cons action rest ih =>
    rw [run_cons, ih _ fun other member => apart other (List.mem_cons_of_mem action member),
      manager.step_other (apart action List.mem_cons_self)]

end Runs

/-! ### An edit, a reload and an import -/

def firstAccount : CopilotAccount where
  id := "acc_1"
  githubHost := "github.com"
  githubUserId := 1
  login := "me"
  credentials := { githubAccessToken := "gho_1" }
  createdAt := 0

def oldConfig : CopilotConfig := ⟨true, ⟨"github.com", 60, 60, 1000⟩⟩

def newConfig : CopilotConfig := ⟨true, ⟨"github.com", 60, 120, 1000⟩⟩

def managerCalls : Nat → ManagerCall
  | 0 => .reconcile (some oldConfig)
  | 1 => .request false (.edit "me" (.tags ["work"] []))
  | 2 => .reconcile (some newConfig)
  | 3 => .request false (.importCredentials { githubAccessToken := "gho_2" } none none)
  | _ => .reconcile none

def succeeds : Answer where
  now := 100
  user := .ok ⟨2, "you", none⟩
  exchanged := .ok ⟨"token", "https://api.githubcopilot.com", 10000⟩
  models := .ok [⟨"gpt", [.openAiChat]⟩]
  newId := "2"

def loadedOnce : ProviderManager := .opened "copilot" { accounts := [firstAccount] } managerCalls

def editFirst : List (Nat × Answer) :=
  List.replicate 6 (0, succeeds) ++ List.replicate 4 (1, succeeds) ++ List.replicate 6 (2, succeeds) ++
    List.replicate 10 (3, succeeds)

/-- The edit has its instance from before the reload, and writes the list of that instance after the import. -/
def editLast : List (Nat × Answer) :=
  List.replicate 6 (0, succeeds) ++ List.replicate 2 (1, succeeds) ++ List.replicate 6 (2, succeeds) ++
    List.replicate 10 (3, succeeds) ++ List.replicate 2 (1, succeeds)

theorem managerCalls_wait (i : Nat) : (managerCalls i).waits = true := by
  unfold managerCalls
  split <;> rfl

theorem calls_beyond (few : ∀ action ∈ actions, action.1 < 4) {i : Nat} (beyond : 4 ≤ i) :
    (run ProviderManager.step loadedOnce actions).calls i = .reconcile none := by
  have other : ∀ action ∈ actions, action.1 ≠ i := by
    intro action member
    have early := few action member
    omega
  rw [loadedOnce.run_other other]
  show managerCalls i = .reconcile none
  unfold managerCalls
  split
  case h_5 => rfl
  all_goals contradiction

theorem quiet_of_four (few : ∀ action ∈ actions, action.1 < 4)
    (four : ∀ i < 4, ((run ProviderManager.step loadedOnce actions).calls i).operation.busy = false) :
    (run ProviderManager.step loadedOnce actions).Quiet := by
  intro i
  rcases Nat.lt_or_ge i 4 with early | beyond
  · exact four i early
  · rw [calls_beyond few beyond]
    rfl

theorem reload_loses_nothing_after :
    NothingLost (loadedOnce.world.files.accounts.map (·.id)) (run ProviderManager.step loadedOnce editFirst) := by
  have quiet : (run ProviderManager.step loadedOnce editFirst).Quiet :=
    quiet_of_four (by decide) (by decide)
  exact reload_loses_nothing managerCalls_wait (by decide) (by decide) (by decide) quiet

def Outcome.imports (id : String) : Outcome → Bool
  | .imported account => account.id = id
  | _ => false

def Outcome.removes : Outcome → Bool
  | .removed _ => true
  | _ => false

/-- An import has returned, and its account is gone. -/
theorem reload_loses_import : ¬ ∀ (id : String) (files : Files) (calls : Nat → ManagerCall)
    (actions : List (Nat × Answer)), (∀ i, (calls i).waits = true) → (files.accounts.map (·.id)).Nodup →
    Along ProviderManager.step (fun manager action => manager.newIds (files.accounts.map (·.id)) action = true)
      (.opened id files calls) actions →
    (run ProviderManager.step (.opened id files calls) actions).Quiet →
    NothingLost (files.accounts.map (·.id)) (run ProviderManager.step (.opened id files calls) actions) := by
  intro all
  have few : ∀ action ∈ editLast, action.1 < 4 := by decide
  have quiet : (run ProviderManager.step loadedOnce editLast).Quiet := quiet_of_four few (by decide)
  have kept : NothingLost _ (run ProviderManager.step loadedOnce editLast) :=
    all "copilot" { accounts := [firstAccount] } managerCalls editLast managerCalls_wait (by decide)
      (by decide) quiet
  have imported : ((run ProviderManager.step loadedOnce editLast).returned 3).any (·.imports "acc_2") = true := by
    decide
  have kinds : ∀ i < 4, ((run ProviderManager.step loadedOnce editLast).returned i).all (!·.removes) = true := by
    decide
  have unremoved : ∀ i account, (run ProviderManager.step loadedOnce editLast).returned i ≠ some (.removed account) := by
    intro i account gone
    rcases Nat.lt_or_ge i 4 with early | beyond
    · have kind := kinds i early
      rw [gone] at kind
      cases kind
    · rw [ProviderManager.returned, calls_beyond few beyond] at gone
      cases gone
  have left : "acc_2" ∉ (run ProviderManager.step loadedOnce editLast).world.files.accounts.map (·.id) := by
    decide
  generalize run ProviderManager.step loadedOnce editLast = last at *
  obtain ⟨outcome, ended, imported⟩ := (Option.any_eq_true _ _).1 imported
  cases outcome with
  | imported account =>
    apply left
    apply kept.listed "acc_2" (.inr ⟨3, account, ended, of_decide_eq_true imported⟩)
    intro i removed gone
    exact absurd gone (unremoved i removed)
  | _ => cases imported

end KiroProxy.Copilot

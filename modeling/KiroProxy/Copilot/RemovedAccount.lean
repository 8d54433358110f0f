import KiroProxy.Copilot.Access
import KiroProxy.Lib.Run

/-! What is kept in memory for an account goes when the account goes, and does not come back. -/
namespace KiroProxy.Copilot

open Run

inductive Store where
  | token
  | limit
  | models

def CopilotProvider.keeps (provider : CopilotProvider) : Store → String → Prop
  | .token, id => (provider.tokenCache.get? id).isSome = true
  | .limit, id => id ∈ provider.accountLimits
  | .models, id => (provider.modelCache.get? id).isSome = true

instance (provider : CopilotProvider) : (store : Store) → (id : String) → Decidable (provider.keeps store id)
  | .token, id => inferInstanceAs (Decidable ((provider.tokenCache.get? id).isSome = true))
  | .limit, id => inferInstanceAs (Decidable (id ∈ provider.accountLimits))
  | .models, id => inferInstanceAs (Decidable ((provider.modelCache.get? id).isSome = true))

/-- The account that an operation has removed from the list and is yet to clear from the map. -/
def Phase.clears : Phase → Store → Option String
  | .inside (.removedToken account), _ => some account.id
  | .inside (.removedLimit account), .limit => some account.id
  | .inside (.removedLimit account), .models => some account.id
  | .inside (.removedModels account), .models => some account.id
  | _, _ => none

/-- Whatever is kept is of an account that is there, or that the operation is about to clear. -/
def Clean (provider : CopilotProvider) (phase : Phase) : Prop :=
  ∀ store id, provider.keeps store id → id ∈ provider.ids ∨ phase.clears store = some id

def Whole (provider : CopilotProvider) : Prop := ∀ store id, provider.keeps store id → id ∈ provider.ids

section Local

variable {provider after : CopilotProvider} {phase : Phase}

theorem Whole.clean (whole : Whole provider) (phase : Phase) : Clean provider phase :=
  fun store id kept => .inl (whole store id kept)

theorem Clean.whole (clean : Clean provider phase) (none : ∀ store, phase.clears store = none) : Whole provider := by
  intro store id kept
  rcases clean store id kept with listed | clearing
  · exact listed
  · rw [none store] at clearing
    cases clearing

theorem Whole.mono (whole : Whole provider) (kept : ∀ store id, after.keeps store id → provider.keeps store id)
    (listed : ∀ id ∈ provider.ids, id ∈ after.ids) : Whole after :=
  fun store id here => listed id (whole store id (kept store id here))

theorem ids_of_cells {accounts others : List CopilotAccount} (same : cells others = cells accounts) :
    others.map (·.id) = accounts.map (·.id) := by rw [← ids_cells, ← ids_cells, same]

theorem Whole.replaced (whole : Whole provider) {list : List CopilotAccount}
    (same : cells list = cells provider.accounts) : Whole { provider with accounts := list } := by
  apply whole.mono
  · intro store id kept
    cases store <;> exact kept
  · intro id listed
    show id ∈ list.map (·.id)
    rw [ids_of_cells same]
    exact listed

theorem Whole.unlock (whole : Whole provider) : Whole provider.unlock :=
  whole.mono (fun store _ kept => by cases store <;> exact kept) fun _ listed => listed

theorem Whole.unlockModels (whole : Whole provider) : Whole provider.unlockModels :=
  whole.mono (fun store _ kept => by cases store <;> exact kept) fun _ listed => listed

theorem Whole.unlockRefresh (whole : Whole provider) (id : String) : Whole (provider.unlockRefresh id) :=
  whole.mono (fun store _ kept => by cases store <;> exact kept) fun _ listed => listed

theorem Whole.unlockList (whole : Whole provider) : Whole { provider with accountsLocked := false } :=
  whole.mono (fun store _ kept => by cases store <;> exact kept) fun _ listed => listed

theorem saved_clean (whole : Whole provider) {list : List CopilotAccount} {then_ : After}
    (follows : then_.Follows provider.accounts list) :
    Clean (provider.saved list then_).1 (provider.saved list then_).2 := by
  cases then_ with
  | added account exchanged models =>
    have grown : cells list = cells provider.accounts ++ [account.cell] := follows
    have all : Whole { provider with accounts := list, accountsLocked := false } := by
      intro store id kept
      have before : id ∈ provider.accounts.map (·.id) := whole store id (by cases store <;> exact kept)
      show id ∈ list.map (·.id)
      rw [← ids_cells, grown, List.map_append, ids_cells]
      exact List.mem_append_left _ before
    exact all.clean _
  | edited disabled =>
    have all : Whole { provider with accounts := list } := whole.replaced follows
    cases disabled with
    | none => exact all.unlock.clean _
    | some id => exact all.clean _
  | removed account =>
    obtain ⟨i, here, rest⟩ := follows
    intro store id kept
    have before : id ∈ provider.accounts.map (·.id) := whole store id (by cases store <;> exact kept)
    by_cases gone : account.id = id
    · exact .inr (by rw [← gone]; cases store <;> rfl)
    · refine .inl ?_
      show id ∈ list.map (·.id)
      rw [← ids_cells, rest]
      rw [← ids_cells] at before
      obtain ⟨cell, member, named⟩ := List.mem_map.1 before
      -- Only the entry of the removed account is missing.
      obtain ⟨j, place⟩ := List.mem_iff_getElem?.1 member
      refine List.mem_map.2 ⟨cell, ?_, named⟩
      rw [List.mem_eraseIdx_iff_getElem?]
      refine ⟨j, ?_, place⟩
      rintro rfl
      rw [here] at place
      cases place
      exact gone named
  | refreshed id models now =>
    have all : Whole { provider with accounts := list } := whole.replaced follows.1
    exact all.unlockList.clean _
  | discovered snapshot outcome =>
    have all : Whole { provider with accounts := list } := whole.replaced follows.2.1
    have filled : Whole { provider with accounts := list, modelCache := snapshot } := by
      intro store id kept
      cases store with
      | models =>
        show id ∈ list.map (·.id)
        rw [ids_of_cells follows.2.1]
        exact follows.2.2 id kept
      | token => exact all .token id kept
      | limit => exact all .limit id kept
    exact filled.unlock.unlockModels.clean _
  | credentials account written caller =>
    obtain ⟨i, -, rest⟩ := follows
    have all : Whole { provider with accounts := list } := by
      apply whole.mono
      · intro store id kept
        cases store <;> exact kept
      · intro id listed
        show id ∈ list.map (·.id)
        have ids : (cells list).map Prod.fst = (cells provider.accounts).map Prod.fst := by
          rw [rest]
          exact Indexed.map_modify_same _ i fun _ => rfl
        rw [← ids_cells, ids, ids_cells]
        exact listed
    exact all.unlock.clean _

theorem unsaved_whole (whole : Whole provider) (error : String) (then_ : After) :
    Whole (provider.unsaved error then_).1 := by
  cases then_ with
  | discovered snapshot outcome => exact whole.unlock.unlockModels
  | credentials account written caller => exact whole.unlock.unlockRefresh account.id
  | _ => exact whole.unlock

theorem kept_insert {ν : Type} {table : Table String ν} {id other : String} {value : ν}
    (kept : ((table.insert id value).get? other).isSome = true) :
    other = id ∨ (table.get? other).isSome = true := by
  rw [Table.get?_insert] at kept
  split at kept
  case isTrue same => exact .inl same
  case isFalse => exact .inr kept

theorem kept_erase {ν : Type} {table : Table String ν} {id other : String}
    (kept : ((table.erase id).get? other).isSome = true) : other ≠ id ∧ (table.get? other).isSome = true := by
  rw [Table.get?_erase] at kept
  split at kept
  · cases kept
  case isFalse different => exact ⟨different, kept⟩

theorem Whole.forget (whole : Whole provider) (id : String) : Whole (provider.forget id) := by
  apply whole.mono
  · intro store other kept
    cases store with
    | token => exact (kept_erase kept).2
    | limit => exact kept
    | models => exact kept
  · exact fun _ listed => listed

theorem inside_clean {here : Section} (clean : Clean provider (.inside here)) (sound : here.Sound provider)
    (answer : Answer) (world : World) :
    Clean (provider.inside answer world here).2.1 (provider.inside answer world here).2.2 := by
  have whole (idle : ∀ store, (Phase.inside here).clears store = none) : Whole provider := clean.whole idle
  cases here with
  | savingModels snapshot list changed outcome =>
    have whole := whole fun store => by cases store <;> rfl
    simp only [CopilotProvider.inside]
    split
    · exact whole.unlock.unlockModels.clean _
    · split
      · exact whole.clean _
      · exact saved_clean whole sound
  | saving list then_ =>
    have whole := whole fun store => by cases store <;> rfl
    simp only [CopilotProvider.inside]
    split
    case h_1 error failed => exact (unsaved_whole whole error then_).clean _
    · exact saved_clean whole sound
  | addedToken account exchanged models =>
    have whole := whole fun store => by cases store <;> rfl
    have listed : account.id ∈ provider.ids := sound
    intro store id kept
    refine .inl ?_
    cases store with
    | token =>
      rcases kept_insert kept with rfl | before
      · exact listed
      · exact whole .token id before
    | limit => exact whole .limit id kept
    | models => exact whole .models id kept
  | addedLimit account models =>
    have whole := whole fun store => by cases store <;> rfl
    have listed : account.id ∈ provider.ids := sound
    intro store id kept
    refine .inl ?_
    cases store with
    | token => exact whole .token id kept
    | limit =>
      rcases List.mem_cons.1 kept with rfl | before
      · exact listed
      · exact whole .limit id (List.mem_filter.1 before).1
    | models => exact whole .models id kept
  | addedModels account models =>
    have whole := whole fun store => by cases store <;> rfl
    have listed : account.id ∈ provider.ids := sound
    intro store id kept
    refine .inl ?_
    cases store with
    | token => exact whole .token id kept
    | limit => exact whole .limit id kept
    | models =>
      rcases kept_insert kept with rfl | before
      · exact listed
      · exact whole .models id before
  | disabledToken id =>
    have whole := whole fun store => by cases store <;> rfl
    exact (whole.forget id).unlock.clean _
  | removedToken account =>
    intro store id kept
    cases store with
    | token =>
      obtain ⟨different, before⟩ := kept_erase kept
      rcases clean .token id before with listed | clearing
      · exact .inl listed
      · exact absurd (Option.some.inj clearing).symm different
    | limit => exact clean .limit id kept
    | models => exact clean .models id kept
  | removedLimit account =>
    intro store id kept
    cases store with
    | token => exact clean .token id kept
    | limit =>
      obtain ⟨before, different⟩ := List.mem_filter.1 kept
      rcases clean .limit id before with listed | clearing
      · exact .inl listed
      · exact absurd (Option.some.inj clearing).symm (by simpa using different)
    | models => exact clean .models id kept
  | removedModels account =>
    intro store id kept
    cases store with
    | token => exact clean .token id kept
    | limit => exact clean .limit id kept
    | models =>
      obtain ⟨different, before⟩ := kept_erase kept
      rcases clean .models id before with listed | clearing
      · exact .inl listed
      · exact absurd (Option.some.inj clearing).symm different
  | refreshedModels id models now =>
    have whole := whole fun store => by cases store <;> rfl
    intro store other kept
    refine .inl ?_
    cases store with
    | token => exact whole .token other kept
    | limit => exact whole .limit other kept
    | models =>
      rcases kept_insert kept with rfl | before
      · exact sound
      · exact whole .models other before
  | refreshedMissing id idOrLogin =>
    have whole := whole fun store => by cases store <;> rfl
    exact (whole.forget id).unlock.clean _
  | writingModels outcome =>
    have whole := whole fun store => by cases store <;> rfl
    exact whole.unlock.clean _

theorem touched_keeps (touched : Touched provider phase after) {store : Store} {id : String}
    (kept : after.keeps store id) : provider.keeps store id ∨
      ∃ account token caller, phase = .tokenStore account token caller ∧ store = .token ∧ id = account.id := by
  cases touched with
  | forget other =>
    cases store with
    | token => exact .inl (kept_erase kept).2
    | limit => exact .inl kept
    | models => exact .inl kept
  | health other error free =>
    unfold CopilotProvider.setAccountRuntimeError at kept
    split at kept
    · exact .inl (by cases store <;> exact kept)
    · exact .inl kept
  | store account token caller here held =>
    cases store with
    | token =>
      rcases kept_insert kept with same | before
      · exact .inr ⟨account, token, caller, here, rfl, same⟩
      · exact .inl before
    | limit => exact .inl kept
    | models => exact .inl kept
  | _ => exact .inl (by cases store <;> exact kept)

theorem entered_whole {change : Change} {next : Phase} (whole : Whole provider)
    (entered : Entered provider change after next) : Whole after := by
  have taken : Whole { provider with mutation := true } :=
    whole.mono (fun store _ kept => by cases store <;> exact kept) fun _ listed => listed
  have locked : Whole { provider with mutation := true, accountsLocked := true } :=
    whole.mono (fun store _ kept => by cases store <;> exact kept) fun _ listed => listed
  cases entered with
  | refused error plain => exact whole
  | gone account credentials now caller error given absent => exact whole.unlockRefresh account.id
  | missing id idOrLogin plain => exact taken
  | saving list then_ follows holder kind granted => exact locked
  | discovering snapshot list changed outcome follows plain => exact locked

end Local

/-! ### Every interleaving -/

/-- An API token is stored while its account is there, or while the removal of the account is yet to drop it. -/
def Stored (client : Client) (action : Nat × Answer) : Prop :=
  ∀ account token caller, client.calls action.1 = .tokenStore account token caller →
    account.id ∈ client.provider.ids ∨ ∃ i, (client.calls i).clears .token = some account.id

def storedNow (client : Client) (action : Nat × Answer) : Bool :=
  match client.calls action.1 with
  | .tokenStore account _ _ => account.id ∈ client.provider.ids
  | _ => true

theorem stored_of_now {client : Client} {action : Nat × Answer} (now : storedNow client action = true) :
    Stored client action := by
  intro account token caller here
  rw [storedNow, here] at now
  exact .inl (of_decide_eq_true now)

structure Clear (client : Client) : Prop where
  sound : Sound client
  clean : ∀ store id, client.provider.keeps store id →
    id ∈ client.provider.ids ∨ ∃ i, (client.calls i).clears store = some id

theorem clears_outside {phase : Phase} (outside : phase.isInside = false) (store : Store) :
    phase.clears store = none := by
  cases phase with
  | inside here => cases outside
  | _ => cases store <;> rfl

theorem step_clear {client : Client} {action : Nat × Answer} (before : Clear client)
    (stored : Stored client action) : Clear (client.step action) := by
  refine ⟨step_sound before.sound action, ?_⟩
  unfold Client.step
  split
  case h_2 => exact before.clean
  case h_1 world after next moved =>
    dsimp only
    intro store id kept
    rcases advance_cases moved with ⟨apart, -, does⟩ | ⟨change, here, -, unlocked, entered⟩ | ⟨work, here, does⟩
    · have settled : id ∈ client.provider.ids ∨ ∃ i, (client.calls i).clears store = some id := by
        rcases touched_keeps does.touched kept with earlier | ⟨account, token, caller, there, rfl, rfl⟩
        · exact before.clean store id earlier
        · exact stored account token caller there
      rcases settled with listed | ⟨i, clears⟩
      · exact .inl (by unfold CopilotProvider.ids; rw [ids_of_cells (touched_cells does.touched)]; exact listed)
      · rcases eq_or_ne i action.1 with rfl | different
        · rw [clears_outside apart store] at clears
          cases clears
        · exact .inr ⟨i, by rw [Function.update_of_ne different]; exact clears⟩
    · have whole : Whole client.provider := by
        intro store id kept
        rcases before.clean store id kept with listed | ⟨i, clears⟩
        · exact listed
        · rw [clears_outside (before.sound.nobody unlocked i) store] at clears
          cases clears
      exact .inl (entered_whole whole entered store id kept)
    · have had : (client.calls action.1).isInside = true := by
        rw [here]
        rfl
      have clean : Clean client.provider (.inside work) := by
        intro store id kept
        rcases before.clean store id kept with listed | ⟨i, clears⟩
        · exact .inl listed
        · rcases eq_or_ne i action.1 with rfl | different
          · rw [here] at clears
            exact .inr clears
          · rw [clears_outside (before.sound.alone had different) store] at clears
            cases clears
      have later := inside_clean clean (before.sound.sound action.1 work here) action.2 client.world
      rw [does] at later
      rcases later store id kept with listed | clears
      · exact .inl listed
      · exact .inr ⟨action.1, by rw [Function.update_self]; exact clears⟩

theorem opened_clear {id : String} {enabled : Bool} {settings : CopilotSettings} {files : Files}
    {operations : Nat → Operation}
    (listed : ∀ id, (files.models.get? id).isSome = true → id ∈ files.accounts.map (·.id)) :
    Clear (opened id enabled settings files operations) := by
  refine ⟨opened_sound id enabled settings files operations, ?_⟩
  intro store id kept
  cases store with
  | token => cases kept
  | limit => exact .inl kept
  | models => exact .inl (listed id kept)

/-- Where every API token is stored while its account is there, nothing is left of a removed account. -/
theorem nothing_comes_back {provider : String} {enabled : Bool} {settings : CopilotSettings} {files : Files}
    {operations : Nat → Operation} {actions : List (Nat × Answer)}
    (listed : ∀ id, (files.models.get? id).isSome = true → id ∈ files.accounts.map (·.id))
    (stored : Along Client.step Stored (opened provider enabled settings files operations) actions)
    (idle : ∀ i, ((run Client.step (opened provider enabled settings files operations) actions).calls i).busy = false) :
    ∀ store id, (run Client.step (opened provider enabled settings files operations) actions).provider.keeps store id →
      id ∈ (run Client.step (opened provider enabled settings files operations) actions).provider.ids := by
  have clear := run_keeps (fun client action => step_clear) stored (opened_clear listed)
  intro store id kept
  rcases clear.clean store id kept with there | ⟨i, clears⟩
  · exact there
  · have outside : ((run Client.step (opened provider enabled settings files operations) actions).calls i).isInside = false := by
      have ended := idle i
      revert ended
      cases (run Client.step (opened provider enabled settings files operations) actions).calls i with
      | inside here => intro busy; cases busy
      | _ => intro _; rfl
    rw [clears_outside outside store] at clears
    cases clears

/-! ### One account, refreshed and removed -/

def me : CopilotAccount where
  id := "acc_1"
  githubHost := "github.com"
  githubUserId := 1
  login := "me"
  credentials := { githubAccessToken := "gho" }
  createdAt := 0
  supportedModels := ["gpt"]

def oneAccount : Client :=
  opened "copilot" true ⟨"github.com", 60, 60, 60⟩ { accounts := [me] } fun i =>
    if i = 0 then .refreshAccount "acc_1" else .removeAccount "acc_1"

def answered : Answer := { exchanged := .ok ⟨"token", "https://api.githubcopilot.com", 1000⟩ }

def runs (call times : Nat) : List (Nat × Answer) := List.replicate times (call, answered)

theorem oneAccount_idle {actions : List (Nat × Answer)} (only : ∀ action ∈ actions, action.1 < 2)
    (first : ((run Client.step oneAccount actions).calls 0).busy = false)
    (second : ((run Client.step oneAccount actions).calls 1).busy = false) :
    ∀ i, ((run Client.step oneAccount actions).calls i).busy = false := by
  intro i
  match i with
  | 0 => exact first
  | 1 => exact second
  | i + 2 =>
    have apart : ∀ action ∈ actions, action.1 ≠ i + 2 := by
      intro action member
      have small := only action member
      omega
    rw [run_untouched oneAccount apart]
    rfl

theorem nothing_comes_back_later :
    (run Client.step oneAccount (runs 0 8)).provider.keeps .token "acc_1" ∧
    ¬ (run Client.step oneAccount (runs 0 8 ++ runs 1 7)).provider.keeps .token "acc_1" := by
  refine ⟨by decide, fun kept => ?_⟩
  have now : Along Client.step (fun client action => storedNow client action = true) oneAccount
      (runs 0 8 ++ runs 1 7) := by decide
  have listed : "acc_1" ∈ (run Client.step oneAccount (runs 0 8 ++ runs 1 7)).provider.ids := by
    refine nothing_comes_back ?_ (now.imp fun client action => stored_of_now)
      (oneAccount_idle (by decide) (by decide) (by decide)) .token "acc_1" kept
    intro id found
    cases found
  revert listed
  decide

/-- The account is removed while its token is exchanged. -/
theorem token_comes_back : ¬ ∀ (provider : String) (enabled : Bool) (settings : CopilotSettings) (files : Files)
    (operations : Nat → Operation) (actions : List (Nat × Answer)),
    (∀ id, (files.models.get? id).isSome = true → id ∈ files.accounts.map (·.id)) →
    (∀ i, ((run Client.step (opened provider enabled settings files operations) actions).calls i).busy = false) →
    ∀ store id, (run Client.step (opened provider enabled settings files operations) actions).provider.keeps store id →
      id ∈ (run Client.step (opened provider enabled settings files operations) actions).provider.ids := by
  intro clean
  have listed := clean "copilot" true ⟨"github.com", 60, 60, 60⟩ { accounts := [me] }
    (fun i => if i = 0 then .refreshAccount "acc_1" else .removeAccount "acc_1") (runs 0 5 ++ runs 1 7 ++ runs 0 3)
    (fun id found => nomatch found) (oneAccount_idle (by decide) (by decide) (by decide))
    .token "acc_1" (by decide)
  revert listed
  decide

end KiroProxy.Copilot

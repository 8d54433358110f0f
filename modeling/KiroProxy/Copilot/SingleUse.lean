import KiroProxy.Copilot.Access

/-! A refresh token of GitHub can be used once: no refresh token is sent again after it has been accepted, where a
refresh begins with the credentials that the list of accounts holds. -/
namespace KiroProxy.Copilot

open Run

/-! ### Who holds the refresh locks -/

structure RefreshLocked (client : Client) : Prop where
  distinct : client.provider.refreshLocks.Nodup
  held : ∀ id, Holder.Held (fun phase => decide (phase.refreshing = some id)) client.calls
    (decide (id ∈ client.provider.refreshLocks))

variable {client : Client}

section Locks

variable {provider after : CopilotProvider} {answer : Answer} {world : World} {change : Change} {next : Phase}

theorem entered_locks (entered : Entered provider change after next) :
    Locks provider after (.entering change) next := by
  cases entered with
  | refused error plain => exact .kept plain.symm rfl
  | gone account credentials now caller error here absent =>
    rw [here]
    exact .released account.id rfl (resume_free account caller _).refreshing rfl
  | missing id idOrLogin plain => exact .kept plain.symm rfl
  | saving list then_ follows holder kind granted => exact .kept holder rfl
  | discovering snapshot list changed outcome follows plain => exact .kept plain.symm rfl

theorem saved_locks (provider : CopilotProvider) (list : List CopilotAccount) (then_ : After) :
    (provider.saved list then_).2.refreshing = (Phase.inside (.saving list then_)).refreshing ∧
      (provider.saved list then_).1.refreshLocks = provider.refreshLocks := by
  cases then_ with
  | edited disabled => cases disabled <;> exact ⟨rfl, rfl⟩
  | _ => exact ⟨rfl, rfl⟩

theorem inside_locks (provider : CopilotProvider) (answer : Answer) (world : World) (here : Section) :
    Locks provider (provider.inside answer world here).2.1 (.inside here) (provider.inside answer world here).2.2 := by
  cases here with
  | savingModels snapshot list changed outcome =>
    simp only [CopilotProvider.inside]
    split
    · exact .kept rfl rfl
    · split
      · exact .kept rfl rfl
      · exact .kept rfl rfl
  | saving list then_ =>
    simp only [CopilotProvider.inside]
    split
    · cases then_ with
      | credentials account written caller =>
        exact .released account.id rfl (resume_free account caller _).refreshing rfl
      | _ => exact .kept rfl rfl
    · obtain ⟨holder, locks⟩ := saved_locks provider list then_
      exact .kept holder locks
  | _ => exact .kept rfl rfl

theorem locks_locked (locked : RefreshLocked client) {i : Nat} {world : World}
    (does : Locks client.provider after (client.calls i) next) :
    RefreshLocked ⟨world, after, Function.update client.calls i next⟩ := by
  cases does with
  | kept holder locks =>
    refine ⟨by rw [locks]; exact locked.distinct, ?_⟩
    intro id
    dsimp only
    rw [locks]
    exact (locked.held id).keep (by rw [holder])
  | taken id had now free locks =>
    refine ⟨by rw [locks]; exact List.nodup_cons.2 ⟨free, locked.distinct⟩, ?_⟩
    intro other
    have before := locked.held other
    dsimp only
    by_cases same : other = id
    · have flag : decide (other ∈ after.refreshLocks) = true := by simp [locks, same]
      have unset : decide (other ∈ client.provider.refreshLocks) = false := by simp [same, free]
      rw [unset] at before
      rw [flag]
      exact before.take (by simp [now, same])
    · have flag : decide (other ∈ after.refreshLocks) = decide (other ∈ client.provider.refreshLocks) := by
        simp [locks, same]
      rw [flag]
      apply before.keep
      simp [now, had, Ne.symm same]
  | released id had now locks =>
    refine ⟨by rw [locks]; exact locked.distinct.erase id, ?_⟩
    intro other
    have before := locked.held other
    dsimp only
    by_cases same : other = id
    · have flag : decide (other ∈ after.refreshLocks) = false := by
        simp [locks, same, locked.distinct.not_mem_erase]
      rw [flag]
      exact before.release (by simp [had, same]) (by simp [now])
    · have flag : decide (other ∈ after.refreshLocks) = decide (other ∈ client.provider.refreshLocks) := by
        simp [locks, List.mem_erase_of_ne same]
      rw [flag]
      apply before.keep
      simp [now, had, Ne.symm same]

theorem step_locked (locked : RefreshLocked client) (action : Nat × Answer) :
    RefreshLocked (client.step action) := by
  unfold Client.step
  split
  case h_2 => exact locked
  case h_1 world after next moved =>
    rcases advance_cases moved with ⟨-, -, does⟩ | ⟨change, here, -, -, entered⟩ | ⟨work, here, does⟩
    · exact locks_locked locked does.locks
    · apply locks_locked locked
      rw [here]
      exact entered_locks entered
    · apply locks_locked locked
      have step := inside_locks client.provider action.2 client.world work
      rw [does] at step
      rw [here]
      exact step

end Locks

/-! ### What is issued, and what is written -/

section Grants

variable {provider after : CopilotProvider} {answer : Answer} {world later : World} {phase next : Phase}

/-- What an access of a refresh, a request or a discovery does to the credentials. -/
inductive Grants (provider after : CopilotProvider) (answer : Answer) (log later : List Event) (phase next : Phase) :
    Prop where
  | quiet (same : cells after.accounts = cells provider.accounts) (told : later = log)
    (granted : next.granted = phase.granted)
  | sent (account : CopilotAccount) (caller : Caller) (refreshToken : String) (issued : Option CopilotCredentials)
    (here : phase = .tokenRefresh account caller) (token : account.credentials.githubRefreshToken = some refreshToken)
    (current : account.credentials.githubRefreshTokenExpiresAt.any (· ≤ answer.now) = false)
    (same : cells after.accounts = cells provider.accounts) (told : later = log ++ [.refreshed refreshToken issued])
    (granted : next.granted = issued.map (account.id, ·))
    (accepted : ∀ written, issued = some written →
      refreshGithubCredentials account answer.now answer.refreshed = .ok written)
  | saved (id : String) (written : CopilotCredentials) (i : Nat) (had : phase.granted = some (id, written))
    (granted : next.granted = none) (found : (cells provider.accounts).findIdx? (·.1 = id) = some i)
    (same : cells after.accounts = (cells provider.accounts).modify i fun cell => (cell.1, written))
    (told : later = log ++ [.wrote id written])
  | gone (id : String) (written : CopilotCredentials) (had : phase.granted = some (id, written))
    (granted : next.granted = none) (absent : id ∉ (cells provider.accounts).map Prod.fst)
    (same : cells after.accounts = cells provider.accounts) (told : later = log)

theorem tokenRefresh_grants {account : CopilotAccount} {caller : Caller}
    (moved : provider.advance answer world (.tokenRefresh account caller) = some (later, after, next)) :
    Grants provider after answer world.log later.log (.tokenRefresh account caller) next := by
  simp only [CopilotProvider.advance, CopilotProvider.tokenRefresh] at moved
  split at moved
  · cases moved
    exact .quiet rfl (List.append_nil _) (granted_none (resume_free account caller _).refreshing)
  case isFalse unexpired =>
    have unexpired := eq_false_of_ne_true unexpired
    split at moved
    · cases moved
      exact .quiet rfl (List.append_nil _) (granted_none (resume_free account caller _).refreshing)
    case h_2 refreshToken token =>
      split at moved
      case h_1 credentials accepted =>
        cases moved
        refine .sent account caller refreshToken (some credentials) rfl token unexpired rfl rfl rfl ?_
        intro written same
        rw [accepted, Option.some.inj same]
      · cases moved
        refine .sent account caller refreshToken none rfl token unexpired rfl rfl
          (granted_none (resume_free account caller _).refreshing) ?_
        intro written same
        cases same

theorem inside_grants {here : Section} (sound : here.Sound provider)
    (unmanaged : (Phase.inside here).managed = false) (saves : answer.accountsSaved = .ok ()) :
    Grants provider (provider.inside answer world here).2.1 answer world.log (provider.inside answer world here).1.log
      (.inside here) (provider.inside answer world here).2.2 := by
  cases here with
  | savingModels snapshot list changed outcome =>
    have follows : (After.discovered snapshot outcome).Follows provider.accounts list := sound
    simp only [CopilotProvider.inside]
    split
    · exact .quiet rfl rfl rfl
    · split
      · exact .quiet rfl rfl rfl
      · exact .quiet follows.2.1 rfl rfl
  | saving list then_ =>
    have follows : then_.Follows provider.accounts list := sound
    simp only [CopilotProvider.inside, saves]
    cases then_ with
    | refreshed id models now => exact .quiet follows.1 (List.append_nil _) rfl
    | discovered snapshot outcome => exact .quiet follows.2.1 (List.append_nil _) rfl
    | credentials account written caller =>
      obtain ⟨i, found, rest⟩ := follows
      exact .saved account.id written i rfl rfl found rest rfl
    | _ => cases unmanaged
  | refreshedModels id models now => exact .quiet rfl rfl rfl
  | refreshedMissing id idOrLogin => exact .quiet rfl rfl rfl
  | writingModels outcome => exact .quiet rfl rfl rfl
  | _ => cases unmanaged

theorem entered_grants {change : Change} (entered : Entered provider change after next) :
    Grants provider after answer world.log world.log (.entering change) next := by
  cases entered with
  | refused error plain => exact .quiet rfl rfl (granted_none plain).symm
  | gone account credentials now caller error here absent =>
    rw [here]
    rw [← ids_cells] at absent
    exact .gone account.id credentials rfl (granted_none (resume_free account caller _).refreshing) absent rfl rfl
  | missing id idOrLogin plain => exact .quiet rfl rfl (granted_none plain).symm
  | saving list then_ follows holder kind granted => exact .quiet rfl rfl granted
  | discovering snapshot list changed outcome follows plain => exact .quiet rfl rfl (granted_none plain).symm

theorem advance_grants (moved : provider.advance answer world phase = some (later, after, next))
    (sound : ∀ here, phase = .inside here → here.Sound provider) (unmanaged : phase.managed = false)
    (saves : answer.accountsSaved = .ok ()) : Grants provider after answer world.log later.log phase next := by
  rcases advance_cases moved with ⟨-, ⟨had, -, told⟩, does⟩ | ⟨change, rfl, rfl, -, entered⟩ | ⟨work, rfl, does⟩
  · rcases told with told | ⟨account, caller, rfl⟩
    · rcases does.granted with none | ⟨account, caller, rfl⟩
      · exact .quiet (touched_cells does.touched) told (none.trans had.symm)
      · exact tokenRefresh_grants moved
    · exact tokenRefresh_grants moved
  · exact entered_grants entered
  · have grants : Grants provider (provider.inside answer world work).2.1 answer world.log
        (provider.inside answer world work).1.log (.inside work) (provider.inside answer world work).2.2 :=
      inside_grants (sound work rfl) unmanaged saves
    rw [does] at grants
    exact grants

end Grants

/-! ### No token twice -/

abbrev Cells := List (String × CopilotCredentials)

def holds (cells : Cells) (id : String) : Option String := (cells.lookup id).bind (·.githubRefreshToken)

def tokens (cells : Cells) : List String := cells.filterMap (·.2.githubRefreshToken)

def Event.issued : Event → Option String
  | .refreshed _ (some written) => written.githubRefreshToken
  | _ => none

def issuedTokens (known : List String) (log : List Event) : List String := known ++ log.filterMap Event.issued

def Spent (log : List Event) (token : String) : Prop := ∃ written, .refreshed token (some written) ∈ log

def NeverReused (log : List Event) : Prop :=
  ∀ front back token issued, log = front ++ .refreshed token issued :: back → ¬ Spent front token

/-- What is spent is no longer held, but for what is about to be written. -/
structure Unused (known : List String) (cells : Cells) (log : List Event)
    (granted : Nat → Option (String × CopilotCredentials)) : Prop where
  never : NeverReused log
  apart : ∀ id other token, holds cells id = some token → holds cells other = some token → id = other
  unspent : ∀ id token, holds cells id = some token → Spent log token → ∃ i written, granted i = some (id, written)
  fresh : ∀ i id written, granted i = some (id, written) → ∃ token, written.githubRefreshToken = some token ∧
    ¬ Spent log token ∧ (∀ other, holds cells other ≠ some token) ∧
      ∀ j other new, granted j = some (other, new) → new.githubRefreshToken = some token → j = i
  held : ∀ id token, holds cells id = some token → token ∈ issuedTokens known log
  spent : ∀ token, Spent log token → token ∈ issuedTokens known log
  given : ∀ i id written token, granted i = some (id, written) → written.githubRefreshToken = some token →
    token ∈ issuedTokens known log

section Unused_

variable {known : List String} {cells : Cells} {log : List Event}
  {granted : Nat → Option (String × CopilotCredentials)} {i : Nat} {id : String}

variable {event : Event} {token : String}

theorem spent_snoc :
    Spent (log ++ [event]) token ↔ Spent log token ∨ ∃ written, event = .refreshed token (some written) := by
  constructor
  · rintro ⟨written, member⟩
    rcases List.mem_append.1 member with before | now
    · exact .inl ⟨written, before⟩
    · exact .inr ⟨written, (List.mem_singleton.1 now).symm⟩
  · rintro (⟨written, before⟩ | ⟨written, rfl⟩)
    · exact ⟨written, List.mem_append_left _ before⟩
    · exact ⟨written, List.mem_append_right log (List.mem_singleton_self _)⟩

theorem issued_snoc :
    token ∈ issuedTokens known (log ++ [event]) ↔ token ∈ issuedTokens known log ∨ event.issued = some token := by
  unfold issuedTokens
  rw [List.filterMap_append, List.mem_append, List.mem_append, List.mem_append, or_assoc]
  cases given : event.issued with
  | none => simp [given]
  | some other => simp [given, eq_comm]

theorem never_snoc (never : NeverReused log)
    (new : ∀ token issued, event = .refreshed token issued → ¬ Spent log token) : NeverReused (log ++ [event]) := by
  intro front back token issued same
  cases back using List.reverseRecOn with
  | nil =>
    obtain ⟨rfl, last⟩ := List.append_inj' same rfl
    exact new token issued (List.cons.inj last).1
  | append_singleton back last =>
    rw [← List.cons_append, ← List.append_assoc] at same
    obtain ⟨before, -⟩ := List.append_inj' same rfl
    exact never front back token issued before

theorem Unused.send (before : Unused known cells log granted) {issued : Option CopilotCredentials}
    (current : holds cells id = some token) (idle : ∀ j written, granted j ≠ some (id, written))
    (none : granted i = none)
    (new : ∀ written, issued = some written → ∃ other, written.githubRefreshToken = some other ∧
      other ∉ issuedTokens known log) :
    Unused known cells (log ++ [.refreshed token issued])
      (Function.update granted i (issued.map (id, ·))) := by
  have unspent : ¬ Spent log token := by
    intro spent
    obtain ⟨j, written, about⟩ := before.unspent id token current spent
    exact idle j written about
  have elsewhere : ∀ j entry, granted j = some entry → j ≠ i := by
    rintro j entry about rfl
    rw [none] at about
    cases about
  have splits : ∀ j about new, Function.update granted i (issued.map (id, ·)) j = some (about, new) →
      j = i ∧ about = id ∧ issued = some new ∨ j ≠ i ∧ granted j = some (about, new) := by
    intro j about new here
    by_cases same : j = i
    · rw [same, Function.update_self] at here
      obtain ⟨written, some, pair⟩ := Option.map_eq_some_iff.1 here
      cases pair
      exact .inl ⟨same, rfl, some⟩
    · rw [Function.update_of_ne same] at here
      exact .inr ⟨same, here⟩
  constructor
  · apply never_snoc before.never
    intro other result same
    cases same
    exact unspent
  · exact before.apart
  · intro other held present spent
    rcases spent_snoc.1 spent with earlier | ⟨written, same⟩
    · obtain ⟨j, written, about⟩ := before.unspent other held present earlier
      exact ⟨j, written, by rw [Function.update_of_ne (elsewhere j _ about)]; exact about⟩
    · cases same
      obtain rfl := before.apart other id token present current
      exact ⟨i, written, Function.update_self ..⟩
  · intro j about written here
    rcases splits j about written here with ⟨rfl, rfl, some⟩ | ⟨different, was⟩
    · obtain ⟨later, token_, unissued⟩ := new written some
      refine ⟨later, token_, ?_, ?_, ?_⟩
      · intro spent
        rcases spent_snoc.1 spent with earlier | ⟨_, same⟩
        · exact unissued (before.spent later earlier)
        · cases same
          exact unissued (before.held _ _ current)
      · intro other present
        exact unissued (before.held other later present)
      · intro k other fresh there given
        rcases splits k other fresh there with ⟨rfl, -, -⟩ | ⟨-, there⟩
        · rfl
        · exact absurd (before.given k other fresh later there given) unissued
    · obtain ⟨later, token_, clean, unheld, only⟩ := before.fresh j about written was
      refine ⟨later, token_, ?_, unheld, ?_⟩
      · intro spent
        rcases spent_snoc.1 spent with earlier | ⟨_, same⟩
        · exact clean earlier
        · cases same
          exact unheld id current
      · intro k other fresh there given
        rcases splits k other fresh there with ⟨rfl, -, some⟩ | ⟨-, there⟩
        · obtain ⟨next, token', unissued⟩ := new fresh some
          rw [given] at token'
          cases token'
          exact absurd (before.given j about written later was token_) unissued
        · exact only k other fresh there given
  · intro other held present
    exact issued_snoc.2 (.inl (before.held other held present))
  · intro other spent
    rcases spent_snoc.1 spent with earlier | ⟨_, same⟩
    · exact issued_snoc.2 (.inl (before.spent other earlier))
    · cases same
      exact issued_snoc.2 (.inl (before.held id token current))
  · intro j about written other here given
    rcases splits j about written here with ⟨-, -, some⟩ | ⟨-, here⟩
    · refine issued_snoc.2 (.inr ?_)
      rw [some]
      exact given
    · exact issued_snoc.2 (.inl (before.given j about written other here given))

theorem Unused.save (before : Unused known cells log granted) {written : CopilotCredentials}
    (about : granted i = some (id, written)) {n : Nat} (found : cells.findIdx? (·.1 = id) = some n) :
    Unused known (cells.modify n fun cell => (cell.1, written)) (log ++ [.wrote id written])
      (Function.update granted i none) := by
  obtain ⟨token, given, clean, unheld, only⟩ := before.fresh i id written about
  have now : ∀ other, holds (cells.modify n fun cell => (cell.1, written)) other =
      if other = id then some token else holds cells other := by
    intro other
    unfold holds
    rw [lookup_modify found]
    split
    · exact given
    · rfl
  have wrote : ∀ other, Spent (log ++ [.wrote id written]) other → Spent log other := by
    intro other spent
    rcases spent_snoc.1 spent with earlier | ⟨_, same⟩
    · exact earlier
    · cases same
  have rest : ∀ j entry, Function.update granted i none j = some entry → j ≠ i ∧ granted j = some entry := by
    intro j entry here
    by_cases same : j = i
    · rw [same, Function.update_self] at here
      cases here
    · rw [Function.update_of_ne same] at here
      exact ⟨same, here⟩
  constructor
  · exact never_snoc before.never fun _ _ same => nomatch same
  · intro one other held first second
    rw [now] at first second
    split at first
    case isTrue here =>
      split at second
      case isTrue there => rw [here, there]
      case isFalse =>
        cases first
        exact absurd second (unheld other)
    case isFalse =>
      split at second
      case isTrue =>
        cases second
        exact absurd first (unheld one)
      case isFalse => exact before.apart one other held first second
  · intro other held present spent
    rw [now] at present
    split at present
    case isTrue =>
      cases present
      exact absurd (wrote token spent) clean
    case isFalse different =>
      obtain ⟨j, new, there⟩ := before.unspent other held present (wrote held spent)
      refine ⟨j, new, ?_⟩
      rw [Function.update_of_ne]
      · exact there
      · rintro rfl
        rw [about] at there
        cases there
        exact different rfl
  · intro j other new here
    obtain ⟨different, there⟩ := rest j _ here
    obtain ⟨later, token', unspent, absent, alone⟩ := before.fresh j other new there
    refine ⟨later, token', fun spent => unspent (wrote later spent), ?_, ?_⟩
    · intro one present
      rw [now] at present
      split at present
      case isTrue =>
        cases present
        exact different (only j other new there token')
      case isFalse => exact absent one present
    · intro k one fresh held same
      exact alone k one fresh (rest k _ held).2 same
  · intro other held present
    refine issued_snoc.2 (.inl ?_)
    rw [now] at present
    split at present
    case isTrue =>
      cases present
      exact before.given i id written token about given
    case isFalse => exact before.held other held present
  · intro other spent
    exact issued_snoc.2 (.inl (before.spent other (wrote other spent)))
  · intro j other new later here same
    exact issued_snoc.2 (.inl (before.given j other new later (rest j _ here).2 same))

theorem Unused.drop (before : Unused known cells log granted) {written : CopilotCredentials}
    (about : granted i = some (id, written)) (absent : id ∉ cells.map Prod.fst) :
    Unused known cells log (Function.update granted i none) := by
  have rest : ∀ j entry, Function.update granted i none j = some entry → granted j = some entry := by
    intro j entry here
    by_cases same : j = i
    · rw [same, Function.update_self] at here
      cases here
    · rw [Function.update_of_ne same] at here
      exact here
  refine ⟨before.never, before.apart, ?_, ?_, before.held, before.spent, ?_⟩
  · intro other held present spent
    obtain ⟨j, new, there⟩ := before.unspent other held present spent
    refine ⟨j, new, ?_⟩
    rw [Function.update_of_ne]
    · exact there
    · rintro rfl
      rw [about] at there
      cases there
      obtain ⟨cell, found, -⟩ := Option.bind_eq_some_iff.1 present
      exact absent (List.mem_map_of_mem (mem_of_lookup found))
  · intro j other new here
    obtain ⟨later, token', unspent, unheld, alone⟩ := before.fresh j other new (rest j _ here)
    exact ⟨later, token', unspent, unheld, fun k one fresh held => alone k one fresh (rest k _ held)⟩
  · intro j other new later here
    exact before.given j other new later (rest j _ here)

end Unused_

/-! ### Every interleaving of requests, refreshes and discoveries -/

/-- What is issued for a refresh token has a refresh token that was never issued before. -/
def freshAnswer (known : List String) (client : Client) (action : Nat × Answer) : Bool :=
  match client.calls action.1 with
  | .tokenRefresh account _ =>
    match refreshGithubCredentials account action.2.now action.2.refreshed with
    | .ok written => written.githubRefreshToken.any (· ∉ issuedTokens known client.world.log)
    | .error _ => true
  | _ => true

/-- A refresh token is sent only while the list holds it for the account. -/
def Current (client : Client) (action : Nat × Answer) : Prop :=
  ∀ account caller, client.calls action.1 = .tokenRefresh account caller →
    account.credentials.githubRefreshTokenExpiresAt.any (· ≤ action.2.now) = false →
    holds (cells client.provider.accounts) account.id = account.credentials.githubRefreshToken

def currentNow (client : Client) (action : Nat × Answer) : Bool :=
  match client.calls action.1 with
  | .tokenRefresh account _ =>
    holds (cells client.provider.accounts) account.id = account.credentials.githubRefreshToken
  | _ => true

theorem current_of_now {action : Nat × Answer} (now : currentNow client action = true) :
    Current client action := by
  intro account caller here _
  rw [currentNow, here] at now
  exact of_decide_eq_true now

def Operation.uses : Operation → Bool
  | .refreshAccount _ | .models _ | .executePath _ _ => true
  | _ => false

structure Good (known : List String) (client : Client) : Prop where
  sound : Sound client
  locked : RefreshLocked client
  plain : ∀ i, (client.calls i).managed = false
  unused : Unused known (cells client.provider.accounts) client.world.log fun i => (client.calls i).granted

theorem entered_plain {provider after : CopilotProvider} {change : Change} {next : Phase}
    (entered : Entered provider change after next) (plain : (Phase.entering change).managed = false) :
    next.managed = false := by
  cases entered with
  | gone account credentials now caller error here absent => exact resume_managed account caller _
  | saving list then_ follows holder kind granted => exact kind.trans plain
  | _ => rfl

theorem inside_plain (provider : CopilotProvider) (answer : Answer) (world : World) {here : Section}
    (plain : (Phase.inside here).managed = false) : (provider.inside answer world here).2.2.managed = false := by
  cases here with
  | savingModels snapshot list changed outcome =>
    simp only [CopilotProvider.inside]
    split
    · rfl
    · split
      · rfl
      · rfl
  | saving list then_ =>
    simp only [CopilotProvider.inside]
    split
    · cases then_ with
      | credentials account written caller => exact resume_managed account caller _
      | _ => rfl
    · cases then_ with
      | added account exchanged models => cases plain
      | edited disabled => cases plain
      | removed account => cases plain
      | _ => rfl
  | refreshedModels id models now => rfl
  | refreshedMissing id idOrLogin => rfl
  | writingModels outcome => rfl
  | _ => cases plain

theorem granted_update (calls : Nat → Phase) (i : Nat) (next : Phase) :
    (fun j => (Function.update calls i next j).granted) =
      Function.update (fun j => (calls j).granted) i next.granted := by
  funext j
  by_cases same : j = i
  · rw [same, Function.update_self, Function.update_self]
  · rw [Function.update_of_ne same, Function.update_of_ne same]

theorem step_plain (plain : ∀ i, (client.calls i).managed = false) (action : Nat × Answer) (i : Nat) :
    ((client.step action).calls i).managed = false := by
  unfold Client.step
  split
  case h_2 => exact plain i
  case h_1 world after next moved =>
    dsimp only
    by_cases same : i = action.1
    · rw [same, Function.update_self]
      have before := plain action.1
      rcases advance_cases moved with ⟨-, -, does⟩ | ⟨change, here, -, -, entered⟩ | ⟨work, here, does⟩
      · by_contra now
        rw [does.managed (by simpa using now)] at before
        cases before
      · exact entered_plain entered (by rw [← here]; exact before)
      · rw [here] at before
        have later := inside_plain client.provider action.2 client.world before
        rw [does] at later
        exact later
    · rw [Function.update_of_ne same]
      exact plain i

theorem step_good {known : List String} {action : Nat × Answer} (before : Good known client)
    (saves : action.2.accountsSaved = .ok ()) (fresh : freshAnswer known client action = true)
    (current : Current client action) : Good known (client.step action) := by
  refine ⟨step_sound before.sound action, step_locked before.locked action, step_plain before.plain action, ?_⟩
  unfold Client.step
  split
  case h_2 => exact before.unused
  case h_1 world after next moved =>
    dsimp only
    rw [granted_update]
    have unused := before.unused
    have grants := advance_grants moved (before.sound.sound action.1) (before.plain action.1) saves
    cases grants with
    | quiet same told granted =>
      rw [same, told, granted, Function.update_eq_self]
      exact unused
    | sent account caller token issued here given unexpired same told granted accepted =>
      have held := current account caller here unexpired
      rw [given] at held
      have about : (client.calls action.1).refreshing = some account.id := by
        rw [here]
        rfl
      have nothing : (client.calls action.1).granted = none := by
        rw [here]
        rfl
      rw [same, told, granted]
      apply unused.send held
      · -- The refresh lock of the account is with the call that sends.
        intro j written other
        have holder := granted_refreshing other
        obtain rfl := (before.locked.held account.id).one j action.1 (decide_eq_true holder) (decide_eq_true about)
        rw [nothing] at other
        cases other
      · exact nothing
      · intro written accept
        rw [freshAnswer, here] at fresh
        dsimp only at fresh
        rw [accepted written accept] at fresh
        obtain ⟨next, some, new⟩ := (Option.any_eq_true _ _).1 fresh
        exact ⟨next, some, of_decide_eq_true new⟩
    | saved id written n had granted found same told =>
      rw [same, told, granted]
      exact unused.save had found
    | gone id written had granted absent same told =>
      rw [same, told, granted]
      exact unused.drop had absent

theorem opened_good {id : String} {enabled : Bool} {settings : CopilotSettings} {files : Files}
    {operations : Nat → Operation} (uses : ∀ i, (operations i).uses = true)
    (apart : ∀ id other token, holds (cells files.accounts) id = some token →
      holds (cells files.accounts) other = some token → id = other) :
    Good (tokens (cells files.accounts)) (opened id enabled settings files operations) := by
  refine ⟨opened_sound id enabled settings files operations, ⟨List.nodup_nil, ?_⟩, ?_, ?_⟩
  · intro other
    refine ⟨fun up => ?_, fun i inside => ?_, fun i j inside => ?_⟩
    · cases up
    · cases inside
    · cases inside
  · intro i
    have use := uses i
    show (Phase.ready (operations i)).managed = false
    generalize operations i = operation at use
    cases operation with
    | refreshAccount idOrLogin => rfl
    | models refresh => rfl
    | executePath model protocol => rfl
    | _ => cases use
  · refine ⟨?_, apart, ?_, ?_, ?_, ?_, ?_⟩
    · intro front back token issued same
      cases front <;> cases same
    · rintro other token - ⟨written, member⟩
      cases member
    · intro i other written same
      cases same
    · intro other token held
      obtain ⟨written, found, token_⟩ := Option.bind_eq_some_iff.1 held
      rw [issuedTokens]
      exact List.mem_append_left _ (List.mem_filterMap.2 ⟨_, mem_of_lookup found, token_⟩)
    · rintro token ⟨written, member⟩
      cases member
    · intro i other written token same
      cases same

/-- Where a refresh token is sent only while the list holds it, none is sent after it has been accepted. -/
theorem refresh_token_once {id : String} {enabled : Bool} {settings : CopilotSettings} {files : Files}
    {operations : Nat → Operation} {actions : List (Nat × Answer)} (uses : ∀ i, (operations i).uses = true)
    (apart : ∀ id other token, holds (cells files.accounts) id = some token →
      holds (cells files.accounts) other = some token → id = other)
    (saves : ∀ action ∈ actions, action.2.accountsSaved = .ok ())
    (fresh : Along Client.step (fun client action => freshAnswer (tokens (cells files.accounts)) client action = true)
      (opened id enabled settings files operations) actions)
    (current : Along Client.step Current (opened id enabled settings files operations) actions) :
    NeverReused (run Client.step (opened id enabled settings files operations) actions).world.log := by
  have along := ((Along.of_mem saves).and fresh).and current
  have good := run_keeps (fun client action before ok => step_good before ok.1.1 ok.1.2 ok.2) along
    (opened_good uses apart)
  exact good.unused.never

/-! ### One request that is rejected once -/

def expiredAccount : CopilotAccount where
  id := "acc_1"
  githubHost := "github.com"
  githubUserId := 1
  login := "me"
  credentials := { githubAccessToken := "gho_0", githubRefreshToken := some "ghr_0", githubExpiresAt := some 0 }
  createdAt := 0
  supportedModels := ["gpt"]

def expiredFiles : Files where
  accounts := [expiredAccount]
  models := (∅ : Table String AccountModelCache).insert "acc_1" ⟨[⟨"gpt", [.openAiChat]⟩], 0⟩

def requests : Client :=
  opened "copilot" true ⟨"github.com", 60, 60, 1000⟩ expiredFiles fun _ => .executePath "gpt" .openAiChat

/-- The refresh and the exchange succeed, and the request is answered with 401. -/
def rejected : Answer where
  now := 100
  exchanged := .ok ⟨"token", "https://api.githubcopilot.com", 10000⟩
  refreshed := .ok { accessToken := some "gho_1", refreshToken := some "ghr_1" }
  status := .ok 401

theorem expiredFiles_apart (id other token : String) (first : holds (cells expiredFiles.accounts) id = some token)
    (second : holds (cells expiredFiles.accounts) other = some token) : id = other := by
  have only : ∀ name, holds (cells expiredFiles.accounts) name = some token → name = "acc_1" := by
    intro name held
    by_contra different
    have missing : (cells expiredFiles.accounts).lookup name = none := by
      show List.lookup name [("acc_1", _)] = none
      rw [lookup_cons_if, if_neg different]
      rfl
    rw [holds, missing] at held
    cases held
  rw [only id first, only other second]

def sentTwice : List Event := [
  .refreshed "ghr_0" (some ⟨"gho_1", some "ghr_1", none, none, "bearer"⟩),
  .wrote "acc_1" ⟨"gho_1", some "ghr_1", none, none, "bearer"⟩,
  .refreshed "ghr_0" none]

theorem refresh_token_once_first :
    NeverReused (run Client.step requests (List.replicate 12 (0, rejected))).world.log := by
  apply refresh_token_once (fun _ => rfl) expiredFiles_apart
  · decide
  · decide
  · have now : Along Client.step (fun client action => currentNow client action = true) requests
        (List.replicate 12 (0, rejected)) := by decide
    exact now.imp fun client action => current_of_now

/-- After the answer the same request sends the old refresh token again. -/
theorem refresh_token_twice : ¬ ∀ (id : String) (enabled : Bool) (settings : CopilotSettings) (files : Files)
    (operations : Nat → Operation) (actions : List (Nat × Answer)), (∀ i, (operations i).uses = true) →
    (∀ id other token, holds (cells files.accounts) id = some token →
      holds (cells files.accounts) other = some token → id = other) →
    (∀ action ∈ actions, action.2.accountsSaved = .ok ()) →
    Along Client.step (fun client action => freshAnswer (tokens (cells files.accounts)) client action = true)
      (opened id enabled settings files operations) actions →
    NeverReused (run Client.step (opened id enabled settings files operations) actions).world.log := by
  intro once
  have never := once "copilot" true ⟨"github.com", 60, 60, 1000⟩ expiredFiles (fun _ => .executePath "gpt" .openAiChat)
    (List.replicate 17 (0, rejected) ++ [(0, { rejected with refreshed := .error "bad_refresh_token" })])
    (fun _ => rfl) expiredFiles_apart (by decide) (by decide)
  apply never (sentTwice.take 2) [] "ghr_0" none
  · decide
  · exact ⟨⟨"gho_1", some "ghr_1", none, none, "bearer"⟩, by decide⟩

end KiroProxy.Copilot

import KiroProxy.Lib.Census
import KiroProxy.Pool.Refresh

/-! One rejected token is replaced once, however many requests have met it. -/
namespace KiroProxy.Refresh

open Run Census
open Pool (AuthMethod AccountHealth)

/-- The arguments of `refresh_after_auth_failure_and_persist`. -/
def authFailure (rejected : String) : Args := { force := true, rejectedAccessToken := some rejected }

def Call.inside : Call → Bool
  | .locking _ | .done _ => false
  | _ => true

def changes : Result → Bool
  | .ok outcome => outcome.changed
  | .error _ => false

def Call.applied : Call → Bool
  | .persisting _ _ => true
  | .restoring _ result | .releasing result | .done result => changes result
  | _ => false

/-- The call has set the health to `Refreshing`, and is to set it once more. -/
def Call.marked : Call → Bool
  | .requesting _ _ _ | .reloading _ _ _ _ | .adopting _ _ _ _ | .retrying _ _ _ | .applying _ _ | .persisting _ _
  | .restoring _ _ | .banning _ => true
  | _ => false

/-- The call has done nothing, or has returned unchanged; it has not asked upstream. -/
def Call.idle : Call → Bool
  | .locking _ | .reading _ => true
  | .releasing result | .done result => result = .ok .unchanged
  | _ => false

def Call.owes (refreshed : RefreshedCredentials) : Call → Prop
  | .persisting _ written => written = refreshed
  | .restoring _ result | .releasing result | .done result =>
    ∃ error, result = .ok { changed := true, persistenceError := some error }
  | _ => False

/-- What holds of a call: a call that has passed the check found the rejected token and will
find it until it writes; a call that has written has replaced it. -/
def Call.sound (rejected : String) (s : Shared) : Call → Prop
  | .locking args | .reading args => args = authFailure rejected
  | .watching args snapshot | .marking args snapshot _ | .requesting args snapshot _ | .reloading args snapshot _ _
  | .adopting args snapshot _ _ | .retrying args snapshot _ =>
    args = authFailure rejected ∧ snapshot.credentials.accessToken = rejected ∧
      s.account.credentials.accessToken = rejected
  | .applying _ tokens => tokens.accessToken ≠ rejected ∧ s.account.credentials.accessToken = rejected
  | .persisting _ _ => s.account.credentials.accessToken ≠ rejected
  | .restoring _ result | .releasing result | .done result =>
    changes result = true → s.account.credentials.accessToken ≠ rejected
  | .banning _ => True

/-- Only calls for the rejected token, and upstream never issues that token again. -/
def Action.fresh (rejected : String) : Action → Prop
  | .start args => args = authFailure rejected
  | .advance _ answer => ∀ tokens, answer.tokens = .ok tokens → tokens.accessToken ≠ rejected
  | _ => True

/-! ### Where a call goes -/

section Next

variable {Q : Call → Prop} {s : Shared} {args : Args} {snapshot adopted : Account} {before : AccountHealth}
  {reloaded : ReloadedCredentials} {failure : RefreshRequestFailure}

theorem fail_elim (ban : ∀ error, Q (.banning error)) (keep : ∀ error, Q (.restoring before (.error error))) :
    Q (fail s args snapshot before failure) := by
  unfold fail
  split
  · exact ban _
  · exact keep _

theorem judge_elim (unchanged : Q (.releasing (.ok .unchanged)))
    (go : (∀ token, args.rejectedAccessToken = some token → snapshot.credentials.accessToken = token) →
      (∀ error, Q (.releasing (.error error))) ∧ Q (.watching args snapshot)) : Q (judge s args snapshot) := by
  unfold judge
  split
  · exact unchanged
  case isFalse same =>
    have found : ∀ token, args.rejectedAccessToken = some token → snapshot.credentials.accessToken = token := by
      intro token given
      simpa [given] using same
    split
    · exact unchanged
    · split
      · exact (go found).1 _
      · exact (go found).2

theorem requested_elim {result : Except RefreshRequestFailure RefreshResponse}
    (issued : ∀ tokens, result = .ok tokens → Q (.applying before tokens))
    (reload : ∀ failure, Q (.reloading args snapshot before failure)) (ban : ∀ error, Q (.banning error))
    (keep : ∀ error, Q (.restoring before (.error error))) : Q (requested s args snapshot before result) := by
  unfold requested
  split
  case h_1 tokens => exact issued tokens rfl
  case h_2 failure =>
    split
    · exact reload failure
    · exact fail_elim ban keep

theorem reloadedCall_elim {answer : Except String (Option ReloadedCredentials)}
    (go : ∀ reloaded, Q (.adopting args snapshot before reloaded)) (ban : ∀ error, Q (.banning error))
    (keep : ∀ error, Q (.restoring before (.error error))) :
    Q (reloadedCall s args snapshot before failure answer) := by
  unfold reloadedCall
  split
  · exact ban _
  · exact fail_elim ban keep
  · split
    · exact go _
    · exact fail_elim ban keep

theorem adopt_elim
    (replaced : accessTokenChanged snapshot reloaded = true →
      Q (.restoring before (.ok { changed := true, persistenceError := none })))
    (ban : ∀ error, Q (.banning error))
    (retry : accessTokenChanged snapshot reloaded = false → Q (.retrying args adopted before)) :
    Q (adopt args snapshot adopted before reloaded) := by
  unfold adopt
  split
  case isTrue changed => exact replaced changed
  case isFalse same =>
    split
    · exact ban _
    · exact retry (by simpa using same)

theorem requestTokens_ok {answer : Except RefreshRequestFailure RefreshResponse} {tokens : RefreshResponse}
    (issued : requestTokens snapshot answer = .ok tokens) : answer = .ok tokens := by
  unfold requestTokens at issued
  split at issued
  · cases issued
  · cases issued
  · exact issued
  · split at issued
    · exact issued
    · cases issued

end Next

/-! ### One access -/

section Access

variable {rejected : String} {s : Shared} {i : Nat} {answer : Answer} {call other : Call}

theorem advance_sound (sound : call.sound rejected s)
    (new : ∀ tokens, answer.tokens = .ok tokens → tokens.accessToken ≠ rejected) :
    (advance s i answer call).2.sound rejected (advance s i answer call).1 := by
  cases call with
  | locking args =>
    simp only [advance]
    split <;> exact sound
  | reading args =>
    obtain rfl : args = authFailure rejected := sound
    refine judge_elim (fun changed => by cases changed) fun same => ⟨fun _ changed => (by cases changed), ?_⟩
    exact ⟨rfl, same rejected rfl, same rejected rfl⟩
  | watching args snapshot => exact sound
  | marking args snapshot before => exact sound
  | requesting args snapshot before =>
    refine requested_elim ?_ (fun _ => sound) (fun _ => trivial) (fun _ changed => by cases changed)
    exact fun tokens issued => ⟨new tokens (requestTokens_ok issued), sound.2.2⟩
  | reloading args snapshot before failure =>
    exact reloadedCall_elim (fun _ => sound) (fun _ => trivial) (fun _ changed => by cases changed)
  | adopting args snapshot before reloaded =>
    obtain ⟨given, read, -⟩ := sound
    refine adopt_elim ?_ (fun _ => trivial) ?_
    · intro replaced _
      have token : reloaded.credentials.accessToken ≠ rejected := by simpa [accessTokenChanged, read] using replaced
      exact token
    · intro same
      have token : reloaded.credentials.accessToken = rejected := by simpa [accessTokenChanged, read] using same
      exact ⟨given, token, token⟩
  | retrying args snapshot before =>
    simp only [advance]
    split
    case h_1 tokens issued => exact ⟨new tokens (requestTokens_ok issued), sound.2.2⟩
    · exact fail_elim (fun _ => trivial) (fun _ changed => by cases changed)
  | applying before tokens => exact sound.1
  | persisting before refreshed =>
    simp only [advance]
    split <;> exact fun _ => sound
  | restoring before result => exact sound
  | banning error => exact fun changed => by cases changed
  | releasing result => exact sound
  | done result => exact sound

theorem advance_account (i : Nat) (answer : Answer) (sound : call.sound rejected s) :
    (advance s i answer call).1.account = s.account ∨
      call.inside = true ∧ s.account.credentials.accessToken = rejected := by
  cases call with
  | locking args =>
    simp only [advance]
    split <;> exact .inl rfl
  | adopting args snapshot before reloaded => exact .inr ⟨rfl, sound.2.2⟩
  | applying before tokens => exact .inr ⟨rfl, sound.2⟩
  | persisting before refreshed =>
    simp only [advance]
    split <;> exact .inl rfl
  | _ => exact .inl rfl

theorem Call.sound_congr {t : Shared} (same : t.account = s.account) (sound : call.sound rejected s) :
    call.sound rejected t := by
  cases call <;> first | exact sound | simpa only [Call.sound, same] using sound

theorem advance_other_sound (own : call.sound rejected s) (outside : call.inside = true → other.inside = false)
    (sound : other.sound rejected s) : other.sound rejected (advance s i answer call).1 := by
  rcases advance_account i answer own with same | ⟨inside, unchanged⟩
  · exact Call.sound_congr same sound
  · cases other with
    | locking args => exact sound
    | done result => exact fun changed => absurd unchanged (sound changed)
    | _ => cases outside inside

theorem advance_lock (s : Shared) (i : Nat) (answer : Answer) (call : Call) :
    ((advance s i answer call).2.inside = call.inside ∧ (advance s i answer call).1.refreshLock = s.refreshLock) ∨
    (call.inside = false ∧ s.refreshLock = none ∧ (advance s i answer call).2.inside = true ∧
      (advance s i answer call).1.refreshLock = some i) ∨
    (call.inside = true ∧ (advance s i answer call).2.inside = false ∧
      (advance s i answer call).1.refreshLock = none) := by
  cases call with
  | locking args =>
    simp only [advance]
    split
    case h_1 free => exact .inr (.inl ⟨rfl, free, rfl, rfl⟩)
    · exact .inl ⟨rfl, rfl⟩
  | reading args => exact .inl ⟨judge_elim (Q := fun next => next.inside = true) rfl fun _ => ⟨fun _ => rfl, rfl⟩, rfl⟩
  | requesting args snapshot before =>
    exact .inl ⟨requested_elim (Q := fun next => next.inside = true) (fun _ _ => rfl) (fun _ => rfl) (fun _ => rfl)
      fun _ => rfl, rfl⟩
  | reloading args snapshot before failure =>
    exact .inl ⟨reloadedCall_elim (Q := fun next => next.inside = true) (fun _ => rfl) (fun _ => rfl) fun _ => rfl, rfl⟩
  | adopting args snapshot before reloaded =>
    exact .inl ⟨adopt_elim (Q := fun next => next.inside = true) (fun _ => rfl) (fun _ => rfl) fun _ => rfl, rfl⟩
  | retrying args snapshot before =>
    refine .inl ⟨?_, rfl⟩
    simp only [advance]
    split
    · rfl
    · exact fail_elim (Q := fun next => next.inside = true) (fun _ => rfl) fun _ => rfl
  | persisting before refreshed =>
    simp only [advance]
    split <;> exact .inl ⟨rfl, rfl⟩
  | releasing result => exact .inr (.inr ⟨rfl, rfl, rfl⟩)
  | _ => exact .inl ⟨rfl, rfl⟩

theorem advance_applied (sound : call.sound rejected s) (now : (advance s i answer call).2.applied = true) :
    call.applied = true ∨ s.account.credentials.accessToken = rejected := by
  cases call with
  | locking args =>
    simp only [advance] at now
    split at now <;> cases now
  | reading args =>
    revert now
    exact judge_elim (Q := fun next => next.applied = true → _) (fun now => by cases now)
      fun _ => ⟨fun _ now => (by cases now), fun now => by cases now⟩
  | watching args snapshot => exact .inr sound.2.2
  | marking args snapshot before => exact .inr sound.2.2
  | requesting args snapshot before => exact .inr sound.2.2
  | reloading args snapshot before failure => exact .inr sound.2.2
  | adopting args snapshot before reloaded => exact .inr sound.2.2
  | retrying args snapshot before => exact .inr sound.2.2
  | applying before tokens => exact .inr sound.2
  | persisting before refreshed => exact .inl rfl
  | banning error => cases now
  | restoring before result => exact .inl now
  | releasing result => exact .inl now
  | done result => exact .inl now

theorem advance_marked (now : (advance s i answer call).1.health = .refreshing) :
    (advance s i answer call).2.marked = true ∨ call.marked = false ∧ s.health = .refreshing := by
  cases call with
  | locking args =>
    refine .inr ⟨rfl, ?_⟩
    simp only [advance] at now
    split at now <;> exact now
  | reading args => exact .inr ⟨rfl, now⟩
  | watching args snapshot => exact .inr ⟨rfl, now⟩
  | marking args snapshot before => exact .inl rfl
  | requesting args snapshot before =>
    exact .inl (requested_elim (Q := fun next => next.marked = true) (fun _ _ => rfl) (fun _ => rfl) (fun _ => rfl)
      fun _ => rfl)
  | reloading args snapshot before failure =>
    exact .inl (reloadedCall_elim (Q := fun next => next.marked = true) (fun _ => rfl) (fun _ => rfl) fun _ => rfl)
  | adopting args snapshot before reloaded =>
    exact .inl (adopt_elim (Q := fun next => next.marked = true) (fun _ => rfl) (fun _ => rfl) fun _ => rfl)
  | retrying args snapshot before =>
    refine .inl ?_
    simp only [advance]
    split
    · rfl
    · exact fail_elim (Q := fun next => next.marked = true) (fun _ => rfl) fun _ => rfl
  | applying before tokens => exact .inl rfl
  | persisting before refreshed =>
    refine .inl ?_
    simp only [advance]
    split <;> rfl
  | restoring before result =>
    simp only [advance] at now
    split at now
    · cases before <;> cases now
    case isFalse other => exact absurd now other
  | banning error => cases now
  | releasing result => exact .inr ⟨rfl, now⟩
  | done result => exact .inr ⟨rfl, now⟩

theorem advance_owed (s : Shared) (i : Nat) (answer : Answer) (call : Call) (r : RefreshedCredentials) :
    (r ∈ (advance s i answer call).1.issued → r ∈ s.issued ∨ (advance s i answer call).2.owes r) ∧
    (r ∈ s.persisted → r ∈ (advance s i answer call).1.persisted) ∧
    (call.owes r → r ∈ (advance s i answer call).1.persisted ∨ (advance s i answer call).2.owes r) := by
  cases call with
  | locking args =>
    simp only [advance]
    split <;> exact ⟨.inl, id, .inr⟩
  | applying before tokens =>
    refine ⟨?_, id, fun owes => owes.elim⟩
    intro issued
    rcases List.mem_append.mp issued with old | new
    · exact .inl old
    · exact .inr (List.mem_singleton.mp new).symm
  | persisting before refreshed =>
    simp only [advance]
    split
    · refine ⟨.inl, List.mem_append_left _, ?_⟩
      rintro rfl
      exact .inl (by simp)
    case h_2 error failed => exact ⟨.inl, id, fun _ => .inr ⟨error, rfl⟩⟩
  | restoring before result => exact ⟨.inl, id, .inr⟩
  | releasing result => exact ⟨.inl, id, .inr⟩
  | done result => exact ⟨.inl, id, .inr⟩
  | _ => exact ⟨.inl, id, fun owes => owes.elim⟩

end Access

/-! ### Whole runs -/

/-- The lock is with the call inside; the rejected token is replaced at most once; whoever has
set `Refreshing` is to set the health again; and nothing that was issued is forgotten. -/
structure Single (rejected : String) (system : System) : Prop where
  held : ∀ i, system.shared.refreshLock = some i → i < system.calls.length
  lock : ∀ i call, system.calls[i]? = some call → (call.inside = true ↔ system.shared.refreshLock = some i)
  sound : ∀ call ∈ system.calls, call.sound rejected system.shared
  once : system.calls.countP Call.applied ≤ 1
  marked : system.shared.health = .refreshing → ∃ call ∈ system.calls, call.marked = true
  owed : ∀ r ∈ system.shared.issued, r ∈ system.shared.persisted ∨ ∃ call ∈ system.calls, call.owes r

theorem applied_replaced {rejected : String} {s : Shared} {call : Call} (sound : call.sound rejected s)
    (applied : call.applied = true) : s.account.credentials.accessToken ≠ rejected := by
  cases call with
  | persisting before refreshed => exact sound
  | restoring before result => exact sound applied
  | releasing result => exact sound applied
  | done result => exact sound applied
  | _ => cases applied

section Steps

variable {rejected : String} {system : System} {i : Nat} {answer : Answer} {call : Call}

theorem advance_single (here : system.calls[i]? = some call) (before : Single rejected system)
    (new : ∀ tokens, answer.tokens = .ok tokens → tokens.accessToken ≠ rejected) :
    Single rejected { shared := (advance system.shared i answer call).1,
                      calls := system.calls.set i (advance system.shared i answer call).2 } := by
  have own := before.sound call (List.mem_of_getElem? here)
  have inside := (List.getElem?_eq_some_iff.mp here).1
  have moved : (advance system.shared i answer call).2 ∈
      system.calls.set i (advance system.shared i answer call).2 :=
    List.mem_of_getElem? (List.getElem?_set_self inside)
  have outside : ∀ j other, i ≠ j → system.calls[j]? = some other → call.inside = true → other.inside = false := by
    intro j other apart there holds
    rw [← Bool.not_eq_true, before.lock j other there, (before.lock i call here).mp holds]
    simpa using apart
  constructor
  · intro j holder
    rw [List.length_set]
    rcases advance_lock system.shared i answer call with
      ⟨-, kept⟩ | ⟨-, -, -, taken⟩ | ⟨-, -, free⟩
    · rw [kept] at holder
      exact before.held j holder
    · rw [taken, Option.some.injEq] at holder
      exact holder ▸ inside
    · rw [free] at holder
      cases holder
  · intro j other there
    rcases eq_or_ne i j with rfl | apart
    · rw [List.getElem?_set_self inside, Option.some.injEq] at there
      subst there
      rcases advance_lock system.shared i answer call with
        ⟨same, kept⟩ | ⟨-, -, now, taken⟩ | ⟨-, now, free⟩
      · rw [same, kept]
        exact before.lock i call here
      · simp [now, taken]
      · simp [now, free]
    · rw [List.getElem?_set_ne apart] at there
      rcases advance_lock system.shared i answer call with
        ⟨-, kept⟩ | ⟨-, free, -, taken⟩ | ⟨was, -, now⟩
      · rw [kept]
        exact before.lock j other there
      · have idle := before.lock j other there
        rw [free] at idle
        simp [taken, idle, apart]
      · rw [outside j other apart there was]
        simp [now]
  · intro other member
    obtain ⟨j, there⟩ := List.mem_iff_getElem?.mp member
    rcases eq_or_ne i j with rfl | apart
    · rw [List.getElem?_set_self inside, Option.some.injEq] at there
      subst there
      exact advance_sound own new
    · rw [List.getElem?_set_ne apart] at there
      exact advance_other_sound own (outside j other apart there) (before.sound other (List.mem_of_getElem? there))
  · cases now : (advance system.shared i answer call).2.applied with
    | false =>
      refine Nat.le_trans (countP_set_le here ?_) before.once
      rw [now]
      exact fun applied => by cases applied
    | true =>
      rcases advance_applied own now with was | unchanged
      · exact Nat.le_trans (countP_set_le here fun _ => was) before.once
      · -- nobody has applied anything yet
        have none : system.calls.countP Call.applied = 0 := by
          rw [List.countP_eq_zero]
          intro other member applied
          exact applied_replaced (before.sound other member) applied unchanged
        have balance := countP_set_balance Call.applied (advance system.shared i answer call).2 here
        rw [now, none, Bool.toNat_true] at balance
        exact Nat.le_trans (Nat.le_add_right _ _) (Nat.le_of_eq balance)
  · intro refreshing
    rcases advance_marked refreshing with now | ⟨unmarked, was⟩
    · exact ⟨_, moved, now⟩
    · obtain ⟨other, member, marks⟩ := before.marked was
      refine exists_set here ?_ ⟨other, member, marks⟩
      intro marks
      rw [unmarked] at marks
      cases marks
  · intro r issued
    obtain ⟨added, kept, paid⟩ := advance_owed system.shared i answer call r
    rcases added issued with old | new
    · rcases before.owed r old with durable | ⟨other, member, owes⟩
      · exact .inl (kept durable)
      · by_cases durable : r ∈ (advance system.shared i answer call).1.persisted
        · exact .inl durable
        · exact .inr (exists_set here (fun owes => (paid owes).resolve_left durable) ⟨other, member, owes⟩)
    · exact .inr ⟨_, moved, new⟩

theorem step_single (system : System) (action : Action) (before : Single rejected system)
    (fresh : action.fresh rejected) : Single rejected (step system action) := by
  cases action with
  | start args =>
    have unapplied : (Call.locking args).applied = false := rfl
    constructor
    · intro i holder
      rw [step, List.length_append]
      exact Nat.lt_add_right _ (before.held i holder)
    · intro i call there
      rcases Nat.lt_or_ge i system.calls.length with old | new
      · rw [step, List.getElem?_append_left old] at there
        exact before.lock i call there
      · rw [step, List.getElem?_append_right new] at there
        rw [List.mem_singleton.mp (List.mem_of_getElem? there)]
        refine ⟨fun inside => (by cases inside), fun holder => ?_⟩
        have := before.held i holder
        omega
    · intro call member
      rcases List.mem_append.mp member with old | new
      · exact before.sound call old
      · rw [List.mem_singleton.mp new]
        exact fresh
    · simpa [step, unapplied] using before.once
    · intro refreshing
      obtain ⟨call, member, marks⟩ := before.marked refreshing
      exact ⟨call, List.mem_append_left _ member, marks⟩
    · intro r issued
      refine (before.owed r issued).imp_right ?_
      rintro ⟨call, member, owes⟩
      exact ⟨call, List.mem_append_left _ member, owes⟩
  | advance i answer =>
    simp only [step]
    split
    · exact before
    case h_2 call here => exact advance_single here before fresh
  | report health =>
    simp only [step]
    split
    · exact before
    case isFalse other =>
      refine ⟨before.held, before.lock, ?_, before.once, fun now => absurd now other, before.owed⟩
      exact fun call member => Call.sound_congr rfl (before.sound call member)
  | tick secs =>
    refine ⟨before.held, before.lock, ?_, before.once, before.marked, before.owed⟩
    exact fun call member => Call.sound_congr rfl (before.sound call member)

/-- The token has been replaced, and the call at place `k` is not past its check. -/
structure Late (rejected : String) (k : Nat) (system : System) : Prop where
  single : Single rejected system
  replaced : system.shared.account.credentials.accessToken ≠ rejected
  idle : ∀ call, system.calls[k]? = some call → call.idle = true

theorem advance_idle {s : Shared} (sound : call.sound rejected s)
    (replaced : s.account.credentials.accessToken ≠ rejected) (idle : call.idle = true) :
    (advance s i answer call).2.idle = true := by
  cases call with
  | locking args =>
    simp only [advance]
    split <;> rfl
  | reading args =>
    obtain rfl : args = authFailure rejected := sound
    exact judge_elim (Q := fun next => next.idle = true) (by decide) fun same => absurd (same rejected rfl) replaced
  | releasing result => exact idle
  | done result => exact idle
  | _ => cases idle

theorem step_late {k : Nat} (system : System) (action : Action) (before : Late rejected k system)
    (fresh : action.fresh rejected) : Late rejected k (step system action) := by
  refine ⟨step_single system action before.single fresh, ?_, ?_⟩
  · cases action with
    | advance i answer =>
      simp only [step]
      split
      · exact before.replaced
      case h_2 call here =>
        have own := before.single.sound call (List.mem_of_getElem? here)
        rcases advance_account i answer own with same | ⟨-, unchanged⟩
        · rw [same]
          exact before.replaced
        · exact absurd unchanged before.replaced
    | report health =>
      simp only [step]
      split <;> exact before.replaced
    | _ => exact before.replaced
  · cases action with
    | start args =>
      intro call there
      rcases getElem?_snoc_cases there with old | rfl
      · exact before.idle call old
      · rfl
    | advance i answer =>
      simp only [step]
      split
      · exact before.idle
      case h_2 call here =>
        intro other there
        rcases getElem?_set_cases there with old | ⟨rfl, rfl⟩
        · exact before.idle other old
        · exact advance_idle (before.single.sound call (List.mem_of_getElem? here)) before.replaced
            (before.idle call here)
    | report health =>
      simp only [step]
      split <;> exact before.idle
    | tick secs => exact before.idle

end Steps

theorem reached_single {account : Account} {secs : Int} {rejected : String} {actions : List Action}
    (fresh : ∀ action ∈ actions, action.fresh rejected) : Single rejected (reached account secs actions) := by
  apply run_keeps_mem step_single fresh
  constructor <;> simp [System.new]

/-- A call that has not taken the lock when another one has applied new credentials. -/
def Behind (system : System) (k : Nat) : Prop :=
  (∃ call ∈ system.calls, call.applied = true) ∧
    ∀ call, system.calls[k]? = some call → ∃ args, call = .locking args

theorem behind_idle {account : Account} {secs : Int} {rejected : String} {before after : List Action} {k : Nat}
    (fresh : ∀ action ∈ before ++ after, action.fresh rejected) (behind : Behind (reached account secs before) k) :
    ∀ call, (reached account secs (before ++ after)).calls[k]? = some call → call.idle = true := by
  have start : Single rejected (reached account secs before) :=
    reached_single fun action member => fresh action (List.mem_append_left _ member)
  obtain ⟨⟨other, member, applied⟩, outside⟩ := behind
  have late : Late rejected k (reached account secs before) := by
    refine ⟨start, applied_replaced (start.sound other member) applied, ?_⟩
    intro call there
    obtain ⟨args, rfl⟩ := outside call there
    rfl
  rw [reached, run_append]
  exact (run_keeps_mem step_late (fun action member => fresh action (List.mem_append_right _ member)) late).idle

/-- For calls with one rejected token, when upstream does not issue it again: at most one call
applies new credentials; a call that takes the lock afterwards returns unchanged and does not
ask upstream; when the lock is free, all that upstream has issued is written durably, but for
what a call has returned with a persistence error; and when all calls have returned, the health
is not `Refreshing`. -/
theorem refresh_single_flight (account : Account) (secs : Int) (rejected : String) (actions : List Action)
    (fresh : ∀ action ∈ actions, action.fresh rejected) :
    (reached account secs actions).calls.countP Call.applied ≤ 1 ∧
    (∀ before after k, actions = before ++ after → Behind (reached account secs before) k →
      ∀ call, (reached account secs actions).calls[k]? = some call → call.idle = true) ∧
    ((reached account secs actions).shared.refreshLock = none →
      ∀ r ∈ (reached account secs actions).shared.issued, r ∈ (reached account secs actions).shared.persisted ∨
        ∃ error, .done (.ok { changed := true, persistenceError := some error }) ∈
          (reached account secs actions).calls) ∧
    ((∀ call ∈ (reached account secs actions).calls, ∃ result, call = .done result) →
      (reached account secs actions).shared.health ≠ .refreshing) := by
  have single : Single rejected (reached account secs actions) := reached_single fresh
  refine ⟨single.once, ?_, ?_, ?_⟩
  · rintro before after k rfl behind
    exact behind_idle fresh behind
  · intro free r issued
    refine (single.owed r issued).imp_right ?_
    rintro ⟨call, member, owes⟩
    obtain ⟨i, there⟩ := List.mem_iff_getElem?.mp member
    have outside := single.lock i call there
    rw [free] at outside
    cases call with
    | done result =>
      obtain ⟨error, rfl⟩ := owes
      exact ⟨error, member⟩
    | locking args => exact owes.elim
    | _ => cases outside.mp rfl
  · intro returned refreshing
    obtain ⟨call, member, marks⟩ := single.marked refreshing
    obtain ⟨result, rfl⟩ := returned call member
    cases marks

def socialAccount : Account where
  id := "acc"
  credentials :=
    { accessToken := "old", refreshToken := some "r1", clientId := none, clientSecret := none, region := "us-east-1"
      expiresAt := 0, authMethod := .social }
  profileArn := none

def rotation : RefreshResponse :=
  { accessToken := "new", refreshToken := some "r2", expiresIn := 3600, profileArn := none }

/-- Two requests meet the rejected token; the first one refreshes it, with the given outcome of
the durable write, and then the second one gets the lock. -/
def metTwice (persist : Except String Unit) : List Action :=
  [.start (authFailure "old"), .start (authFailure "old")] ++
    List.replicate 9 (.advance 0 { tokens := .ok rotation, persist := persist }) ++
    List.replicate 3 (.advance 1 { tokens := .ok rotation, persist := persist })

theorem metTwice_fresh (persist : Except String Unit) : ∀ action ∈ metTwice persist, action.fresh "old" := by
  simp [metTwice, Action.fresh, rotation]

theorem refresh_single_flight_twice :
    (reached socialAccount 300 (metTwice (.ok ()))).calls =
      [.done (.ok { changed := true, persistenceError := none }), .done (.ok .unchanged)] ∧
    (reached socialAccount 300 (metTwice (.ok ()))).calls.countP Call.applied ≤ 1 ∧
    (reached socialAccount 300 (metTwice (.ok ()))).shared.health ≠ .refreshing := by
  have calls : (reached socialAccount 300 (metTwice (.ok ()))).calls =
      [.done (.ok { changed := true, persistenceError := none }), .done (.ok .unchanged)] := by decide
  obtain ⟨once, -, -, restored⟩ :=
    refresh_single_flight socialAccount 300 "old" (metTwice (.ok ())) (metTwice_fresh (.ok ()))
  exact ⟨calls, once, restored (by rw [calls]; simp)⟩

/-- As above, with the durable write always done before the lock is given back. -/
def SingleFlight : Prop :=
  ∀ (account : Account) (secs : Int) (rejected : String) (actions : List Action),
    (∀ action ∈ actions, action.fresh rejected) →
    (reached account secs actions).calls.countP Call.applied ≤ 1 ∧
    (∀ before after k, actions = before ++ after → Behind (reached account secs before) k →
      ∀ call, (reached account secs actions).calls[k]? = some call → call.idle = true) ∧
    ((reached account secs actions).shared.refreshLock = none →
      ∀ r ∈ (reached account secs actions).shared.issued, r ∈ (reached account secs actions).shared.persisted) ∧
    ((∀ call ∈ (reached account secs actions).calls, ∃ result, call = .done result) →
      (reached account secs actions).shared.health ≠ .refreshing)

/-- A durable write that fails is carried as a warning, and the lock is given back. -/
theorem unpersisted_rotation : ¬SingleFlight := by
  intro claim
  obtain ⟨-, -, durable, -⟩ :=
    claim socialAccount 300 "old" (metTwice (.error "disk full")) (metTwice_fresh (.error "disk full"))
  have issued : (reached socialAccount 300 (metTwice (.error "disk full"))).shared.issued ≠ [] := by decide
  have none : (reached socialAccount 300 (metTwice (.error "disk full"))).shared.persisted = [] := by decide
  obtain ⟨r, rest, same⟩ := List.exists_cons_of_ne_nil issued
  have member := durable (by decide) r (by rw [same]; exact List.mem_cons_self)
  rw [none] at member
  cases member

end KiroProxy.Refresh

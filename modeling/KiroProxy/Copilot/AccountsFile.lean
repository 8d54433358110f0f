import KiroProxy.Copilot.Access
import KiroProxy.Lib.Lookup

/-! The accounts file as the outcome of all that was written to it: who is in it and with which credentials. -/
namespace KiroProxy.Copilot

/-! ### What was written -/

def Event.imported? : Event → Option String
  | .imported id => some id
  | _ => none

def Event.removed? : Event → Option String
  | .removed id => some id
  | _ => none

def Event.wrote? : Event → Option (String × CopilotCredentials)
  | .wrote id credentials => some (id, credentials)
  | _ => none

/-- The accounts that the file has had: those of the beginning and the imported ones. -/
def everListed (known : List String) (log : List Event) : List String := known ++ log.filterMap Event.imported?

def removedIds (log : List Event) : List String := log.filterMap Event.removed?

def lastWritten (log : List Event) (id : String) : Option CopilotCredentials :=
  (log.filterMap Event.wrote?).reverse.lookup id

/-- The accounts of the file are those that it has had and that were not removed, and each has the credentials that
were written last. -/
structure Kept (known : List String) (entries : List (String × CopilotCredentials)) (log : List Event) : Prop where
  distinct : (entries.map Prod.fst).Nodup
  listed : ∀ id, id ∈ entries.map Prod.fst ↔ id ∈ everListed known log ∧ id ∉ removedIds log
  removed : ∀ id ∈ removedIds log, id ∈ everListed known log
  wrote : ∀ id, (lastWritten log id).isSome = true → id ∈ everListed known log
  credentials : ∀ id written, lastWritten log id = some written → id ∈ entries.map Prod.fst →
    entries.lookup id = some written

section Kept_

variable {known : List String} {accounts list : List CopilotAccount} {log : List Event}
  {entries : List (String × CopilotCredentials)} {id : String}

theorem everListed_snoc (event : Event) :
    everListed known (log ++ [event]) = everListed known log ++ event.imported?.toList := by
  unfold everListed
  cases given : event.imported? <;> simp [given]

theorem removedIds_snoc (event : Event) : removedIds (log ++ [event]) = removedIds log ++ event.removed?.toList := by
  unfold removedIds
  cases given : event.removed? <;> simp [given]

theorem lastWritten_snoc {event : Event} (silent : event.wrote? = none) :
    lastWritten (log ++ [event]) = lastWritten log := by
  unfold lastWritten
  rw [List.filterMap_append, List.filterMap_cons_none silent, List.filterMap_nil, List.append_nil]

theorem Kept.quiet (kept : Kept known entries log) {event : Event} (imported : event.imported? = none)
    (removed : event.removed? = none) (wrote : event.wrote? = none) : Kept known entries (log ++ [event]) := by
  have ever : everListed known (log ++ [event]) = everListed known log := by
    rw [everListed_snoc, imported]
    exact List.append_nil _
  have gone : removedIds (log ++ [event]) = removedIds log := by
    rw [removedIds_snoc, removed]
    exact List.append_nil _
  have last : lastWritten (log ++ [event]) = lastWritten log := lastWritten_snoc wrote
  refine ⟨kept.distinct, ?_, ?_, ?_, ?_⟩
  · rw [ever, gone]
    exact kept.listed
  · rw [ever, gone]
    exact kept.removed
  · rw [ever, last]
    exact kept.wrote
  · rw [last]
    exact kept.credentials

def NewAccount (known : List String) (log : List Event) : After → Prop
  | .added account _ _ => account.id ∉ everListed known log
  | _ => True

instance (known : List String) (log : List Event) : (then_ : After) → Decidable (NewAccount known log then_)
  | .added account _ _ => inferInstanceAs (Decidable (account.id ∉ everListed known log))
  | .edited _ | .removed _ | .refreshed _ _ _ | .discovered _ _ | .credentials _ _ _ => isTrue True.intro

theorem Kept.add (kept : Kept known entries log) {credentials : CopilotCredentials} (new : id ∉ everListed known log) :
    Kept known (entries ++ [(id, credentials)]) (log ++ [.imported id]) := by
  have ever : everListed known (log ++ [.imported id]) = everListed known log ++ [id] := everListed_snoc _
  have gone : removedIds (log ++ [.imported id]) = removedIds log := (removedIds_snoc _).trans (List.append_nil _)
  have last : lastWritten (log ++ [.imported id]) = lastWritten log := lastWritten_snoc rfl
  have absent : id ∉ entries.map Prod.fst := fun member => new ((kept.listed id).1 member).1
  have names : (entries ++ [(id, credentials)]).map Prod.fst = entries.map Prod.fst ++ [id] := by simp
  refine ⟨?_, ?_, ?_, ?_, ?_⟩
  · rw [names]
    exact List.nodup_append.2 ⟨kept.distinct, List.nodup_singleton id, by
      rintro other member _ last rfl
      exact absent (List.mem_singleton.1 last ▸ member)⟩
  · intro other
    rw [names, ever, gone, List.mem_append, List.mem_append, kept.listed, List.mem_singleton, or_and_right]
    refine or_congr Iff.rfl ⟨?_, And.left⟩
    rintro rfl
    exact ⟨rfl, fun member => new (kept.removed _ member)⟩
  · intro other member
    rw [gone] at member
    rw [ever]
    exact List.mem_append_left _ (kept.removed other member)
  · intro other final
    rw [last] at final
    rw [ever]
    exact List.mem_append_left _ (kept.wrote other final)
  · intro other written final member
    rw [last] at final
    have before : other ∈ entries.map Prod.fst := by
      rw [names, List.mem_append] at member
      refine member.resolve_right fun member => new ?_
      rw [← List.mem_singleton.1 member]
      exact kept.wrote other (by rw [final]; rfl)
    rw [List.lookup_append, kept.credentials other written final before]
    rfl

theorem Kept.remove (kept : Kept known entries log) {n : Nat} {credentials : CopilotCredentials} (here : entries[n]? = some (id, credentials)) :
    Kept known (entries.eraseIdx n) (log ++ [.removed id]) := by
  have ever : everListed known (log ++ [.removed id]) = everListed known log :=
    (everListed_snoc _).trans (List.append_nil _)
  have gone : removedIds (log ++ [.removed id]) = removedIds log ++ [id] := removedIds_snoc _
  have last : lastWritten (log ++ [.removed id]) = lastWritten log := lastWritten_snoc rfl
  have place : (entries.map Prod.fst)[n]? = some id := by rw [List.getElem?_map, here]; rfl
  have names : ∀ other, other ∈ (entries.eraseIdx n).map Prod.fst ↔ other ∈ entries.map Prod.fst ∧ other ≠ id := by
    intro other
    obtain ⟨inside, same⟩ := List.getElem?_eq_some_iff.1 place
    rw [← List.eraseIdx_map, ← same, ← List.Nodup.erase_getElem kept.distinct n inside,
      kept.distinct.mem_erase_iff, and_comm]
  refine ⟨?_, ?_, ?_, ?_, ?_⟩
  · rw [← List.eraseIdx_map]
    exact kept.distinct.sublist (List.eraseIdx_sublist _ _)
  · intro other
    rw [names, ever, gone, kept.listed, List.mem_append, List.mem_singleton, not_or, and_assoc]
  · intro other member
    rw [ever]
    rw [gone, List.mem_append, List.mem_singleton] at member
    rcases member with before | rfl
    · exact kept.removed other before
    · exact ((kept.listed other).1 (List.mem_of_getElem? place)).1
  · rw [ever, last]
    exact kept.wrote
  · intro other written final member
    rw [last] at final
    obtain ⟨before, -⟩ := (names other).1 member
    have found := kept.credentials other written final before
    obtain ⟨entry, left, named⟩ := List.mem_map.1 member
    obtain ⟨name, value⟩ := entry
    obtain rfl : name = other := named
    have same : entries.lookup name = some value := lookup_of_mem kept.distinct (List.mem_of_mem_eraseIdx left)
    obtain rfl := Option.some.inj (same.symm.trans found)
    apply lookup_of_mem _ left
    rw [← List.eraseIdx_map]
    exact kept.distinct.sublist (List.eraseIdx_sublist _ _)

theorem Kept.write (kept : Kept known entries log) {n : Nat} (found : entries.findIdx? (·.1 = id) = some n) (credentials : CopilotCredentials) :
    Kept known (entries.modify n fun cell => (cell.1, credentials)) (log ++ [.wrote id credentials]) := by
  have ever : everListed known (log ++ [.wrote id credentials]) = everListed known log :=
    (everListed_snoc _).trans (List.append_nil _)
  have gone : removedIds (log ++ [.wrote id credentials]) = removedIds log :=
    (removedIds_snoc _).trans (List.append_nil _)
  have last : ∀ other, lastWritten (log ++ [.wrote id credentials]) other =
      if other = id then some credentials else lastWritten log other := by
    intro other
    simp only [lastWritten, List.filterMap_append, List.reverse_append]
    exact lookup_cons_if other id credentials _
  have names : (entries.modify n fun cell => (cell.1, credentials)).map Prod.fst = entries.map Prod.fst :=
    Indexed.map_modify_same entries n fun _ => rfl
  have listed : id ∈ entries.map Prod.fst := by
    obtain ⟨inside, same, -⟩ := List.findIdx?_eq_some_iff_getElem.1 found
    rw [← of_decide_eq_true same]
    exact List.mem_map_of_mem (List.getElem_mem inside)
  refine ⟨by rw [names]; exact kept.distinct, ?_, ?_, ?_, ?_⟩
  · rw [names, ever, gone]
    exact kept.listed
  · rw [ever, gone]
    exact kept.removed
  · intro other final
    rw [ever]
    rw [last] at final
    split at final
    case isTrue same =>
      rw [same]
      exact ((kept.listed id).1 listed).1
    case isFalse => exact kept.wrote other final
  · intro other written final member
    rw [names] at member
    rw [last] at final
    rw [lookup_modify found]
    split
    case isTrue same =>
      rw [if_pos same] at final
      exact final
    case isFalse different =>
      rw [if_neg different] at final
      exact kept.credentials other written final member

theorem Kept.save (kept : Kept known (cells accounts) log) {then_ : After} (follows : then_.Follows accounts list)
    (new : NewAccount known log then_) :
    Kept known (cells list) (log ++ CopilotProvider.written then_) := by
  cases then_ with
  | added account exchanged models =>
    rw [show cells list = cells accounts ++ [account.cell] from follows]
    exact kept.add new
  | edited disabled =>
    rw [show cells list = cells accounts from follows]
    exact (List.append_nil log).symm ▸ kept
  | removed account =>
    obtain ⟨n, here, rest⟩ := follows
    rw [rest]
    exact kept.remove here
  | refreshed id models now =>
    rw [follows.1]
    exact (List.append_nil log).symm ▸ kept
  | discovered snapshot outcome =>
    rw [follows.2.1]
    exact (List.append_nil log).symm ▸ kept
  | credentials account written caller =>
    obtain ⟨n, found, rest⟩ := follows
    rw [rest]
    exact kept.write found written

end Kept_

/-! ### What an access writes -/

def After.told : After → Option Outcome
  | .added account _ _ => some (.imported account)
  | .removed account => some (.removed account)
  | _ => none

inductive Files.Access (world later : World) (answer : Answer) (phase next : Phase) : Prop where
  | quiet (same : later.files.accounts = world.files.accounts) (told : next.told = phase.told)
    (log : later.log = world.log ∨ ∃ token issued, later.log = world.log ++ [.refreshed token issued])
  | saved (list : List CopilotAccount) (then_ : After) (here : phase = .inside (.saving list then_))
    (saves : answer.accountsSaved = .ok ()) (same : later.files.accounts = list)
    (told : next.told = then_.told) (log : later.log = world.log ++ CopilotProvider.written then_)

section Access

variable {provider after : CopilotProvider} {answer : Answer} {world later : World} {phase next : Phase}

theorem saved_told {list : List CopilotAccount} {then_ : After} (follows : then_.Follows provider.accounts list) :
    (provider.saved list then_).2.told = then_.told := by
  cases then_ with
  | edited disabled => cases disabled <;> rfl
  | discovered snapshot outcome => exact follows.1
  | _ => rfl

theorem unsaved_told (error : String) (then_ : After) : (provider.unsaved error then_).2.told = none := by
  cases then_ with
  | credentials account written caller => exact (resume_free account caller _).told
  | _ => rfl

theorem inside_access {here : Section} (sound : here.Sound provider) :
    Files.Access world (provider.inside answer world here).1 answer (.inside here)
      (provider.inside answer world here).2.2 := by
  cases here with
  | savingModels snapshot list changed outcome =>
    have follows : (After.discovered snapshot outcome).Follows provider.accounts list := sound
    simp only [CopilotProvider.inside]
    split
    · exact .quiet rfl rfl (.inl rfl)
    · split
      · exact .quiet rfl rfl (.inl rfl)
      · exact .quiet rfl (saved_told follows) (.inl rfl)
  | saving list then_ =>
    have follows : then_.Follows provider.accounts list := sound
    simp only [CopilotProvider.inside]
    split
    · exact .quiet rfl (unsaved_told _ then_) (.inl rfl)
    case h_2 saves => exact .saved list then_ rfl saves rfl (saved_told follows) rfl
  | _ => exact .quiet rfl rfl (.inl rfl)

theorem entered_told {change : Change} (entered : Entered provider change after next) : next.told = none := by
  cases entered with
  | refused error plain => rfl
  | gone account credentials now caller error here absent => exact (resume_free account caller _).told
  | missing id idOrLogin plain => rfl
  | saving list then_ follows holder kind granted => rfl
  | discovering snapshot list changed outcome follows plain => rfl

theorem tokenRefresh_access {account : CopilotAccount} {caller : Caller}
    (moved : provider.advance answer world (.tokenRefresh account caller) = some (later, after, next)) :
    Files.Access world later answer (.tokenRefresh account caller) next := by
  simp only [CopilotProvider.advance, CopilotProvider.tokenRefresh] at moved
  split at moved
  · cases moved
    exact .quiet rfl (resume_free account caller _).told (.inl (List.append_nil _))
  · split at moved
    · cases moved
      exact .quiet rfl (resume_free account caller _).told (.inl (List.append_nil _))
    case h_2 token given =>
      split at moved
      · cases moved
        exact .quiet rfl rfl (.inr ⟨token, _, rfl⟩)
      · cases moved
        exact .quiet rfl (resume_free account caller _).told (.inr ⟨token, _, rfl⟩)

theorem advance_access (moved : provider.advance answer world phase = some (later, after, next))
    (sound : ∀ here, phase = .inside here → here.Sound provider) : Files.Access world later answer phase next := by
  rcases advance_cases moved with ⟨apart, ⟨-, same, told⟩, does⟩ | ⟨change, rfl, rfl, -, entered⟩ | ⟨work, rfl, does⟩
  · rcases told with told | ⟨account, caller, rfl⟩
    · refine .quiet (by rw [same]) ?_ (.inl told)
      rw [does.told]
      -- What has ended does not move.
      cases phase with
      | inside here => cases apart
      | done outcome => cases moved
      | _ => rfl
    · exact tokenRefresh_access moved
  · exact .quiet rfl (entered_told entered) (.inl rfl)
  · have access : Files.Access world (provider.inside answer world work).1 answer (.inside work)
        (provider.inside answer world work).2.2 := inside_access (sound work rfl)
    rw [does] at access
    exact access

end Access

/-! ### What is told of the file -/

structure Told (known : List String) (log : List Event) (told : Nat → Option Outcome) : Prop where
  imported : ∀ i account, told i = some (.imported account) → account.id ∈ everListed known log
  removed : ∀ i account, told i = some (.removed account) → account.id ∈ removedIds log
  removals : ∀ id ∈ removedIds log, ∃ i account, told i = some (.removed account) ∧ account.id = id

section Told_

variable {known : List String} {log : List Event} {told : Nat → Option Outcome} {i : Nat}

theorem Told.quiet (before : Told known log told) {token : String} {issued : Option CopilotCredentials} :
    Told known (log ++ [.refreshed token issued]) told := by
  have ever : everListed known (log ++ [.refreshed token issued]) = everListed known log :=
    (everListed_snoc _).trans (List.append_nil _)
  have gone : removedIds (log ++ [.refreshed token issued]) = removedIds log :=
    (removedIds_snoc _).trans (List.append_nil _)
  refine ⟨?_, ?_, ?_⟩
  · rw [ever]
    exact before.imported
  · rw [gone]
    exact before.removed
  · rw [gone]
    exact before.removals

theorem mem_written_ever {then_ : After} {account : CopilotAccount} (tells : then_.told = some (.imported account)) :
    account.id ∈ everListed known (log ++ CopilotProvider.written then_) := by
  cases then_ with
  | added other exchanged models =>
    cases tells
    rw [CopilotProvider.written, everListed_snoc]
    exact List.mem_append_right _ (List.mem_singleton_self _)
  | _ => cases tells

theorem written_removed (then_ : After) : removedIds (log ++ CopilotProvider.written then_) =
    removedIds log ++ match then_.told with | some (.removed account) => [account.id] | _ => [] := by
  cases then_ with
  | added account exchanged models => exact removedIds_snoc _
  | removed account => exact removedIds_snoc _
  | credentials account written caller => exact removedIds_snoc _
  | _ =>
    show removedIds (log ++ []) = removedIds log ++ []
    rw [List.append_nil, List.append_nil]

theorem ever_append {id : String} (events : List Event) (member : id ∈ everListed known log) :
    id ∈ everListed known (log ++ events) := by
  rw [everListed, List.filterMap_append, ← List.append_assoc]
  exact List.mem_append_left _ member

theorem Told.save (before : Told known log told) (silent : told i = none) (then_ : After) :
    Told known (log ++ CopilotProvider.written then_) (Function.update told i then_.told) := by
  have splits : ∀ j outcome, Function.update told i then_.told j = some outcome →
      j = i ∧ then_.told = some outcome ∨ told j = some outcome := by
    intro j outcome tells
    rcases eq_or_ne j i with rfl | different
    · rw [Function.update_self] at tells
      exact .inl ⟨rfl, tells⟩
    · rw [Function.update_of_ne different] at tells
      exact .inr tells
  refine ⟨?_, ?_, ?_⟩
  · intro j account tells
    rcases splits j _ tells with ⟨-, now⟩ | earlier
    · exact mem_written_ever now
    · exact ever_append _ (before.imported j account earlier)
  · intro j account tells
    rw [written_removed]
    rcases splits j _ tells with ⟨-, now⟩ | earlier
    · rw [now]
      exact List.mem_append_right _ (List.mem_singleton_self _)
    · exact List.mem_append_left _ (before.removed j account earlier)
  · intro id member
    rw [written_removed] at member
    rcases List.mem_append.1 member with earlier | now
    · obtain ⟨j, account, tells, same⟩ := before.removals id earlier
      refine ⟨j, account, ?_, same⟩
      rw [Function.update_of_ne]
      · exact tells
      · rintro rfl
        rw [silent] at tells
        cases tells
    · split at now
      case h_1 account tells =>
        refine ⟨i, account, ?_, (List.mem_singleton.1 now).symm⟩
        rw [Function.update_self]
        exact tells
      case h_2 => cases now

end Told_

end KiroProxy.Copilot

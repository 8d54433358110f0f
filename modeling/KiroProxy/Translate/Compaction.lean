import KiroProxy.Translate.Tokenizer

/-! What a compaction leaves of a history: the protected prefix, a checkpoint, the documents of what
is gone, and the last turns as they were. -/
namespace KiroProxy.Tokens

/-- Nothing, or what starts with a user's message that hands in no results. -/
def TurnStart (history : List KiroHistoryMessage) : Prop :=
  ∀ first, history.head? = some first → startsConversationTurn first = true

def compactable (payload : KiroPayload) : List KiroHistoryMessage :=
  payload.conversationState.history.drop (protectedHistoryLen payload)

/-- A payload whose compactable messages were taken apart: those in front are gone, the others stand
behind the checkpoint and what is carried over. -/
structure Kept (tokenizer : Tokenizer) (payload result : KiroPayload) (stats : ContextCompactionStats)
    (targetTokens : Nat) (removed carried recent : List KiroHistoryMessage) : Prop where
  parts : compactable payload = removed ++ recent
  gone : removed ≠ []
  turn : TurnStart recent
  history : ∃ user assistant, stats.summary = some user.content ∧ result.conversationState.history =
    payload.conversationState.history.take (protectedHistoryLen payload) ++ [userTurn user, assistantTurn assistant] ++
      carried ++ recent
  current : result.conversationState.currentMessage = payload.conversationState.currentMessage
  tokens : stats.compactedTokens = estimateKiroPayload tokenizer result
  within : stats.compactedTokens ≤ targetTokens
  counted : stats.removedMessages = removed.length

/-- One pair for each removed user message with documents, and the documents in it. -/
def Carries (removed carried : List KiroHistoryMessage) : Prop :=
  ∃ pairs : List (KiroUserInputMessage × KiroAssistantMessage),
    carried = pairs.flatMap (fun pair => [userTurn pair.1, assistantTurn pair.2]) ∧
    pairs.map (·.1.documents) =
      ((removed.filterMap (·.userInputMessage)).filter fun user => !user.documents.isEmpty).map (·.documents)

/-! ### Turns -/

theorem oldestTurnLen_cons (message : KiroHistoryMessage) (rest : List KiroHistoryMessage) :
    oldestTurnLen (message :: rest) = (rest.findIdx? startsConversationTurn).elim (rest.length + 1) (· + 1) := rfl

theorem oldestTurnLen_pos {history : List KiroHistoryMessage} (filled : history ≠ []) : 0 < oldestTurnLen history := by
  cases history with
  | nil => exact absurd rfl filled
  | cons message rest =>
    rw [oldestTurnLen_cons]
    cases place : rest.findIdx? startsConversationTurn with
    | none => exact Nat.succ_pos _
    | some index => exact Nat.succ_pos _

theorem turnStart_drop (history : List KiroHistoryMessage) : TurnStart (history.drop (oldestTurnLen history)) := by
  intro first found
  cases history with
  | nil => cases found
  | cons message rest =>
    rw [oldestTurnLen_cons] at found
    cases place : rest.findIdx? startsConversationTurn with
    | none =>
      have nothing : (message :: rest).drop (rest.length + 1) = [] := List.drop_eq_nil_of_le (Nat.le_refl _)
      rw [place, Option.elim_none, nothing] at found
      cases found
    | some index =>
      rw [place, Option.elim_some, List.drop_succ_cons, List.head?_drop] at found
      obtain ⟨there, starts, -⟩ := List.findIdx?_eq_some_iff_getElem.1 place
      obtain rfl := Option.some.inj ((List.getElem?_eq_getElem there).symm.trans found)
      exact starts

theorem turnStart_recent (history : List KiroHistoryMessage) (preserveTurns : Nat) :
    TurnStart (history.drop (recentTurnStart history preserveTurns)) := by
  intro first found
  rw [List.head?_drop] at found
  have listed : ∀ index ∈ (history.zipIdx.filter fun message => startsConversationTurn message.1).map (·.2),
      history[index]? = some first → startsConversationTurn first = true := by
    intro index member at_index
    obtain ⟨⟨message, place⟩, inside, rfl⟩ := List.mem_map.1 member
    obtain ⟨paired, starts⟩ := List.mem_filter.1 inside
    rw [List.mem_zipIdx_iff_getElem?] at paired
    obtain rfl := Option.some.inj (paired.symm.trans at_index)
    exact starts
  have beyond : history[history.length]? ≠ some first := by simp
  unfold recentTurnStart at found
  split at found
  case isTrue => exact absurd found beyond
  case isFalse =>
    dsimp only at found
    cases recent : ((history.zipIdx.filter fun message => startsConversationTurn message.1).map (·.2)).reverse[preserveTurns - 1]? with
    | some index =>
      rw [recent] at found
      exact listed index (List.mem_reverse.1 (List.mem_of_getElem? recent)) found
    | none =>
      rw [recent] at found
      cases earliest : ((history.zipIdx.filter fun message => startsConversationTurn message.1).map (·.2)).head? with
      | some index =>
        rw [earliest] at found
        exact listed index (List.mem_of_head? earliest) found
      | none =>
        rw [earliest] at found
        exact absurd found beyond

theorem dropTurns_spec (tooLarge : List KiroHistoryMessage → Bool) (rounds : Nat) {retained : List KiroHistoryMessage}
    (turn : TurnStart retained) :
    ∃ dropped, retained = dropped ++ dropTurns tooLarge rounds retained ∧
      TurnStart (dropTurns tooLarge rounds retained) := by
  induction rounds generalizing retained with
  | zero => exact ⟨[], rfl, turn⟩
  | succ rounds ih =>
    rw [dropTurns]
    split
    case isTrue =>
      obtain ⟨dropped, parts, later⟩ := ih (turnStart_drop retained)
      refine ⟨retained.take (oldestTurnLen retained) ++ dropped, ?_, later⟩
      rw [List.append_assoc, ← parts, List.take_append_drop]
    case isFalse => exact ⟨[], rfl, turn⟩

/-! ### The plan -/

structure Planned (payload : KiroPayload) (plan : KiroCompactionPlan) : Prop where
  prefixed : plan.protectedHistory = payload.conversationState.history.take (protectedHistoryLen payload)
  length : plan.originalHistoryLen = (compactable payload).length
  parts : ∃ removed, removed ≠ [] ∧ compactable payload = removed ++ plan.retainedHistory
  turn : TurnStart plan.retainedHistory

theorem retained_parts {history : List KiroHistoryMessage} (filled : history ≠ []) (preserveTurns : Nat)
    (tooLarge : List KiroHistoryMessage → Bool) (rounds : Nat) :
    let retained := dropTurns tooLarge rounds (history.drop (recentTurnStart history preserveTurns))
    let kept := if retained.length = history.length then retained.drop (oldestTurnLen retained) else retained
    (∃ removed, removed ≠ [] ∧ history = removed ++ kept) ∧ TurnStart kept := by
  intro retained kept
  obtain ⟨dropped, parts, turn⟩ := dropTurns_spec tooLarge rounds (turnStart_recent history preserveTurns)
  have whole : history = (history.take (recentTurnStart history preserveTurns) ++ dropped) ++ retained := by
    rw [List.append_assoc, ← parts, List.take_append_drop]
  by_cases all : retained.length = history.length
  · have same : kept = retained.drop (oldestTurnLen retained) := if_pos all
    rw [same]
    refine ⟨⟨retained.take (oldestTurnLen retained), ?_, ?_⟩, turnStart_drop retained⟩
    · intro none_taken
      have some_retained : retained ≠ [] := by
        intro empty
        rw [empty, List.length_nil, eq_comm, List.length_eq_zero_iff] at all
        exact filled all
      obtain none | empty := List.take_eq_nil_iff.1 none_taken
      · exact absurd none (Nat.ne_of_gt (oldestTurnLen_pos some_retained))
      · exact some_retained empty
    · have front : history.take (recentTurnStart history preserveTurns) ++ dropped = [] := by
        rw [← List.length_eq_zero_iff]
        have lengths := congrArg List.length whole
        rw [List.length_append] at lengths
        omega
      rw [front, List.nil_append] at whole
      rw [List.take_append_drop]
      exact whole
  · have same : kept = retained := if_neg all
    rw [same]
    refine ⟨⟨history.take (recentTurnStart history preserveTurns) ++ dropped, ?_, whole⟩, turn⟩
    intro empty
    rw [empty, List.nil_append] at whole
    exact all (congrArg List.length whole).symm

theorem plan_planned {tokenizer : Tokenizer} {payload : KiroPayload} {targetTokens preserveRecentTurns : Nat}
    {plan : KiroCompactionPlan}
    (planned : planKiroCompaction tokenizer payload targetTokens preserveRecentTurns = some plan) : Planned payload plan := by
  unfold planKiroCompaction at planned
  dsimp only at planned
  split at planned
  case isTrue => cases planned
  case isFalse =>
    split at planned
    case isTrue => cases planned
    case isFalse filled =>
      obtain rfl := Option.some.inj planned
      have filled : compactable payload ≠ [] := by simpa [compactable] using filled
      obtain ⟨parts, turn⟩ := retained_parts filled preserveRecentTurns (fun retained =>
        decide (max targetTokens 1 - (summaryMaxTokens (max targetTokens 1) + 64) < estimateKiroPayload tokenizer
          (withHistory payload (payload.conversationState.history.take (protectedHistoryLen payload) ++ retained))))
        ((compactable payload).drop (recentTurnStart (compactable payload) preserveRecentTurns)).length
      exact ⟨rfl, rfl, parts, turn⟩

/-! ### Compaction -/

section Compacted

variable {tokenizer : Tokenizer} {payload : KiroPayload} {plan : KiroCompactionPlan} {targetTokens : Nat}

variable {result : KiroPayload} {stats : ContextCompactionStats}

theorem compacted_kept {carried retained : List KiroHistoryMessage} {dropped behind : List KiroHistoryMessage}
    {modelId origin summary failure : String} (planned : Planned payload plan)
    (parts : plan.retainedHistory = dropped ++ retained) (turn : TurnStart retained)
    (follows : behind = carried ++ retained)
    (accepted : compacted tokenizer (setCompactedHistory payload plan.protectedHistory summary behind modelId origin) plan
      retained summary failure targetTokens = (result, .ok stats)) :
    ∃ removed, compactable payload = removed ++ retained ∧
      Kept tokenizer payload result stats targetTokens removed carried retained := by
  unfold compacted at accepted
  dsimp only at accepted
  obtain ⟨rfl, told⟩ := Prod.mk.inj accepted
  split at told
  case isTrue => cases told
  case isFalse fits =>
    obtain rfl := Except.ok.inj told
    obtain ⟨removed, gone, whole⟩ := planned.parts
    rw [parts, ← List.append_assoc] at whole
    refine ⟨removed ++ dropped, whole, whole, by simp [gone], turn, ?_, rfl, rfl, Nat.le_of_not_lt fits, ?_⟩
    · refine ⟨{ content := summary, modelId, origin, images := [], documents := [], cachePoint := none
                clientCacheConfig := none, userInputMessageContext := none },
        { content := "Conversation checkpoint loaded as background context.", cachePoint := none, toolUses := [] }, rfl, ?_⟩
      rw [setCompactedHistory, planned.prefixed, follows, compactionSummaryPair, List.append_assoc, List.append_assoc]
      simp only [withHistory, List.append_assoc]
    · dsimp only
      rw [planned.length, whole, List.length_append, Nat.add_sub_cancel]

theorem applySemanticCompaction_kept {semanticSummary : String} (planned : Planned payload plan)
    (applied : applySemanticCompaction tokenizer payload plan semanticSummary targetTokens = some (result, .ok stats)) :
    ∃ removed recent, Kept tokenizer payload result stats targetTokens removed [] recent := by
  unfold applySemanticCompaction at applied
  dsimp only at applied
  split at applied
  case isTrue => cases applied
  case isFalse =>
    obtain ⟨cut, -, told⟩ := Option.map_eq_some_iff.1 applied
    obtain ⟨dropped, parts, turn⟩ := dropTurns_spec (fun retained => decide (targetTokens <
      estimateKiroPayload tokenizer (setCompactedHistory payload plan.protectedHistory
        (wrapSemanticSummary (Text.trim semanticSummary)) retained
        payload.conversationState.currentMessage.userInputMessage.modelId
        payload.conversationState.currentMessage.userInputMessage.origin))) plan.retainedHistory.length planned.turn
    cases cut with
    | error message => cases told
    | ok checkpoint =>
      obtain ⟨removed, -, kept⟩ := compacted_kept planned parts turn (List.nil_append _).symm told
      exact ⟨removed, _, kept⟩

theorem preserveRemovedDocuments_carries (removed : List KiroHistoryMessage) :
    Carries removed (preserveRemovedDocuments removed) := by
  unfold preserveRemovedDocuments
  unfold Carries
  generalize (removed.filterMap (·.userInputMessage)).filter (fun user => !user.documents.isEmpty) = users
  induction users with
  | nil => exact ⟨[], rfl, rfl⟩
  | cons user users ih =>
    obtain ⟨pairs, rest, documents⟩ := ih
    obtain ⟨copy, answer, same, own⟩ : ∃ copy answer, documentPair user = [userTurn copy, assistantTurn answer] ∧
        copy.documents = user.documents := ⟨_, _, rfl, rfl⟩
    refine ⟨(copy, answer) :: pairs, ?_, ?_⟩
    · rw [List.flatMap_cons, List.flatMap_cons, same, rest]
    · rw [List.map_cons, List.map_cons, own, documents]

theorem compactKiroPayload_kept {preserveRecentTurns : Nat}
    (made : planKiroCompaction tokenizer payload targetTokens preserveRecentTurns = some plan)
    (applied : compactKiroPayload tokenizer payload targetTokens preserveRecentTurns = some (result, .ok stats)) :
    ∃ removed carried recent, Kept tokenizer payload result stats targetTokens removed carried recent ∧
      Carries removed carried := by
  have planned := plan_planned made
  unfold compactKiroPayload at applied
  rw [made] at applied
  dsimp only at applied
  obtain ⟨cut, -, told⟩ := Option.map_eq_some_iff.1 applied
  obtain ⟨dropped, parts, turn⟩ := dropTurns_spec (fun retained => decide (targetTokens <
    estimateKiroPayload tokenizer (setFallbackCompactedHistory payload payload plan
      (renderFallbackCompactionSummary payload plan.protectedHistory.length (max (saturatingMul plan.summaryMaxTokens 3) 256))
      retained payload.conversationState.currentMessage.userInputMessage.modelId
      payload.conversationState.currentMessage.userInputMessage.origin))) plan.retainedHistory.length planned.turn
  cases cut with
  | error message => cases told
  | ok summary =>
    obtain ⟨removed, whole, kept⟩ := compacted_kept planned parts turn rfl told
    refine ⟨removed, _, _, kept, ?_⟩
    have front : payload.conversationState.history.drop plan.protectedHistory.length = compactable payload := by
      rw [planned.prefixed, compactable, List.length_take, protectedHistoryLen]
      congr 1
      omega
    rw [front, whole]
    simpa using preserveRemovedDocuments_carries removed

end Compacted

/-- Whatever is planned for: a compaction that succeeds keeps the protected prefix, the last turns and
the current message, puts one checkpoint between them, and reports what it did. -/
theorem compaction_kept (tokenizer : Tokenizer) (payload : KiroPayload) (targetTokens preserveRecentTurns : Nat)
    (plan : KiroCompactionPlan)
    (planned : planKiroCompaction tokenizer payload targetTokens preserveRecentTurns = some plan) :
    (∀ semanticSummary limit result stats,
      applySemanticCompaction tokenizer payload plan semanticSummary limit = some (result, .ok stats) →
      ∃ removed recent, Kept tokenizer payload result stats limit removed [] recent) ∧
    (∀ result stats, compactKiroPayload tokenizer payload targetTokens preserveRecentTurns = some (result, .ok stats) →
      ∃ removed carried recent, Kept tokenizer payload result stats targetTokens removed carried recent ∧
        Carries removed carried) :=
  ⟨fun _ _ _ _ applied => applySemanticCompaction_kept (plan_planned planned) applied,
    fun _ _ applied => compactKiroPayload_kept planned applied⟩

section Sample

def characters : Tokenizer where
  encodeOrdinary text := text.toList.map Char.toNat
  decode tokens := .ok (String.ofList (tokens.map Char.ofNat))
  decodeBase64Text _ := none
  scaledSquareRoot := id

def plainUser (content : String) (documents : List KiroDocument) : KiroUserInputMessage :=
  { content, modelId := "m", origin := "CLI", images := [], documents, cachePoint := none, clientCacheConfig := none
    userInputMessageContext := none }

def plainAnswer (content : String) : KiroHistoryMessage := assistantTurn { content, cachePoint := none, toolUses := [] }

def guide : KiroDocument := { format := "pdf", name := "guide.pdf", source := { bytes := "aGVsbG8=" }, citations := none }

def twoTurns : KiroPayload :=
  { conversationState :=
      { agentContinuationId := none, agentTaskType := none, chatTriggerType := "MANUAL", conversationId := "c"
        currentMessage := { userInputMessage := plainUser "now" [] }
        history := [userTurn (plainUser "system" []), plainAnswer "ok", userTurn (plainUser "old" [guide]), plainAnswer "a",
          userTurn (plainUser "new" []), plainAnswer "b"] }
    profileArn := none, additionalModelRequestFields := none, protectedHistoryMessages := 2 }

theorem compaction_kept_twoTurns :
    (∃ plan result stats, planKiroCompaction characters twoTurns 1000 1 = some plan ∧
      applySemanticCompaction characters twoTurns plan "Done." 1000 = some (result, .ok stats) ∧
      ∃ removed recent, Kept characters twoTurns result stats 1000 removed [] recent) ∧
    (∃ result stats, compactKiroPayload characters twoTurns 1000 1 = some (result, .ok stats) ∧
      ∃ removed carried recent, Kept characters twoTurns result stats 1000 removed carried recent ∧
        Carries removed carried) := by
  have succeeds : ∀ {outcome : Option (KiroPayload × Except String ContextCompactionStats)},
      outcome.any (fun made => made.2.toBool) = true → ∃ result stats, outcome = some (result, .ok stats) := by
    rintro (_ | ⟨result, _ | stats⟩) ok
    · cases ok
    · cases ok
    · exact ⟨result, stats, rfl⟩
  have made : (planKiroCompaction characters twoTurns 1000 1).isSome := by decide +kernel
  obtain ⟨plan, planned⟩ := Option.isSome_iff_exists.1 made
  have applied : ((planKiroCompaction characters twoTurns 1000 1).bind fun plan =>
      applySemanticCompaction characters twoTurns plan "Done." 1000).any (fun made => made.2.toBool) = true := by
    decide +kernel
  rw [planned, Option.bind_some] at applied
  obtain ⟨result, stats, semantic⟩ := succeeds applied
  obtain ⟨local_result, local_stats, extract⟩ := succeeds
    (show (compactKiroPayload characters twoTurns 1000 1).any (fun made => made.2.toBool) = true by decide +kernel)
  obtain ⟨kept, kept_local⟩ := compaction_kept characters twoTurns 1000 1 plan planned
  exact ⟨⟨plan, result, stats, planned, semantic, kept "Done." 1000 result stats semantic⟩,
    local_result, local_stats, extract, kept_local local_result local_stats extract⟩

end Sample

end KiroProxy.Tokens

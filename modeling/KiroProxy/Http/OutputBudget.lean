import KiroProxy.Http.RoundsSum
import KiroProxy.Lib.Run

/-! What an answer that is not streamed may still cost: the requests that the loop sends after the
first, the output they may produce, and the searches that are run in between. -/
namespace KiroProxy.Http

open Kiro
open Run (run)

structure KiroInferenceConfig where
  maxTokens : Option Nat := none
  temperature : Option Rat := none
  topP : Option Rat := none
  deriving DecidableEq

/-- Whether any output is left for the next request, and the payload's inference configuration
with what is left. -/
def applyRemainingOutputBudget (inference : Option KiroInferenceConfig) (maximum : Option Nat) (used : Nat) :
    Bool × Option KiroInferenceConfig :=
  match maximum with
  | none => (true, inference)
  | some maximum =>
    if maximum - used = 0 then (false, inference)
    else (true, some { inference.getD {} with maxTokens := some (min (maximum - used) (2 ^ 32 - 1)) })

/-- What the loop does to the outside, and the output of every answer that it decodes. -/
inductive Effect where
  | decoded (outputTokens : Nat)
  | toolSearch (toolUse : KiroToolUse)
  | webSearch (toolUse : KiroToolUse)
  | generate (available : Bool) (inference : Option KiroInferenceConfig)

namespace Effect

def outputTokens : Effect → Nat
  | decoded outputTokens => outputTokens
  | _ => 0

def isToolSearch : Effect → Bool
  | toolSearch _ => true
  | _ => false

def isWebSearch : Effect → Bool
  | webSearch _ => true
  | _ => false

def isGenerate : Effect → Bool
  | generate _ _ => true
  | _ => false

end Effect

def spent (effects : List Effect) : Nat := (effects.map Effect.outputTokens).sum

/-- The searches that are run for the calls; the others are answered without one. -/
def searchEffects (config : RoundsConfig) : Nat → List SearchCall → List Effect
  | _, [] => []
  | operations, .tool use _ :: rest =>
    if operations ≥ config.maxToolSearchOperations then searchEffects config operations rest
    else .toolSearch use :: searchEffects config (operations + 1) rest
  | operations, .web use trace :: rest =>
    if trace.executed then .webSearch use :: searchEffects config operations rest
    else searchEffects config operations rest

/-- An answer of upstream, and how far the loop comes after it: whether the budget of tool
searches is known, whether the next request passes its checks, and whether upstream answers it. -/
structure Turn where
  round : Round
  budgetKnown : Bool := true
  sends : Bool := true
  answered : Bool := true

/-- `collect_nonstream_rounds` between two answers: its variables, the payload's inference
configuration, what it has done, and the result once there is one. -/
structure Loop where
  rounds : Rounds
  inference : Option KiroInferenceConfig
  effects : List Effect := []
  result : Option (Option DecodedResponse) := none

def Loop.new (resumed : Resumed) (inference : Option KiroInferenceConfig) : Loop where
  rounds := .new resumed
  inference := inference

def Loop.finish (loop : Loop) (effects : List Effect) (result : Option DecodedResponse) : Loop :=
  { loop with effects := effects, result := some result }

def Loop.request (config : RoundsConfig) (loop : Loop) (turn : Turn) (effects : List Effect) (next : Rounds) : Loop :=
  let budget := applyRemainingOutputBudget loop.inference config.maxOutputTokens next.accumulatedUsage.outputTokens
  if turn.sends then
    let effects := effects ++ [.generate budget.1 budget.2]
    if turn.answered then { rounds := next, inference := budget.2, effects := effects }
    else loop.finish effects none
  else loop.finish effects none

def SearchCall.isTool : SearchCall → Bool
  | .tool _ _ => true
  | .web _ _ => false

def Loop.search (config : RoundsConfig) (loop : Loop) (turn : Turn) (effects : List Effect)
    (calls : List SearchCall) (next : Rounds) : Loop :=
  if calls.any SearchCall.isTool ∧ turn.budgetKnown = false then loop.finish effects none
  else loop.request config turn (effects ++ searchEffects config loop.rounds.toolSearchOperations calls) next

def Rounds.produced (outside : Outside) (config : RoundsConfig) (s : Rounds) (round : Round) : Nat :=
  match decodeRound outside config s.decoded round with
  | .error _ => 0
  | .ok decoded => decoded.usage.outputTokens

def Loop.step (outside : Outside) (config : RoundsConfig) (loop : Loop) (turn : Turn) : Loop :=
  if loop.result.isSome then loop
  else
    let effects := loop.effects ++ [.decoded (loop.rounds.produced outside config turn.round)]
    match loop.rounds.step outside config { turn.round with continues := true } with
    | .failed => loop.finish effects none
    | .finished _ decoded => loop.finish effects (some decoded)
    | .retried next | .continued next => loop.request config turn effects next
    | .searched calls next => loop.search config turn effects calls next

/-! ### Searches that are resumed before the first request -/

def resumeToolSearches (config : RoundsConfig) (catalog : ClaudeToolSearchCatalog) (round : Round) :
    Nat → List KiroToolUse → List ClaudeToolSearchTrace × Nat
  | operations, [] => ([], operations)
  | operations, use :: rest =>
    let found := toolSearchTrace config catalog round operations use
    let others := resumeToolSearches config catalog round found.2 rest
    ({ found.1 with id := use.toolUseId, emission := .resultOnly } :: others.1, others.2)

def resumeWebSearches (config : RoundsConfig) (round : Round) : Nat → List KiroToolUse → List ClaudeWebSearchTrace
  | _, [] => []
  | searches, use :: rest =>
    let found := webSearchTrace config round (parallelLimitMessage config) use.toolUseId searches use
    { found.1 with emission := .resultOnly } :: resumeWebSearches config round found.2 rest

def resumePending (config : RoundsConfig) (catalog : ClaudeToolSearchCatalog) (round : Round)
    (toolUses webUses : List KiroToolUse) : Resumed :=
  let tools := resumeToolSearches config catalog round 0 toolUses
  let webs := resumeWebSearches config round 0 webUses
  { toolSearches := tools.1
    webSearches := webs
    serverEvents := (List.range tools.1.length).map (.toolSearch · "") ++
      (List.range webs.length).map (.webSearch · "")
    toolSearchOperations := tools.2 }

structure Resumed.Within (config : RoundsConfig) (resumed : Resumed) : Prop where
  webSearches : resumed.webSearches.countP (·.executed) ≤ config.webSearchMaxRounds
  toolSearches : resumed.toolSearchOperations ≤ config.maxToolSearchOperations

/-! ### What a round adds to the counters -/

section Searches

variable {config : RoundsConfig} {catalog : ClaudeToolSearchCatalog} {round : Round}

theorem webSearchTrace_count (config : RoundsConfig) (round : Round) (limitMessage id : String) (searches : Nat)
    (use : KiroToolUse) :
    (webSearchTrace config round limitMessage id searches use).2 =
        searches + (webSearchTrace config round limitMessage id searches use).1.executed.toNat ∧
      (webSearchTrace config round limitMessage id searches use).2 ≤ max searches config.webSearchMaxRounds := by
  unfold webSearchTrace
  dsimp only
  split
  · exact ⟨rfl, Nat.le_max_left ..⟩
  · rename_i below
    split
    · exact ⟨rfl, Nat.le_max_left ..⟩
    · split
      · exact ⟨rfl, by omega⟩
      · exact ⟨rfl, by omega⟩

theorem toolSearchTrace_count (config : RoundsConfig) (catalog : ClaudeToolSearchCatalog) (round : Round)
    (operations : Nat) (use : KiroToolUse) :
    (toolSearchTrace config catalog round operations use).2 =
      if operations ≥ config.maxToolSearchOperations then operations else operations + 1 := by
  unfold toolSearchTrace
  split
  · rfl
  · split
    · rfl
    · rfl

theorem runWebSearches_count (config : RoundsConfig) (round : Round) (limitMessage : String) (operations searches i : Nat)
    (uses : List KiroToolUse) :
    (runWebSearches config round limitMessage searches i uses).2 = searches +
        (searchEffects config operations (runWebSearches config round limitMessage searches i uses).1).countP
          Effect.isWebSearch ∧
      (searchEffects config operations (runWebSearches config round limitMessage searches i uses).1).countP
          Effect.isToolSearch = 0 ∧
      (runWebSearches config round limitMessage searches i uses).2 ≤ max searches config.webSearchMaxRounds := by
  induction uses generalizing searches i with
  | nil => exact ⟨rfl, rfl, Nat.le_max_left ..⟩
  | cons use rest ih =>
    obtain ⟨counted, bounded⟩ := webSearchTrace_count config round limitMessage (round.serverId i) searches use
    simp only [runWebSearches, searchEffects]
    generalize webSearchTrace config round limitMessage (round.serverId i) searches use = found at counted bounded ⊢
    obtain ⟨total, tools, within⟩ := ih found.2 (i + 1)
    cases executed : found.1.executed with
    | true =>
      rw [executed] at counted
      rw [if_pos rfl, List.countP_cons_of_pos rfl, List.countP_cons_of_neg Bool.false_ne_true]
      refine ⟨?_, tools, by omega⟩
      rw [total, counted, Bool.toNat_true]
      omega
    | false =>
      rw [executed] at counted
      rw [if_neg (by decide)]
      refine ⟨?_, tools, by omega⟩
      rw [total, counted, Bool.toNat_false]
      omega

theorem runToolSearches_count (config : RoundsConfig) (catalog : ClaudeToolSearchCatalog) (round : Round)
    (operations i : Nat) (uses : List KiroToolUse) (more : List SearchCall) :
    (runToolSearches config catalog round operations i uses).2 ≤ max operations config.maxToolSearchOperations ∧
      ∃ effects, searchEffects config operations ((runToolSearches config catalog round operations i uses).1 ++ more) =
          effects ++ searchEffects config (runToolSearches config catalog round operations i uses).2 more ∧
        (runToolSearches config catalog round operations i uses).2 = operations + effects.countP Effect.isToolSearch ∧
        effects.countP Effect.isWebSearch = 0 := by
  induction uses generalizing operations i with
  | nil => exact ⟨Nat.le_max_left .., [], rfl, rfl, rfl⟩
  | cons use rest ih =>
    have counted := toolSearchTrace_count config catalog round operations use
    simp only [runToolSearches, List.cons_append, searchEffects]
    generalize toolSearchTrace config catalog round operations use = found at counted ⊢
    obtain ⟨within, effects, split, total, webs⟩ := ih found.2 (i + 1)
    by_cases full : operations ≥ config.maxToolSearchOperations
    · rw [if_pos full] at counted ⊢
      rw [counted] at within split total ⊢
      exact ⟨within, effects, split, total, webs⟩
    · rw [if_neg full] at counted ⊢
      rw [counted] at within split total ⊢
      refine ⟨by omega, .toolSearch use :: effects, by rw [split]; rfl, ?_, ?_⟩
      · rw [List.countP_cons_of_pos rfl, total]
        omega
      · rw [List.countP_cons_of_neg Bool.false_ne_true, webs]

theorem resumePending_within (config : RoundsConfig) (catalog : ClaudeToolSearchCatalog) (round : Round)
    (toolUses webUses : List KiroToolUse) : (resumePending config catalog round toolUses webUses).Within config := by
  have webs : ∀ searches, (resumeWebSearches config round searches webUses).countP (·.executed) + searches ≤
      max searches config.webSearchMaxRounds := by
    induction webUses with
    | nil =>
      intro searches
      exact (Nat.zero_add searches).le.trans (Nat.le_max_left ..)
    | cons use rest ih =>
      intro searches
      obtain ⟨counted, bounded⟩ :=
        webSearchTrace_count config round (parallelLimitMessage config) use.toolUseId searches use
      simp only [resumeWebSearches, List.countP_cons]
      generalize webSearchTrace config round (parallelLimitMessage config) use.toolUseId searches use = found at counted bounded ⊢
      have others := ih found.2
      cases executed : found.1.executed with
      | true =>
        rw [executed, Bool.toNat_true] at counted
        simp only [if_true]
        omega
      | false =>
        rw [executed, Bool.toNat_false] at counted
        simp only [Bool.false_eq_true, if_false]
        omega
  have tools : ∀ operations, (resumeToolSearches config catalog round operations toolUses).2 ≤
      max operations config.maxToolSearchOperations := by
    induction toolUses with
    | nil => exact fun operations => Nat.le_max_left ..
    | cons use rest ih =>
      intro operations
      have counted := toolSearchTrace_count config catalog round operations use
      simp only [resumeToolSearches]
      have others := ih (toolSearchTrace config catalog round operations use).2
      split at counted
      · omega
      · omega
  constructor
  · have from_zero := webs 0
    rwa [Nat.add_zero, Nat.zero_max] at from_zero
  · have from_zero := tools 0
    rwa [Nat.zero_max] at from_zero

end Searches

/-! ### A round that goes on -/

/-- What the counters become when a round with this output goes on: it has produced something, or
it is the one empty answer that is asked for again. -/
structure GoesOn (config : RoundsConfig) (s : Rounds) (output : Nat) (calls : List SearchCall) (next : Rounds) : Prop where
  left : config.maxOutputTokens.any (· ≤ saturatingAdd s.accumulatedUsage.outputTokens output) = false
  used : next.accumulatedUsage.outputTokens = saturatingAdd s.accumulatedUsage.outputTokens output
  grows : 1 ≤ output ∧ next.emptyToolResultRetries = 0 ∨ s.emptyToolResultRetries = 0 ∧ next.emptyToolResultRetries = 1
  webSearches : next.webSearchRound = s.webSearchRound +
    (searchEffects config s.toolSearchOperations calls).countP Effect.isWebSearch
  webLimit : next.webSearchRound ≤ max s.webSearchRound config.webSearchMaxRounds
  toolSearches : next.toolSearchOperations = s.toolSearchOperations +
    (searchEffects config s.toolSearchOperations calls).countP Effect.isToolSearch
  toolLimit : next.toolSearchOperations ≤ max s.toolSearchOperations config.maxToolSearchOperations

def Outcome.GoesOn (config : RoundsConfig) (s : Rounds) (output : Nat) : Outcome → Prop
  | .failed | .finished _ _ => True
  | .retried next | .continued next => Http.GoesOn config s output [] next
  | .searched calls next => Http.GoesOn config s output calls next

variable {output : Nat}

section Rounds

variable {outside : Outside} {config : RoundsConfig} {s : Rounds} {round : Round}

theorem next_goesOn {next : Rounds} {outcome : Rounds → Outcome} (goes : (outcome next).GoesOn config s output) :
    (next.next round outcome).GoesOn config s output := by
  unfold Rounds.next
  split
  · exact goes
  · trivial

theorem record_counters (s : Rounds) (precedingText : String) (calls : List SearchCall) :
    (s.record precedingText calls).accumulatedUsage = s.accumulatedUsage ∧
      (s.record precedingText calls).decoded = s.decoded ∧
      (s.record precedingText calls).toolSearchOperations = s.toolSearchOperations := by
  induction calls generalizing s precedingText with
  | nil => exact ⟨rfl, rfl, rfl⟩
  | cons call rest ih =>
    cases call with
    | tool use trace => exact ih _ _
    | web use trace => exact ih _ _

theorem search_goesOn (decoded : DecodedResponse) {calls : List SearchCall} (precedingText : String) (searchRound : Nat)
    (produced : 1 ≤ decoded.usage.outputTokens)
    (left : config.maxOutputTokens.any (· ≤ saturatingAdd s.accumulatedUsage.outputTokens decoded.usage.outputTokens) = false)
    {operations searches : Nat}
    (webs : searches = s.webSearchRound + (searchEffects config s.toolSearchOperations calls).countP Effect.isWebSearch)
    (webLimit : searches ≤ max s.webSearchRound config.webSearchMaxRounds)
    (tools : operations = s.toolSearchOperations +
      (searchEffects config s.toolSearchOperations calls).countP Effect.isToolSearch)
    (toolLimit : operations ≤ max s.toolSearchOperations config.maxToolSearchOperations) :
    GoesOn config s decoded.usage.outputTokens calls
      { (Rounds.record { s with accumulatedText := "", decoded := decoded } precedingText calls).afterSearch with
        toolSearchOperations := operations, webSearchRound := searches, searchRound := searchRound } := by
  obtain ⟨usage, same, -⟩ := record_counters { s with accumulatedText := "", decoded := decoded } precedingText calls
  refine ⟨left, ?_, .inl ⟨produced, rfl⟩, webs, webLimit, tools, toolLimit⟩
  simp only [Rounds.afterSearch, mergeRoundUsage, usage, same]

variable {outputExhausted : Bool} {decoded : DecodedResponse}

theorem toolSearchRound_goesOn (catalog : ClaudeToolSearchCatalog) (toolUses webUses : List KiroToolUse)
    (produced : 1 ≤ s.decoded.usage.outputTokens) (exhausted : outputExhausted = config.maxOutputTokens.any
      (· ≤ saturatingAdd s.accumulatedUsage.outputTokens s.decoded.usage.outputTokens)) :
    (s.toolSearchRound config catalog outputExhausted toolUses webUses round).GoesOn config s
      s.decoded.usage.outputTokens := by
  unfold Rounds.toolSearchRound
  dsimp only
  split
  · trivial
  · split
    · trivial
    · rename_i going
      rw [not_or, Bool.not_eq_true, exhausted] at going
      apply next_goesOn
      obtain ⟨toolLimit, effects, split, total, none_web⟩ := runToolSearches_count config catalog round
        s.toolSearchOperations 0 toolUses (runWebSearches config round (parallelLimitMessage config) s.webSearchRound
          toolUses.length webUses).1
      obtain ⟨webTotal, none_tool, webLimit⟩ := runWebSearches_count config round (parallelLimitMessage config)
        (runToolSearches config catalog round s.toolSearchOperations 0 toolUses).2 s.webSearchRound toolUses.length webUses
      apply search_goesOn { s.decoded with text := "" } _ _ produced going.2
      · rw [split, List.countP_append, none_web, Nat.zero_add]
        exact webTotal
      · exact webLimit
      · rw [split, List.countP_append, none_tool]
        exact total
      · exact toolLimit

theorem webRound_goesOn (webUses : List KiroToolUse) (produced : 1 ≤ s.decoded.usage.outputTokens)
    (exhausted : outputExhausted = config.maxOutputTokens.any
      (· ≤ saturatingAdd s.accumulatedUsage.outputTokens s.decoded.usage.outputTokens)) :
    (s.webRound config outputExhausted webUses round).GoesOn config s s.decoded.usage.outputTokens := by
  unfold Rounds.webRound
  dsimp only
  split
  · trivial
  · rename_i going
    rw [not_or, Bool.not_eq_true, exhausted] at going
    apply next_goesOn
    obtain ⟨webTotal, none_tool, webLimit⟩ := runWebSearches_count config round (webLimitMessage config)
      s.toolSearchOperations s.webSearchRound 0 webUses
    have same := (record_counters { s with accumulatedText := "", decoded := { s.decoded with text := "" } }
      (s.accumulatedText ++ s.decoded.text)
      (runWebSearches config round (webLimitMessage config) s.webSearchRound 0 webUses).1).2.2
    have goes := search_goesOn { s.decoded with text := "" } (s.accumulatedText ++ s.decoded.text) s.searchRound
      produced going.2 webTotal webLimit (congrArg (s.toolSearchOperations + ·) none_tool).symm (Nat.le_max_left ..)
    refine ⟨goes.left, goes.used, goes.grows, goes.webSearches, goes.webLimit, ?_, ?_⟩
    · exact same.trans goes.toolSearches
    · exact (Nat.le_of_eq same).trans goes.toolLimit

theorem plainRound_goesOn (produced : s.decoded.tools ≠ [] → 1 ≤ s.decoded.usage.outputTokens)
    (exhausted : outputExhausted = config.maxOutputTokens.any
      (· ≤ saturatingAdd s.accumulatedUsage.outputTokens s.decoded.usage.outputTokens)) :
    (s.plainRound config outputExhausted round).GoesOn config s s.decoded.usage.outputTokens := by
  unfold Rounds.plainRound
  split
  · trivial
  · rename_i going
    simp only [not_or, Bool.not_eq_true] at going
    obtain ⟨-, calls, left, -⟩ := going
    apply next_goesOn
    exact ⟨exhausted ▸ left, rfl, .inl ⟨produced calls, rfl⟩, rfl, Nat.le_max_left .., rfl, Nat.le_max_left ..⟩

theorem goesOn_decoded (decoded : DecodedResponse) {outcome : Outcome}
    (goes : outcome.GoesOn config { s with decoded := decoded } output) : outcome.GoesOn config s output := by
  have same : ∀ {calls next}, GoesOn config { s with decoded := decoded } output calls next →
      GoesOn config s output calls next :=
    fun goes => ⟨goes.left, goes.used, goes.grows, goes.webSearches, goes.webLimit, goes.toolSearches, goes.toolLimit⟩
  cases outcome with
  | failed => trivial
  | finished calls decoded => trivial
  | retried next => exact same goes
  | continued next => exact same goes
  | searched calls next => exact same goes

theorem branch_goesOn {rest : DecodedResponse} {toolUses webUses : List KiroToolUse}
    (catalog : ClaudeToolSearchCatalog) (produced : decoded.tools ≠ [] → 1 ≤ decoded.usage.outputTokens)
    (exhausted : outputExhausted = config.maxOutputTokens.any
      (· ≤ saturatingAdd s.accumulatedUsage.outputTokens decoded.usage.outputTokens))
    (usage : rest.usage = decoded.usage) (tools : toolUses ≠ [] → decoded.tools ≠ [])
    (webs : webUses ≠ [] → decoded.tools ≠ []) (left : rest.tools ≠ [] → decoded.tools ≠ []) :
    Outcome.GoesOn config s decoded.usage.outputTokens
      (if toolUses ≠ [] then
        Rounds.toolSearchRound config catalog outputExhausted toolUses webUses { s with decoded := rest } round
      else if webUses ≠ [] then Rounds.webRound config outputExhausted webUses { s with decoded := rest } round
      else Rounds.plainRound config outputExhausted { s with decoded := rest } round) := by
  rw [← usage] at produced exhausted ⊢
  apply goesOn_decoded rest
  split
  · rename_i filled
    exact toolSearchRound_goesOn catalog toolUses webUses (produced (tools filled)) exhausted
  · split
    · rename_i filled
      exact webRound_goesOn webUses (produced (webs filled)) exhausted
    · exact plainRound_goesOn (fun calls => produced (left calls)) exhausted

theorem accepted_goesOn (produced : s.decoded.tools ≠ [] → 1 ≤ s.decoded.usage.outputTokens)
    (exhausted : outputExhausted = config.maxOutputTokens.any
      (· ≤ saturatingAdd s.accumulatedUsage.outputTokens s.decoded.usage.outputTokens)) :
    (s.acceptedRound outside config outputExhausted round).GoesOn config s s.decoded.usage.outputTokens := by
  have taken : ∀ (decoded : DecodedResponse) predicate, (decoded.takeToolUsesWhere outside predicate).2 ≠ [] →
      decoded.tools ≠ [] := by
    intro decoded predicate some_taken none_there
    apply some_taken
    simp [DecodedResponse.takeToolUsesWhere, none_there]
  have kept : ∀ (decoded : DecodedResponse) predicate, (decoded.takeToolUsesWhere outside predicate).1.tools ≠ [] →
      decoded.tools ≠ [] := by
    intro decoded predicate some_left none_there
    apply some_left
    simp [DecodedResponse.takeToolUsesWhere, none_there]
  simp only [Rounds.acceptedRound]
  by_cases web : config.webSearchMaxRounds > 0
  · simp only [if_pos web]
    refine branch_goesOn _ produced exhausted ?_ (taken _ _) ?_ ?_
    · rfl
    · exact fun some_taken => kept _ _ (taken _ _ some_taken)
    · exact fun some_left => kept _ _ (kept _ _ some_left)
  · simp only [if_neg web]
    refine branch_goesOn _ produced exhausted ?_ (taken _ _) ?_ ?_
    · rfl
    · exact fun none => absurd rfl none
    · exact fun some_left => kept _ _ some_left

theorem fillMissingUsage_produced (tokenizer : Tokenizer) (decoded : DecodedResponse)
    (calls : (fillMissingUsage outside tokenizer decoded).tools ≠ []) :
    1 ≤ (fillMissingUsage outside tokenizer decoded).usage.outputTokens := by
  have some_calls : decoded.tools ≠ [] := calls
  have filled : ∀ (usage : UsageInfo) (projection : String), 1 ≤
      (if usage.outputTokens = 0 ∧ producedOutput { decoded with usage := usage } then
        { usage with outputTokens := countedTokens tokenizer projection } else usage).outputTokens := by
    intro usage projection
    split
    · exact Nat.le_max_right ..
    · rename_i reported
      by_contra nothing
      exact reported ⟨by omega, by simp [producedOutput, some_calls]⟩
  exact filled _ _

theorem decodeRound_produced {before : DecodedResponse}
    (decodes : decodeRound outside config before round = .ok decoded) (calls : decoded.tools ≠ []) :
    1 ≤ decoded.usage.outputTokens := by
  unfold decodeRound at decodes
  obtain ⟨collected, -, decodes⟩ := Bytes.bind_ok.mp decodes
  dsimp only at decodes
  split at decodes
  · obtain ⟨finalized, -, decodes⟩ := Bytes.bind_ok.mp decodes
    cases decodes
    exact fillMissingUsage_produced round.tokenizer finalized calls
  · cases decodes
    exact fillMissingUsage_produced round.tokenizer collected.decoded calls

theorem retry_first {toolResults : Bool} {retries : Nat}
    (retry : emptyToolResultDisposition toolResults decoded outputExhausted retries = .retry) :
    outputExhausted = false ∧ retries = 0 := by
  unfold emptyToolResultDisposition maxEmptyToolResultRetries at retry
  split at retry
  · rename_i empty
    split at retry
    · exact ⟨empty.2.2.2.2.2, by omega⟩
    · cases retry
  · cases retry

theorem step_goesOn (outside : Outside) (config : RoundsConfig) (s : Rounds) (round : Round) :
    (s.step outside config round).GoesOn config s (s.produced outside config round) := by
  unfold Rounds.step Rounds.produced
  cases decodes : decodeRound outside config s.decoded round with
  | error message => trivial
  | ok decoded =>
    dsimp only
    split
    · trivial
    · split
      · trivial
      · rename_i retry
        obtain ⟨left, first⟩ := retry_first retry
        apply next_goesOn
        refine ⟨left, rfl, .inr ⟨first, ?_⟩, rfl, Nat.le_max_left .., rfl, Nat.le_max_left ..⟩
        exact congrArg (· + 1) first
      · apply goesOn_decoded decoded
        exact accepted_goesOn (decodeRound_produced decodes) rfl

end Rounds

/-! ### The log of the loop -/

@[simp] theorem spent_append (first second : List Effect) : spent (first ++ second) = spent first + spent second := by
  simp [spent]

/-- Every request is sent while output is left, and asks for just what is left. -/
def WithinBudget (maximum : Nat) (effects : List Effect) : Prop :=
  ∀ i available inference, effects[i]? = some (.generate available inference) →
    available = true ∧ (inference.bind (·.maxTokens)) = some (maximum - spent (effects.take i)) ∧
      1 ≤ maximum - spent (effects.take i)

section Log

variable {maximum : Nat} {effects more : List Effect}

theorem WithinBudget.append (within : WithinBudget maximum effects)
    (rest : ∀ i available inference, more[i]? = some (.generate available inference) →
      available = true ∧ (inference.bind (·.maxTokens)) = some (maximum - (spent effects + spent (more.take i))) ∧
        1 ≤ maximum - (spent effects + spent (more.take i))) : WithinBudget maximum (effects ++ more) := by
  intro i available inference here
  by_cases early : i < effects.length
  · rw [List.getElem?_append_left early] at here
    rw [List.take_append_of_le_length early.le]
    exact within i available inference here
  · have late : effects.length ≤ i := Nat.le_of_not_lt early
    rw [List.getElem?_append_right late] at here
    rw [List.take_append, List.take_of_length_le late, spent_append]
    exact rest _ available inference here

theorem WithinBudget.quiet (within : WithinBudget maximum effects) (quiet : more.countP Effect.isGenerate = 0) :
    WithinBudget maximum (effects ++ more) := by
  apply within.append
  intro i available inference here
  have member := List.mem_of_getElem? here
  exact absurd rfl (List.countP_eq_zero.mp quiet _ member)

theorem WithinBudget.generate (within : WithinBudget maximum effects) {inference : Option KiroInferenceConfig}
    (asked : inference.bind (·.maxTokens) = some (maximum - spent effects)) (left : 1 ≤ maximum - spent effects) :
    WithinBudget maximum (effects ++ [.generate true inference]) := by
  apply within.append
  intro i available other here
  cases i with
  | zero =>
    cases here
    exact ⟨rfl, asked, left⟩
  | succ i => cases here

theorem searchEffects_quiet (config : RoundsConfig) (operations : Nat) (calls : List SearchCall) :
    (searchEffects config operations calls).countP Effect.isGenerate = 0 ∧
      spent (searchEffects config operations calls) = 0 := by
  induction calls generalizing operations with
  | nil => exact ⟨rfl, rfl⟩
  | cons call rest ih =>
    cases call with
    | tool use trace =>
      rw [searchEffects]
      split
      · exact ih operations
      · exact ⟨(List.countP_cons_of_neg Bool.false_ne_true).trans (ih _).1, by simpa [spent, Effect.outputTokens] using (ih _).2⟩
    | web use trace =>
      rw [searchEffects]
      split
      · exact ⟨(List.countP_cons_of_neg Bool.false_ne_true).trans (ih _).1, by simpa [spent, Effect.outputTokens] using (ih _).2⟩
      · exact ih operations

theorem remaining_budget (inference : Option KiroInferenceConfig) {used : Nat} (word : maximum < 2 ^ 32)
    (left : used < maximum) :
    ∃ written, applyRemainingOutputBudget inference (some maximum) used = (true, some written) ∧
      written.maxTokens = some (maximum - used) := by
  unfold applyRemainingOutputBudget
  dsimp only
  rw [if_neg (by omega)]
  refine ⟨_, rfl, ?_⟩
  exact congrArg some (Nat.min_eq_left (by omega))

end Log

/-! ### The invariant -/

structure Bounded (config : RoundsConfig) (maximum : Nat) (resumed : Resumed) (effects : List Effect) : Prop where
  requests : WithinBudget maximum effects
  generates : effects.countP Effect.isGenerate ≤ 2 * maximum
  webSearches : effects.countP Effect.isWebSearch + resumed.webSearches.countP (·.executed) ≤ config.webSearchMaxRounds
  toolSearches : effects.countP Effect.isToolSearch + resumed.toolSearchOperations ≤ config.maxToolSearchOperations

/-- The counters while the loop goes on: every request but the retries has cost some output. -/
structure Balanced (maximum : Nat) (resumed : Resumed) (s : Rounds) (requests : Nat) (effects : List Effect) : Prop where
  used : s.accumulatedUsage.outputTokens = spent effects
  left : spent effects < maximum
  retries : s.emptyToolResultRetries ≤ 1
  generates : requests ≤ 2 * spent effects + s.emptyToolResultRetries
  webSearches : s.webSearchRound = effects.countP Effect.isWebSearch + resumed.webSearches.countP (·.executed)
  toolSearches : s.toolSearchOperations = effects.countP Effect.isToolSearch + resumed.toolSearchOperations

structure Budgeted (config : RoundsConfig) (maximum : Nat) (resumed : Resumed) (loop : Loop) : Prop where
  bounded : Bounded config maximum resumed loop.effects
  running : loop.result = none →
    Balanced maximum resumed loop.rounds (loop.effects.countP Effect.isGenerate) loop.effects

section Invariant

variable {outside : Outside} {config : RoundsConfig} {maximum : Nat} {resumed : Resumed} {loop : Loop} {turn : Turn}
  {effects : List Effect} {next : Rounds}

theorem finish_budgeted (bounded : Bounded config maximum resumed effects) (result : Option DecodedResponse) :
    Budgeted config maximum resumed (loop.finish effects result) :=
  ⟨bounded, fun never => by cases never⟩

theorem request_budgeted (word : maximum < 2 ^ 32) (limit : config.maxOutputTokens = some maximum)
    (bounded : Bounded config maximum resumed effects)
    (ready : Balanced maximum resumed next (effects.countP Effect.isGenerate + 1) effects) :
    Budgeted config maximum resumed (loop.request config turn effects next) := by
  unfold Loop.request
  obtain ⟨written, budget, asked⟩ := remaining_budget loop.inference word ready.left
  rw [← ready.used, ← limit] at budget
  dsimp only
  rw [budget]
  have count : ∀ hit : Effect → Bool, hit (.generate true (some written)) = false →
      (effects ++ [Effect.generate true (some written)]).countP hit = effects.countP hit := by
    intro hit miss
    rw [List.countP_append, List.countP_singleton, if_neg (Bool.eq_false_iff.mp miss), Nat.add_zero]
  have one_more : (effects ++ [Effect.generate true (some written)]).countP Effect.isGenerate =
      effects.countP Effect.isGenerate + 1 := by
    rw [List.countP_append]
    rfl
  have same : spent (effects ++ [Effect.generate true (some written)]) = spent effects := by
    rw [spent_append]
    rfl
  have asks : Bounded config maximum resumed (effects ++ [.generate true (some written)]) := by
    have left := ready.left
    constructor
    · exact bounded.requests.generate asked (by omega)
    · have generates := ready.generates
      have retries := ready.retries
      omega
    · rw [count _ rfl]
      exact bounded.webSearches
    · rw [count _ rfl]
      exact bounded.toolSearches
  split
  · split
    · refine ⟨asks, fun _ => ⟨?_, ?_, ready.retries, ?_, ?_, ?_⟩⟩
      · rw [same]
        exact ready.used
      · rw [same]
        exact ready.left
      · rw [same, one_more]
        exact ready.generates
      · rw [count _ rfl]
        exact ready.webSearches
      · rw [count _ rfl]
        exact ready.toolSearches
    · exact finish_budgeted asks none
  · exact finish_budgeted bounded none

theorem not_saturated {used : Nat} (word : maximum < 2 ^ 32) (limit : config.maxOutputTokens = some maximum)
    (left : config.maxOutputTokens.any (· ≤ saturatingAdd used output) = false) :
    saturatingAdd used output = used + output ∧ used + output < maximum := by
  rw [limit, Option.any_some, decide_eq_false_iff_not] at left
  unfold saturatingAdd at left ⊢
  omega

theorem goesOn_ready {s : Rounds} {calls : List SearchCall} (word : maximum < 2 ^ 32)
    (limit : config.maxOutputTokens = some maximum) (bounded : Bounded config maximum resumed effects)
    (balanced : Balanced maximum resumed s (effects.countP Effect.isGenerate) effects)
    (goes : GoesOn config s output calls next) :
    let after := effects ++ [.decoded output] ++ searchEffects config s.toolSearchOperations calls
    Bounded config maximum resumed after ∧
      Balanced maximum resumed next (after.countP Effect.isGenerate + 1) after := by
  intro after
  obtain ⟨quiet, unspent⟩ := searchEffects_quiet config s.toolSearchOperations calls
  obtain ⟨exact_sum, left⟩ := not_saturated word limit goes.left
  have total : spent after = spent effects + output := by
    simp only [after, spent_append, unspent]
    rfl
  have requests : after.countP Effect.isGenerate = effects.countP Effect.isGenerate := by
    simp only [after, List.countP_append, quiet]
    rfl
  have webs : next.webSearchRound = after.countP Effect.isWebSearch + resumed.webSearches.countP (·.executed) := by
    have counted : after.countP Effect.isWebSearch = effects.countP Effect.isWebSearch +
        (searchEffects config s.toolSearchOperations calls).countP Effect.isWebSearch := by
      simp only [after, List.countP_append]
      rfl
    have added := goes.webSearches
    have before := balanced.webSearches
    omega
  have tools : next.toolSearchOperations = after.countP Effect.isToolSearch + resumed.toolSearchOperations := by
    have counted : after.countP Effect.isToolSearch = effects.countP Effect.isToolSearch +
        (searchEffects config s.toolSearchOperations calls).countP Effect.isToolSearch := by
      simp only [after, List.countP_append]
      rfl
    have added := goes.toolSearches
    have before := balanced.toolSearches
    omega
  have used := balanced.used
  rw [used] at left
  constructor
  · constructor
    · exact (bounded.requests.quiet rfl).quiet quiet
    · rw [requests]
      exact bounded.generates
    · have before := bounded.webSearches
      have limited := goes.webLimit
      rw [balanced.webSearches] at limited
      rw [← webs]
      omega
    · have before := bounded.toolSearches
      have limited := goes.toolLimit
      rw [balanced.toolSearches] at limited
      rw [← tools]
      omega
  · have generates := balanced.generates
    have retries := balanced.retries
    constructor
    · rw [goes.used, exact_sum, total, used]
    · rw [total]
      exact left
    · rcases goes.grows with ⟨-, none⟩ | ⟨-, once⟩
      · omega
      · omega
    · rw [requests, total]
      rcases goes.grows with ⟨produced, none⟩ | ⟨first, once⟩
      · omega
      · omega
    · exact webs
    · exact tools

theorem decoded_bounded (bounded : Bounded config maximum resumed effects) (output : Nat) :
    Bounded config maximum resumed (effects ++ [.decoded output]) := by
  have count : ∀ hit : Effect → Bool, hit (.decoded output) = false →
      (effects ++ [Effect.decoded output]).countP hit = effects.countP hit := by
    intro hit miss
    rw [List.countP_append, List.countP_singleton, if_neg (Bool.eq_false_iff.mp miss), Nat.add_zero]
  constructor
  · exact bounded.requests.quiet rfl
  · rw [count _ rfl]
    exact bounded.generates
  · rw [count _ rfl]
    exact bounded.webSearches
  · rw [count _ rfl]
    exact bounded.toolSearches

theorem step_budgeted (word : maximum < 2 ^ 32) (limit : config.maxOutputTokens = some maximum)
    (budgeted : Budgeted config maximum resumed loop) (turn : Turn) :
    Budgeted config maximum resumed (loop.step outside config turn) := by
  unfold Loop.step
  split
  · exact budgeted
  · rename_i running
    have balanced := budgeted.running (Option.not_isSome_iff_eq_none.mp running)
    have goes := step_goesOn outside config loop.rounds { turn.round with continues := true }
    have decodes : loop.rounds.produced outside config { turn.round with continues := true } =
        loop.rounds.produced outside config turn.round := rfl
    rw [decodes] at goes
    have bounded := decoded_bounded budgeted.bounded (loop.rounds.produced outside config turn.round)
    cases stepped : loop.rounds.step outside config { turn.round with continues := true } with
    | failed => exact finish_budgeted bounded none
    | finished calls decoded => exact finish_budgeted bounded (some decoded)
    | retried next =>
      rw [stepped] at goes
      obtain ⟨-, ready⟩ := goesOn_ready word limit budgeted.bounded balanced goes
      rw [searchEffects, List.append_nil] at ready
      exact request_budgeted word limit bounded ready
    | continued next =>
      rw [stepped] at goes
      obtain ⟨-, ready⟩ := goesOn_ready word limit budgeted.bounded balanced goes
      rw [searchEffects, List.append_nil] at ready
      exact request_budgeted word limit bounded ready
    | searched calls next =>
      rw [stepped] at goes
      obtain ⟨after, ready⟩ := goesOn_ready word limit budgeted.bounded balanced goes
      dsimp only
      unfold Loop.search
      split
      · exact finish_budgeted bounded none
      · exact request_budgeted word limit after ready

theorem request_running (waiting : (loop.request config turn effects next).result = none) :
    (loop.request config turn effects next).effects.countP Effect.isGenerate =
      effects.countP Effect.isGenerate + 1 := by
  unfold Loop.request at waiting ⊢
  dsimp only at waiting ⊢
  split at waiting
  · rename_i sends
    split at waiting
    · rename_i answered
      rw [if_pos sends, if_pos answered, List.countP_append]
      rfl
    · cases waiting
  · cases waiting

theorem step_running (waiting : (loop.step outside config turn).result = none) : loop.result = none ∧
    (loop.step outside config turn).effects.countP Effect.isGenerate = loop.effects.countP Effect.isGenerate + 1 := by
  unfold Loop.step at waiting ⊢
  split at waiting
  · rename_i answered
    rw [waiting] at answered
    cases answered
  · rename_i running
    refine ⟨Option.not_isSome_iff_eq_none.mp running, ?_⟩
    rw [if_neg running]
    have unsent : (loop.effects ++ [Effect.decoded (loop.rounds.produced outside config turn.round)]).countP
        Effect.isGenerate = loop.effects.countP Effect.isGenerate := by
      rw [List.countP_append]
      rfl
    cases stepped : loop.rounds.step outside config { turn.round with continues := true } with
    | failed => simp only [stepped, Loop.finish] at waiting; cases waiting
    | finished calls decoded => simp only [stepped, Loop.finish] at waiting; cases waiting
    | retried next =>
      simp only [stepped] at waiting ⊢
      rw [request_running waiting, unsent]
    | continued next =>
      simp only [stepped] at waiting ⊢
      rw [request_running waiting, unsent]
    | searched calls next =>
      simp only [stepped] at waiting ⊢
      unfold Loop.search at waiting ⊢
      split at waiting
      · cases waiting
      · rename_i known
        rw [if_neg known, request_running waiting, List.countP_append, (searchEffects_quiet ..).1, unsent]

theorem running_requests (loop : Loop) (turns : List Turn)
    (waiting : (run (Loop.step outside config) loop turns).result = none) :
    (run (Loop.step outside config) loop turns).effects.countP Effect.isGenerate =
      loop.effects.countP Effect.isGenerate + turns.length := by
  induction turns using List.reverseRecOn with
  | nil => rfl
  | append_singleton turns turn ih =>
    rw [Run.run_append] at waiting ⊢
    obtain ⟨before, one_more⟩ := step_running waiting
    refine one_more.trans ?_
    rw [ih before, List.length_append]
    rfl

end Invariant

/-! ### The loop and its answer -/

/-- The loop ends: after the first answer it sends at most twice as many requests as output tokens
are allowed, each while output is left and with just that as its limit; and the searches that it
runs, with the resumed ones, keep their limits. -/
theorem continuations_bounded (outside : Outside) (config : RoundsConfig) (maximum : Nat) (positive : 1 ≤ maximum)
    (word : maximum < 2 ^ 32) (limit : config.maxOutputTokens = some maximum) (resumed : Resumed)
    (within : resumed.Within config) (inference : Option KiroInferenceConfig) (turns : List Turn) :
    let loop := run (Loop.step outside config) (.new resumed inference) turns
    loop.effects.countP Effect.isGenerate ≤ 2 * maximum ∧
    (2 * maximum < turns.length → loop.result ≠ none) ∧
    (∀ i available inference, loop.effects[i]? = some (.generate available inference) →
      available = true ∧ (inference.bind (·.maxTokens)) = some (maximum - spent (loop.effects.take i)) ∧
        1 ≤ maximum - spent (loop.effects.take i)) ∧
    loop.effects.countP Effect.isWebSearch + resumed.webSearches.countP (·.executed) ≤ config.webSearchMaxRounds ∧
    loop.effects.countP Effect.isToolSearch + resumed.toolSearchOperations ≤ config.maxToolSearchOperations := by
  intro loop
  have start : Budgeted config maximum resumed (.new resumed inference) := by
    constructor
    · constructor
      · exact fun i available inference never => by cases never
      · exact Nat.zero_le _
      · exact (Nat.zero_add _).le.trans within.webSearches
      · exact (Nat.zero_add _).le.trans within.toolSearches
    · exact fun _ => ⟨rfl, positive, Nat.zero_le _, Nat.le_refl _, (Nat.zero_add _).symm, (Nat.zero_add _).symm⟩
  have budgeted : Budgeted config maximum resumed loop :=
    Run.run_always (P := Budgeted config maximum resumed)
      (fun loop turn budgeted => step_budgeted word limit budgeted turn) turns start
  refine ⟨budgeted.bounded.generates, fun long waiting => ?_, budgeted.bounded.requests,
    budgeted.bounded.webSearches, budgeted.bounded.toolSearches⟩
  have requests : loop.effects.countP Effect.isGenerate = 0 + turns.length :=
    running_requests (.new resumed inference) turns waiting
  have generates := budgeted.bounded.generates
  omega

/-- The rounds of a web search with an empty answer in between, when one search is resumed and eight
tokens may be produced. -/
def budgetConfig : RoundsConfig := { searchConfig with maxOutputTokens := some 8 }

def resumedSearch : Resumed :=
  resumePending budgetConfig [] (sampleRound [] false) []
    [{ toolUseId := "p", name := "web_search", input := .object [("query", .string "earlier")] }]

def budgetLoop : Loop :=
  run (Loop.step sampleOutside budgetConfig) (.new resumedSearch none)
    ((searchRounds none).map fun round => { round := round })

theorem continuations_bounded_search :
    budgetLoop.effects.countP Effect.isGenerate = 2 ∧ resumedSearch.webSearches.countP (·.executed) = 1 ∧
      budgetLoop.effects.getLast?.map Effect.outputTokens = some 3 ∧
      (∀ i available inference, budgetLoop.effects[i]? = some (.generate available inference) →
        available = true ∧ (inference.bind (·.maxTokens)) = some (8 - spent (budgetLoop.effects.take i)) ∧
          1 ≤ 8 - spent (budgetLoop.effects.take i)) ∧
      budgetLoop.effects.countP Effect.isWebSearch + resumedSearch.webSearches.countP (·.executed) ≤ 2 := by
  obtain ⟨-, -, requests, webSearches, -⟩ := continuations_bounded sampleOutside budgetConfig 8 (by decide) (by decide) rfl
    resumedSearch (resumePending_within ..) none ((searchRounds none).map fun round => { round := round })
  exact ⟨by decide, by decide, by decide, requests, webSearches⟩

end KiroProxy.Http

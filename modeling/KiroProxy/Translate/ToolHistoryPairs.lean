import KiroProxy.Translate.ToolHistory
import KiroProxy.Lib.Indexed

/-! What the pairing pass computes. The queues and the in-place table disappear:
a structured call gets the first result of its id located after it, and no other
call can have asked for that id before, because structured ids are unique. -/
namespace KiroProxy.ToolHistory

open Text (trim)
open Indexed (indicesOf)

/-- A structured result with the index of the message that carries it. -/
abbrev Sourced := Nat × KiroToolResult

def sourcedResults : Nat → List ConversationMessage → List Sourced
  | _, [] => []
  | index, .user user :: rest =>
    user.toolResults.map (fun result => (index, result)) ++ sourcedResults (index + 1) rest
  | index, .assistant _ :: rest => sourcedResults (index + 1) rest

def withoutResults : ConversationMessage → ConversationMessage
  | .user user => .user (takeToolResults user).1
  | .assistant assistant => .assistant assistant

structure Lists (table : ResultTable) (collected : List Sourced) : Prop where
  results : table.results = collected.map (fun s => ⟨s.1, some s.2⟩)
  indexes : ∀ id, table.resultIndexes id =
    indicesOf collected (fun s => trim s.2.toolUseId == id)

theorem takeToolResults_results (user : KiroUserInputMessage) :
    (takeToolResults user).2 = user.toolResults := by
  unfold takeToolResults KiroUserInputMessage.toolResults
  cases user.userInputMessageContext with
  | none => rfl
  | some context =>
    simp only [Option.map_some, Option.getD_some]
    split <;> rfl

theorem push_lists {table : ResultTable} {collected : List Sourced} (listed : Lists table collected)
    (index : Nat) (result : KiroToolResult) :
    Lists (table.push index result) (collected ++ [(index, result)]) := by
  constructor
  · simp [ResultTable.push, listed.results]
  · intro id
    rw [Indexed.indicesOf_snoc, ← listed.indexes id]
    by_cases same : trim result.toolUseId = id
    · subst same
      simp [ResultTable.push, listed.results]
    · simp [ResultTable.push, Function.update_of_ne (Ne.symm same), same]

theorem pushes_lists {table : ResultTable} {collected : List Sourced}
    (listed : Lists table collected) (index : Nat) (results : List KiroToolResult) :
    Lists (results.foldl (fun table result => table.push index result) table)
      (collected ++ results.map (fun result => (index, result))) := by
  induction results generalizing table collected with
  | nil => simpa using listed
  | cons result rest ih => simpa using ih (push_lists listed index result)

theorem collectResults_messages (index : Nat) (messages : List ConversationMessage)
    (table : ResultTable) :
    (collectResults index messages table).1 = messages.map withoutResults := by
  induction messages generalizing index table with
  | nil => rfl
  | cons message rest ih =>
    cases message with
    | user user => simp [collectResults, withoutResults, ih]
    | assistant assistant => simp [collectResults, withoutResults, ih]

theorem collectResults_lists (index : Nat) (messages : List ConversationMessage)
    {table : ResultTable} {collected : List Sourced} (listed : Lists table collected) :
    Lists (collectResults index messages table).2 (collected ++ sourcedResults index messages) := by
  induction messages generalizing index table collected with
  | nil => simpa [collectResults, sourcedResults] using listed
  | cons message rest ih =>
    cases message with
    | user user =>
      have pushed := pushes_lists listed index (takeToolResults user).2
      rw [takeToolResults_results] at pushed
      simpa [collectResults, sourcedResults, takeToolResults_results] using ih (index + 1) pushed
    | assistant assistant => simpa [collectResults, sourcedResults] using ih (index + 1) listed

theorem empty_lists : Lists {} [] := ⟨rfl, fun _ => rfl⟩

/-! ### One call -/

/-- The first collected result of this id located after the call, with its number. -/
def partner (collected : List Sourced) (assistantIndex : Nat) (id : String) :
    Option (Sourced × Nat) :=
  collected.zipIdx.find?
    (fun x => trim x.1.2.toolUseId == id && decide (assistantIndex < x.1.1))

theorem partner_mem {collected : List Sourced} {assistantIndex : Nat} {id : String}
    {x : Sourced × Nat} (found : partner collected assistantIndex id = some x) :
    x ∈ collected.zipIdx ∧ trim x.1.2.toolUseId = id ∧ assistantIndex < x.1.1 := by
  have passes := List.find?_some found
  simp only [Bool.and_eq_true, beq_iff_eq, decide_eq_true_eq] at passes
  exact ⟨List.mem_of_find?_eq_some found, passes⟩

def repairedResult (id : String) (result : KiroToolResult) : KiroToolResult :=
  { (normalizeResult result).1 with toolUseId := id }

def resultFor (collected : List Sourced) (assistantIndex : Nat) (toolUse : KiroToolUse) :
    KiroToolResult :=
  match partner collected assistantIndex (trim toolUse.toolUseId) with
  | some x => repairedResult (trim toolUse.toolUseId) x.1.2
  | none => missingResult (trim toolUse.toolUseId)

def pairStats (collected : List Sourced) (assistantIndex : Nat) (toolUse : KiroToolUse)
    (stats : KiroToolHistoryStats) : KiroToolHistoryStats :=
  let id := trim toolUse.toolUseId
  let stats := if trim toolUse.name ≠ toolUse.name ∨ id ≠ toolUse.toolUseId then
      { stats with normalizedToolUses := stats.normalizedToolUses + 1 } else stats
  match partner collected assistantIndex id with
  | some x => (repairResult id assistantIndex x.1.1 x.1.2 stats).2
  | none => { stats with synthesizedToolResults := stats.synthesizedToolResults + 1 }

/- The state between two calls: the results taken so far are gone from the table,
and the queues of all ids still to come are as they were collected. -/
structure Ready (collected : List Sourced) (taken : List Nat) (ids : List String)
    (table : ResultTable) : Prop where
  results : table.results =
    collected.zipIdx.map (fun x => ⟨x.1.1, if x.2 ∈ taken then none else some x.1.2⟩)
  queues : ∀ id ∈ ids, table.resultIndexes id =
    indicesOf collected (fun s => trim s.2.toolUseId == id)
  untaken : ∀ x ∈ collected.zipIdx, x.2 ∈ taken → trim x.1.2.toolUseId ∉ ids

theorem ready_of_lists {table : ResultTable} {collected : List Sourced}
    (listed : Lists table collected) (ids : List String) : Ready collected [] ids table := by
  refine ⟨?_, fun id _ => listed.indexes id, by simp⟩
  rw [listed.results]
  apply List.ext_getElem?
  intro k
  simp [List.getElem?_zipIdx, Function.comp_def]

theorem ready_getElem {collected : List Sourced} {taken : List Nat} {ids : List String}
    {table : ResultTable} (ready : Ready collected taken ids table) {x : Sourced × Nat}
    (member : x ∈ collected.zipIdx) :
    table.results[x.2]? = some ⟨x.1.1, if x.2 ∈ taken then none else some x.1.2⟩ := by
  rw [List.mem_zipIdx_iff_getElem?] at member
  simp [ready.results, List.getElem?_zipIdx, member]

theorem popMatching_index {collected : List Sourced} {taken : List Nat} {id : String}
    {ids : List String} {table : ResultTable} (ready : Ready collected taken ids table)
    (due : id ∈ ids) (assistantIndex : Nat) :
    (popMatching table assistantIndex id).1 =
      (partner collected assistantIndex id).map Prod.snd := by
  let later : Nat → Bool := fun index =>
    !(table.results[index]?).any (fun r => decide (r.sourceIndex ≤ assistantIndex))
  have agree : ∀ x ∈ collected.zipIdx, later x.2 = decide (assistantIndex < x.1.1) := by
    intro x member
    simp only [later, ready_getElem ready member, Option.any_some, ← decide_not, Nat.not_le]
  have first : (popMatching table assistantIndex id).1 =
      ((table.resultIndexes id).dropWhile (fun index => !later index)).head? := by
    simp only [popMatching, later, Bool.not_not]
    split
    · rename_i none; rw [none]; rfl
    · rename_i some; rw [some]; rfl
  rw [first, Indexed.head_dropWhile, ready.queues id due,
    Indexed.find_indicesOf collected _ (fun s => decide (assistantIndex < s.1)) later agree]
  rfl

theorem popMatching_results (table : ResultTable) (assistantIndex : Nat) (id : String) :
    (popMatching table assistantIndex id).2.results = table.results := by
  simp only [popMatching]
  split <;> rfl

theorem popMatching_other (table : ResultTable) (assistantIndex : Nat) {id other : String}
    (different : other ≠ id) :
    (popMatching table assistantIndex id).2.resultIndexes other = table.resultIndexes other := by
  simp only [popMatching]
  split <;> simp [Function.update_of_ne different]

theorem takeResult_indexes (table : ResultTable) (index : Nat) :
    (takeResult table index).2.resultIndexes = table.resultIndexes := by
  unfold takeResult
  split <;> rfl

theorem popMatching_ready {collected : List Sourced} {taken : List Nat} {id : String}
    {ids : List String} {table : ResultTable} (ready : Ready collected taken (id :: ids) table)
    (fresh : id ∉ ids) (assistantIndex : Nat) :
    Ready collected taken ids (popMatching table assistantIndex id).2 := by
  refine ⟨?_, ?_, ?_⟩
  · rw [popMatching_results, ready.results]
  · intro other due
    have different : other ≠ id := fun same => fresh (same ▸ due)
    rw [popMatching_other table assistantIndex different]
    exact ready.queues other (List.mem_cons_of_mem _ due)
  · intro x member gone due
    exact ready.untaken x member gone (List.mem_cons_of_mem _ due)

theorem takeResult_ready {collected : List Sourced} {taken : List Nat} {ids : List String}
    {table : ResultTable} (ready : Ready collected taken ids table) {x : Sourced × Nat}
    (member : x ∈ collected.zipIdx) (present : x.2 ∉ taken)
    (fresh : trim x.1.2.toolUseId ∉ ids) :
    (takeResult table x.2).1 = some x.1 ∧
      Ready collected (taken ++ [x.2]) ids (takeResult table x.2).2 := by
  have entry := ready_getElem ready member
  simp only [present, if_false] at entry
  have place := member
  rw [List.mem_zipIdx_iff_getElem?] at place
  refine ⟨by simp [takeResult, entry], ?_, ?_, ?_⟩
  · simp only [takeResult, entry]
    rw [ready.results]
    apply List.ext_getElem?
    intro k
    by_cases here : x.2 = k
    · subst here
      obtain ⟨bound, value⟩ := List.getElem?_eq_some_iff.mp place
      simp [bound, value]
    · rw [List.getElem?_set_ne here]
      simp only [List.getElem?_map, List.getElem?_zipIdx, List.mem_append, List.mem_singleton]
      cases collected[k]? <;> simp [Ne.symm here]
  · intro id due
    rw [takeResult_indexes]
    exact ready.queues id due
  · intro y hy gone
    rcases List.mem_append.mp gone with gone | gone
    · exact ready.untaken y hy gone
    · rw [List.mem_zipIdx_iff_getElem?, List.mem_singleton.mp gone, place] at hy
      rw [← Option.some.inj hy]
      exact fresh

theorem pairUse_spec {collected : List Sourced} {taken : List Nat} {ids : List String}
    {state : PairingState} (toolUse : KiroToolUse)
    (ready : Ready collected taken (trim toolUse.toolUseId :: ids) state.table)
    (fresh : trim toolUse.toolUseId ∉ ids) (assistantIndex : Nat) :
    Ready collected
        (taken ++ ((partner collected assistantIndex (trim toolUse.toolUseId)).map Prod.snd).toList)
        ids (pairUse assistantIndex toolUse state).table ∧
      (pairUse assistantIndex toolUse state).scheduled =
        Function.update state.scheduled assistantIndex
          (state.scheduled assistantIndex ++ [resultFor collected assistantIndex toolUse]) ∧
      (pairUse assistantIndex toolUse state).stats =
        pairStats collected assistantIndex toolUse state.stats := by
  have popped := popMatching_index ready List.mem_cons_self assistantIndex
  have rest := popMatching_ready ready fresh assistantIndex
  cases found : partner collected assistantIndex (trim toolUse.toolUseId) with
  | none =>
    simp only [found, Option.map_none] at popped
    refine ⟨?_, ?_, ?_⟩
    · simpa [pairUse, popped] using rest
    · simp [pairUse, popped, resultFor, found]
    · simp [pairUse, popped, pairStats, found]
  | some x =>
    simp only [found, Option.map_some] at popped
    obtain ⟨member, same, _⟩ := partner_mem found
    have present : x.2 ∉ taken := by
      intro gone
      exact ready.untaken x member gone (same ▸ List.mem_cons_self)
    obtain ⟨value, after⟩ := takeResult_ready rest member present (same ▸ fresh)
    refine ⟨?_, ?_, ?_⟩
    · simpa [pairUse, popped] using after
    · simp [pairUse, popped, value, resultFor, found, repairedResult, repairResult]
    · simp [pairUse, popped, value, pairStats, found]

/-! ### All calls -/

section Calls

variable (counts : String → Nat) (activeToolNames : List String) (collected : List Sourced)

def structured (toolUse : KiroToolUse) : Bool :=
  !(malformed counts toolUse || undefinedTool activeToolNames toolUse)

def keptUses (uses : List KiroToolUse) : List KiroToolUse :=
  uses.filter (structured counts activeToolNames)

def archivedUses (uses : List KiroToolUse) : List KiroToolUse :=
  uses.filter (fun toolUse => !structured counts activeToolNames toolUse)

def archiveAll (content : String) (records : List String) : String :=
  records.foldl appendText content

def useStats (assistantIndex : Nat) (stats : KiroToolHistoryStats) (toolUse : KiroToolUse) :
    KiroToolHistoryStats :=
  if structured counts activeToolNames toolUse then
    pairStats collected assistantIndex toolUse stats
  else archiveUseStats counts toolUse stats

def takenBy (assistantIndex : Nat) (uses : List KiroToolUse) : List Nat :=
  uses.filterMap (fun toolUse =>
    (partner collected assistantIndex (trim toolUse.toolUseId)).map Prod.snd)

def trimmedIds (uses : List KiroToolUse) : List String :=
  uses.map (fun toolUse => trim toolUse.toolUseId)

theorem repairUses_kept {toolUse : KiroToolUse} (kept : structured counts activeToolNames toolUse = true)
    (assistantIndex : Nat) (rest : List KiroToolUse) (content : String) (state : PairingState) :
    repairUses counts activeToolNames assistantIndex (toolUse :: rest) content state =
      let out := repairUses counts activeToolNames assistantIndex rest content
        (pairUse assistantIndex toolUse state)
      (out.1, trimmedUse toolUse :: out.2.1, out.2.2) := by
  have wellFormed : (malformed counts toolUse || undefinedTool activeToolNames toolUse) = false := by
    simpa [structured] using kept
  simp [repairUses, wellFormed]

theorem repairUses_archived {toolUse : KiroToolUse}
    (archived : structured counts activeToolNames toolUse = false)
    (assistantIndex : Nat) (rest : List KiroToolUse) (content : String) (state : PairingState) :
    repairUses counts activeToolNames assistantIndex (toolUse :: rest) content state =
      repairUses counts activeToolNames assistantIndex rest
        (appendText content (renderToolUse toolUse))
        { state with stats := archiveUseStats counts toolUse state.stats } := by
  have unfit : (malformed counts toolUse || undefinedTool activeToolNames toolUse) = true := by
    simpa only [structured, Bool.not_eq_false'] using archived
  simp only [repairUses, unfit, if_true]

theorem repairUses_spec (assistantIndex : Nat) (uses : List KiroToolUse) (content : String)
    (state : PairingState) {taken : List Nat} {ids : List String}
    (ready : Ready collected taken
      (trimmedIds (keptUses counts activeToolNames uses) ++ ids) state.table)
    (distinct : (trimmedIds (keptUses counts activeToolNames uses) ++ ids).Nodup) :
    let out := repairUses counts activeToolNames assistantIndex uses content state
    let kept := keptUses counts activeToolNames uses
    out.1 = archiveAll content ((archivedUses counts activeToolNames uses).map renderToolUse) ∧
      out.2.1 = kept.map trimmedUse ∧
      Ready collected (taken ++ takenBy collected assistantIndex kept) ids out.2.2.table ∧
      out.2.2.scheduled = Function.update state.scheduled assistantIndex
        (state.scheduled assistantIndex ++ kept.map (resultFor collected assistantIndex)) ∧
      out.2.2.stats = uses.foldl (useStats counts activeToolNames collected assistantIndex)
        state.stats := by
  induction uses generalizing content taken state with
  | nil => simpa [repairUses, keptUses, archivedUses, archiveAll, trimmedIds, takenBy] using ready
  | cons toolUse rest ih =>
    cases fit : structured counts activeToolNames toolUse with
    | true =>
      simp only [keptUses, trimmedIds, List.filter_cons_of_pos fit, List.map_cons,
        List.cons_append, List.nodup_cons] at ready distinct
      obtain ⟨readyRest, scheduledHere, statsHere⟩ :=
        pairUse_spec toolUse ready distinct.1 assistantIndex
      have tail := ih content _ readyRest distinct.2
      simp only [repairUses_kept counts activeToolNames fit]
      refine ⟨?_, ?_, ?_, ?_, ?_⟩
      · simpa [archivedUses, fit] using tail.1
      · simpa [keptUses, List.filter_cons_of_pos fit] using tail.2.1
      · have table := tail.2.2.1
        rw [List.append_assoc] at table
        cases found : partner collected assistantIndex (trim toolUse.toolUseId) <;>
          simpa [keptUses, takenBy, List.filter_cons_of_pos fit, found] using table
      · rw [tail.2.2.2.1, scheduledHere]
        simp [keptUses, List.filter_cons_of_pos fit, List.append_assoc]
      · simpa [statsHere, useStats, fit] using tail.2.2.2.2
    | false =>
      have out : ¬ structured counts activeToolNames toolUse = true := by simp [fit]
      simp only [keptUses, List.filter_cons_of_neg out] at ready distinct
      have tail := ih (appendText content (renderToolUse toolUse))
        { state with stats := archiveUseStats counts toolUse state.stats } ready distinct
      simp only [repairUses_archived counts activeToolNames fit, keptUses,
        List.filter_cons_of_neg out]
      refine ⟨?_, tail.2.1, tail.2.2.1, tail.2.2.2.1, ?_⟩
      · simpa [archivedUses, archiveAll, fit] using tail.1
      · simpa [useStats, fit] using tail.2.2.2.2

def repairMessage : ConversationMessage → ConversationMessage
  | .user user => .user user
  | .assistant assistant =>
    .assistant { assistant with
      content := archiveAll assistant.content
        ((archivedUses counts activeToolNames assistant.toolUses).map renderToolUse)
      toolUses := (keptUses counts activeToolNames assistant.toolUses).map trimmedUse }

def dueFrom (index : Nat) (message : ConversationMessage) : List KiroToolResult :=
  (keptUses counts activeToolNames (toolUsesOf message)).map (resultFor collected index)

def takenFrom : Nat → List ConversationMessage → List Nat
  | _, [] => []
  | index, message :: rest =>
    takenBy collected index (keptUses counts activeToolNames (toolUsesOf message)) ++
      takenFrom (index + 1) rest

def statsFrom : Nat → List ConversationMessage → KiroToolHistoryStats → KiroToolHistoryStats
  | _, [], stats => stats
  | index, message :: rest, stats =>
    statsFrom (index + 1) rest
      ((toolUsesOf message).foldl (useStats counts activeToolNames collected index) stats)

theorem repairAssistants_spec (index : Nat) (messages : List ConversationMessage)
    (state : PairingState) {taken : List Nat}
    (ready : Ready collected taken
      (trimmedIds (keptUses counts activeToolNames (messages.flatMap toolUsesOf))) state.table)
    (distinct : (trimmedIds (keptUses counts activeToolNames (messages.flatMap toolUsesOf))).Nodup)
    (unscheduled : ∀ n, index ≤ n → state.scheduled n = []) :
    let out := repairAssistants counts activeToolNames index messages state
    out.1 = messages.map (repairMessage counts activeToolNames) ∧
      Ready collected (taken ++ takenFrom counts activeToolNames collected index messages) []
        out.2.table ∧
      (∀ n, out.2.scheduled n = if n < index then state.scheduled n else
        ((messages[n - index]?).map (dueFrom counts activeToolNames collected n)).getD []) ∧
      out.2.stats = statsFrom counts activeToolNames collected index messages state.stats := by
  induction messages generalizing index taken state with
  | nil =>
    refine ⟨rfl, by simpa [takenFrom, trimmedIds, keptUses, repairAssistants] using ready, ?_, rfl⟩
    intro n
    by_cases early : n < index
    · simp [repairAssistants, early]
    · simp [repairAssistants, early, unscheduled n (Nat.le_of_not_lt early)]
  | cons message rest ih =>
    cases message with
    | user user =>
      have tail := ih (index + 1) state ready distinct (fun n later => unscheduled n (by omega))
      refine ⟨?_, ?_, ?_, ?_⟩
      · simpa [repairAssistants, repairMessage] using tail.1
      · simpa [repairAssistants, takenFrom, takenBy, keptUses, toolUsesOf] using tail.2.1
      · intro n
        rw [show (repairAssistants counts activeToolNames index (.user user :: rest) state).2 =
          (repairAssistants counts activeToolNames (index + 1) rest state).2 from rfl, tail.2.2.1 n]
        rcases Nat.lt_trichotomy n index with early | here | later
        · simp [early, Nat.lt_succ_of_lt early]
        · subst here
          simp [unscheduled n (Nat.le_refl n), dueFrom, toolUsesOf, keptUses]
        · obtain ⟨k, rfl⟩ : ∃ k, n = index + 1 + k := ⟨n - (index + 1), by omega⟩
          have place : index + 1 + k - index = k + 1 := by omega
          have back : index + 1 + k - (index + 1) = k := by omega
          have early : ¬ index + 1 + k < index := by omega
          have past : ¬ index + 1 + k < index + 1 := by omega
          rw [if_neg past, if_neg early, back, place, List.getElem?_cons_succ]
      · simpa [repairAssistants, statsFrom, toolUsesOf] using tail.2.2.2
    | assistant assistant =>
      simp only [List.flatMap_cons, toolUsesOf, keptUses, List.filter_append, trimmedIds,
        List.map_append] at ready distinct
      have here := repairUses_spec counts activeToolNames collected index assistant.toolUses
        assistant.content state ready distinct
      have tail := ih (index + 1) _ here.2.2.1 (List.Nodup.of_append_right distinct) (by
        intro n later
        rw [here.2.2.2.1, Function.update_of_ne (by omega)]
        exact unscheduled n (by omega))
      refine ⟨?_, ?_, ?_, ?_⟩
      · simpa [repairAssistants, repairMessage, here.1, here.2.1] using tail.1
      · simpa [repairAssistants, takenFrom, toolUsesOf, List.append_assoc] using tail.2.1
      · intro n
        simp only [repairAssistants]
        rw [tail.2.2.1 n, here.2.2.2.1]
        rcases Nat.lt_trichotomy n index with early | same | later
        · simp [early, Nat.lt_succ_of_lt early, Function.update_of_ne (Nat.ne_of_lt early)]
        · subst same
          simp [unscheduled n (Nat.le_refl n), dueFrom, toolUsesOf]
        · obtain ⟨k, rfl⟩ : ∃ k, n = index + 1 + k := ⟨n - (index + 1), by omega⟩
          have place : index + 1 + k - index = k + 1 := by omega
          have back : index + 1 + k - (index + 1) = k := by omega
          have early : ¬ index + 1 + k < index := by omega
          have past : ¬ index + 1 + k < index + 1 := by omega
          rw [if_neg past, if_neg early, back, place, List.getElem?_cons_succ]
      · simpa [repairAssistants, statsFrom, toolUsesOf, here.2.2.2.2] using tail.2.2.2

theorem mem_takenFrom {messages : List ConversationMessage} (index : Nat) {n : Nat}
    {message : ConversationMessage} (place : messages[n]? = some message) {toolUse : KiroToolUse}
    (kept : toolUse ∈ keptUses counts activeToolNames (toolUsesOf message)) {x : Sourced × Nat}
    (found : partner collected (index + n) (trim toolUse.toolUseId) = some x) :
    x.2 ∈ takenFrom counts activeToolNames collected index messages := by
  induction messages generalizing index n with
  | nil => simp at place
  | cons first rest ih =>
    cases n with
    | zero =>
      have here : first = message := by simpa using place
      subst here
      exact List.mem_append_left _
        (List.mem_filterMap.mpr ⟨toolUse, kept, by simpa using congrArg (Option.map Prod.snd) found⟩)
    | succ n =>
      rw [show index + (n + 1) = index + 1 + n by omega] at found
      exact List.mem_append_right _ (ih (index + 1) (by simpa using place) found)

theorem statsFrom_fixed (messages : List ConversationMessage) (index : Nat)
    (stats : KiroToolHistoryStats)
    (fixed : ∀ n message toolUse, messages[n]? = some message → toolUse ∈ toolUsesOf message →
      ∀ s, useStats counts activeToolNames collected (index + n) s toolUse = s) :
    statsFrom counts activeToolNames collected index messages stats = stats := by
  induction messages generalizing index with
  | nil => rfl
  | cons message rest ih =>
    have here : (toolUsesOf message).foldl (useStats counts activeToolNames collected index) stats =
        stats := by
      have each := fixed 0 message
      revert each
      generalize toolUsesOf message = uses
      intro each
      induction uses with
      | nil => rfl
      | cons toolUse more tail =>
        have first : useStats counts activeToolNames collected index stats toolUse = stats :=
          each toolUse rfl List.mem_cons_self stats
        rw [List.foldl_cons, first]
        exact tail (fun u same member => each u same (List.mem_cons_of_mem _ member))
    rw [statsFrom, here]
    apply ih
    intro n later toolUse place member s
    rw [show index + 1 + n = index + (n + 1) by omega]
    exact fixed (n + 1) later toolUse (by simpa using place) member s

@[simp] theorem toolUsesOf_withoutResults (message : ConversationMessage) :
    toolUsesOf (withoutResults message) = toolUsesOf message := by
  cases message <;> rfl

theorem takenFrom_withoutResults (index : Nat) (messages : List ConversationMessage) :
    takenFrom counts activeToolNames collected index (messages.map withoutResults) =
      takenFrom counts activeToolNames collected index messages := by
  induction messages generalizing index with
  | nil => rfl
  | cons message rest ih => simp [takenFrom, ih]

theorem statsFrom_withoutResults (index : Nat) (messages : List ConversationMessage)
    (stats : KiroToolHistoryStats) :
    statsFrom counts activeToolNames collected index (messages.map withoutResults) stats =
      statsFrom counts activeToolNames collected index messages stats := by
  induction messages generalizing index stats with
  | nil => rfl
  | cons message rest ih => simp [statsFrom, ih]

end Calls

/-! ### Unclaimed results -/

theorem structured_ids_distinct (messages : List ConversationMessage)
    (activeToolNames : List String) :
    (trimmedIds (keptUses (toolUseIdCounts messages) activeToolNames
      (messages.flatMap toolUsesOf))).Nodup := by
  apply Indexed.nodup_of_count
  intro toolUse _ fit
  have named : trim toolUse.toolUseId ≠ "" ∧ ¬ toolUseIdCounts messages (trim toolUse.toolUseId) > 1 := by
    simp only [structured, malformed, duplicateId, Bool.not_eq_true', Bool.or_eq_false_iff,
      decide_eq_false_iff_not, Bool.and_eq_false_iff] at fit
    obtain ⟨⟨⟨⟨_, named⟩, single⟩, _⟩, _⟩ := fit
    exact ⟨named, by simpa [named] using single⟩
  rw [toolUseIdCounts, Indexed.foldl_count, List.count_filter (by simpa using named.1)] at named
  omega

def archiveMessage (results : List KiroToolResult) : ConversationMessage → ConversationMessage
  | .user user =>
    .user { user with content := archiveAll user.content (results.map renderToolResult) }
  | .assistant assistant => .assistant assistant

@[simp] theorem archiveMessage_nil : archiveMessage [] = id := by
  funext message
  cases message <;> rfl

theorem archiveMessage_append (first second : List KiroToolResult) (message : ConversationMessage) :
    archiveMessage second (archiveMessage first message) = archiveMessage (first ++ second) message := by
  cases message <;> simp [archiveMessage, archiveAll]

def archivedAt (candidates : List SourcedResult) (index : Nat) : List KiroToolResult :=
  candidates.filterMap (fun c => if c.sourceIndex = index then c.result else none)

theorem archiveResult_getElem (messages : List ConversationMessage) (stats : KiroToolHistoryStats)
    (candidate : SourcedResult) (n : Nat) :
    (archiveResult messages stats candidate).1[n]? =
      (messages[n]?).map (archiveMessage (archivedAt [candidate] n)) := by
  obtain ⟨source, result⟩ := candidate
  unfold archiveResult
  split
  · rename_i value user known place
    simp only at known place
    subst known
    by_cases here : source = n
    · subst here
      have bound : source < messages.length := (List.getElem?_eq_some_iff.mp place).1
      rw [List.getElem?_set_self bound, place]
      simp [archivedAt, archiveMessage, archiveAll]
    · simp [archivedAt, here]
  · rename_i other
    by_cases here : source = n
    · subst here
      cases result with
      | none => simp [archivedAt]
      | some value =>
        cases place : messages[source]? with
        | none => rfl
        | some message =>
          cases message with
          | user user => exact absurd place (other value user rfl)
          | assistant assistant => rfl
    · simp [archivedAt, here]

theorem archiveResults_getElem (candidates : List SourcedResult)
    (messages : List ConversationMessage) (stats : KiroToolHistoryStats) (n : Nat) :
    (archiveResults candidates messages stats).1[n]? =
      (messages[n]?).map (archiveMessage (archivedAt candidates n)) := by
  induction candidates generalizing messages stats with
  | nil => simp [archiveResults, archivedAt]
  | cons candidate rest ih =>
    simp only [archiveResults]
    rw [ih, archiveResult_getElem]
    cases messages[n]? with
    | none => rfl
    | some message =>
      simp only [Option.map_some, archiveMessage_append, archivedAt, ← List.filterMap_append]
      rfl

theorem archiveResults_stats (candidates : List SourcedResult) (messages : List ConversationMessage)
    (stats : KiroToolHistoryStats)
    (users : ∀ c ∈ candidates, (messages[c.sourceIndex]?).any isUser = true) :
    (archiveResults candidates messages stats).2 =
      { stats with flattenedToolResults :=
          stats.flattenedToolResults + (candidates.filterMap (·.result)).length } := by
  induction candidates generalizing messages stats with
  | nil => rfl
  | cons candidate rest ih =>
    have here := users candidate List.mem_cons_self
    have still : ∀ c ∈ rest,
        ((archiveResult messages stats candidate).1[c.sourceIndex]?).any isUser = true := by
      intro c member
      have before := users c (List.mem_cons_of_mem _ member)
      rw [archiveResult_getElem]
      cases place : messages[c.sourceIndex]? with
      | none => simp [place] at before
      | some message =>
        cases message with
        | user user => rfl
        | assistant assistant => simp [place, isUser] at before
    simp only [archiveResults, ih _ _ still]
    obtain ⟨source, result⟩ := candidate
    cases result with
    | none => simp [archiveResult]
    | some value =>
      cases place : messages[source]? with
      | none => simp [place] at here
      | some message =>
        cases message with
        | assistant assistant => simp [place, isUser] at here
        | user user => simp [archiveResult, place]; omega

/-! ### The whole pass -/

def unclaimed (collected : List Sourced) (taken : List Nat) : List (Sourced × Nat) :=
  collected.zipIdx.filter (fun x => decide (x.2 ∉ taken))

def unclaimedAt (collected : List Sourced) (taken : List Nat) (index : Nat) : List KiroToolResult :=
  ((unclaimed collected taken).filter (fun x => decide (x.1.1 = index))).map (fun x => x.1.2)

theorem ready_archivedAt {collected : List Sourced} {taken : List Nat} {table : ResultTable}
    (ready : Ready collected taken [] table) (index : Nat) :
    archivedAt table.results index = unclaimedAt collected taken index := by
  rw [archivedAt, ready.results, unclaimedAt, unclaimed, List.filterMap_map, List.filter_filter,
    ← List.filterMap_eq_map, List.filterMap_filter]
  apply List.filterMap_congr
  intro x _
  by_cases gone : x.2 ∈ taken <;> by_cases here : x.1.1 = index <;> simp [gone, here]

theorem ready_left {collected : List Sourced} {taken : List Nat} {table : ResultTable}
    (ready : Ready collected taken [] table) :
    (table.results.filterMap (·.result)).length = (unclaimed collected taken).length := by
  have values : table.results.filterMap (·.result) =
      (unclaimed collected taken).map (fun x => x.1.2) := by
    rw [ready.results, unclaimed, List.filterMap_map, ← List.filterMap_eq_map,
      List.filterMap_filter]
    apply List.filterMap_congr
    intro x _
    by_cases gone : x.2 ∈ taken <;> simp [gone]
  rw [values, List.length_map]

theorem sourced_user (index : Nat) (messages : List ConversationMessage) (s : Sourced)
    (member : s ∈ sourcedResults index messages) :
    index ≤ s.1 ∧ ∃ user, messages[s.1 - index]? = some (.user user) ∧ s.2 ∈ user.toolResults := by
  induction messages generalizing index with
  | nil => simp [sourcedResults] at member
  | cons message rest ih =>
    have later : s ∈ sourcedResults (index + 1) rest →
        index ≤ s.1 ∧ ∃ user, (message :: rest)[s.1 - index]? = some (.user user) ∧
          s.2 ∈ user.toolResults := by
      intro tail
      obtain ⟨bound, user, place, carried⟩ := ih (index + 1) tail
      obtain ⟨k, step⟩ : ∃ k, s.1 = index + 1 + k := ⟨s.1 - (index + 1), by omega⟩
      refine ⟨by omega, user, ?_, carried⟩
      rw [show s.1 - index = k + 1 by omega]
      rw [show s.1 - (index + 1) = k by omega] at place
      simpa using place
    cases message with
    | assistant assistant => exact later member
    | user user =>
      rcases List.mem_append.mp member with here | tail
      · obtain ⟨result, carried, rfl⟩ := List.mem_map.mp here
        exact ⟨Nat.le_refl _, user, by simp, carried⟩
      · exact later tail

section Pass

variable (messages : List ConversationMessage) (activeToolNames : List String)
  (stats : KiroToolHistoryStats)

def taken : List Nat :=
  takenFrom (toolUseIdCounts messages) activeToolNames (sourcedResults 0 messages) 0 messages

/-- The message at an index after the pass, still without its own results. -/
def repairedAt (index : Nat) (message : ConversationMessage) : ConversationMessage :=
  archiveMessage (unclaimedAt (sourcedResults 0 messages) (taken messages activeToolNames) index)
    (repairMessage (toolUseIdCounts messages) activeToolNames (withoutResults message))

theorem repairToolPairs_spec :
    let out := repairToolPairs messages activeToolNames stats
    let counts := toolUseIdCounts messages
    let collected := sourcedResults 0 messages
    (∀ n, out.1[n]? = (messages[n]?).map (repairedAt messages activeToolNames n)) ∧
      (∀ n, out.2.1 n = ((messages[n]?).map (dueFrom counts activeToolNames collected n)).getD []) ∧
      out.2.2 = { statsFrom counts activeToolNames collected 0 messages stats with
        flattenedToolResults :=
          (statsFrom counts activeToolNames collected 0 messages stats).flattenedToolResults +
            (unclaimed collected (taken messages activeToolNames)).length } := by
  have uses : (messages.map withoutResults).flatMap toolUsesOf = messages.flatMap toolUsesOf := by
    simp [List.flatMap_map]
  have sameCounts : toolUseIdCounts (messages.map withoutResults) = toolUseIdCounts messages := by
    rw [toolUseIdCounts, uses, toolUseIdCounts]
  have listed := collectResults_lists 0 messages empty_lists
  rw [List.nil_append] at listed
  have paired := repairAssistants_spec (toolUseIdCounts messages) activeToolNames
    (sourcedResults 0 messages) 0 (messages.map withoutResults)
    { table := (collectResults 0 messages {}).2, stats := stats }
    (ready_of_lists listed _) (uses ▸ structured_ids_distinct messages activeToolNames)
    (fun _ _ => rfl)
  simp only [List.nil_append, takenFrom_withoutResults, statsFrom_withoutResults] at paired
  obtain ⟨texts, ready, scheduled, counted⟩ := paired
  refine ⟨?_, ?_, ?_⟩
  · intro n
    simp only [repairToolPairs, collectResults_messages, sameCounts]
    rw [archiveResults_getElem, texts, ready_archivedAt ready]
    simp only [List.getElem?_map, Option.map_map]
    rfl
  · intro n
    simp only [repairToolPairs, collectResults_messages, sameCounts]
    rw [scheduled n]
    cases place : messages[n]? <;> simp [place, dueFrom]
  · simp only [repairToolPairs, collectResults_messages, sameCounts]
    rw [archiveResults_stats, counted, ready_left ready]
    · rfl
    · intro c member
      rw [ready.results] at member
      obtain ⟨x, inside, rfl⟩ := List.mem_map.mp member
      obtain ⟨_, user, place, _⟩ := sourced_user 0 messages x.1
        (List.mem_of_getElem? (List.mem_zipIdx_iff_getElem?.mp inside))
      rw [Nat.sub_zero] at place
      simp [texts, place, withoutResults, repairMessage, isUser]

end Pass

end KiroProxy.ToolHistory

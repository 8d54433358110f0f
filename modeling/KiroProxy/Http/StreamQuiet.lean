import KiroProxy.Http.StreamLoop

/-! An operation that puts out no frames leaves the encoder alone, and any other that has seen neither
calls nor citations. -/
namespace KiroProxy.Http

open Kiro

namespace Encoder

variable {e : Encoder} {kind : BlockKind} {initial : Value}

theorem delta_output (e : Encoder) (index : Nat) (piece : Value) : (e.delta index piece).output ≠ [] :=
  List.append_ne_nil_of_right_ne_nil _ (List.cons_ne_nil _ _)

theorem closeBlock_output (e : Encoder) (index : Nat) : (e.closeBlock index).output ≠ [] :=
  List.append_ne_nil_of_right_ne_nil _ (List.cons_ne_nil _ _)

theorem textBlock_output (e : Encoder) (text : String) : (e.textBlock text).output ≠ [] := delta_output _ _ _

theorem wholeBlock_output (e : Encoder) (kind : BlockKind) (initial : Value) (pieces : List Value) :
    (e.wholeBlock kind initial pieces).output ≠ [] := closeBlock_output _ _

theorem switchTool_output (e : Encoder) (initial : Value) : (e.switchBlock .toolUse initial).1.output ≠ [] := by
  unfold switchBlock
  dsimp only
  split
  · rw [if_neg fun both => both.2 rfl]
    exact List.append_ne_nil_of_right_ne_nil _ (List.cons_ne_nil _ _)
  · exact List.append_ne_nil_of_right_ne_nil _ (List.cons_ne_nil _ _)

end Encoder

namespace ClaudeState

theorem toolInput_output {e : Encoder} (some : e.output ≠ []) (index : Nat) (id inputDelta : String) (stop : Bool) :
    (toolInput e index id inputDelta stop).output ≠ [] := by
  have written : ∀ f : Encoder, f.output = e.output → (if inputDelta ≠ "" ∧ id ∈ f.state.toolsWithInput then
      f.delta index (.object [("partial_json", .string inputDelta), ("type", .string "input_json_delta")])
      else f).output ≠ [] := by
    intro f same
    split
    · exact Encoder.delta_output _ _ _
    · rw [same]
      exact some
  have closed : ∀ f : Encoder, f.output ≠ [] →
      (if stop ∧ f.state.block = Option.some (index, BlockKind.toolUse) then f.closeBlock index else f).output ≠ [] := by
    intro f some
    split
    · exact Encoder.closeBlock_output _ _
    · exact some
  apply closed
  apply written
  split <;> rfl

theorem thinking_output {s : ClaudeState} {content : String} {signature : Option String}
    (quiet : (thinking s.begin content signature).output = []) : content = "" ∧ signature = none := by
  by_contra speaks
  rw [thinking, if_neg speaks] at quiet
  dsimp only at quiet
  cases signature with
  | some signature => exact Encoder.delta_output _ _ _ quiet
  | none =>
    rw [if_neg fun blank => speaks ⟨blank, rfl⟩] at quiet
    exact Encoder.delta_output _ _ _ quiet

end ClaudeState

theorem references_nil {citations : List KiroCitation} (none_shown : kiroVisibleReferences citations = "") :
    citations = [] := by
  cases citations with
  | nil => rfl
  | cons citation rest =>
    exfalso
    have some : ((insertFresh kiroCitationKey [] (citation :: rest)).2.take 20).isEmpty = false := by
      rw [insertFresh, if_neg List.not_mem_nil]
      rfl
    rw [kiroVisibleReferences, formatVisibleReferences, some] at none_shown
    have lengths := congrArg String.length none_shown
    simp at lengths

theorem insertFresh_nil {α : Type} {key : α → String} {xs : List α} (none_fresh : (insertFresh key [] xs).2 = []) :
    xs = [] := by
  cases xs with
  | nil => rfl
  | cons x rest =>
    rw [insertFresh, if_neg List.not_mem_nil] at none_fresh
    cases none_fresh

theorem first_citations_shown {citations : List KiroCitation} (some : citations ≠ []) :
    kiroVisibleReferences (insertFresh kiroCitationKey [] citations).2 ≠ "" :=
  fun none_shown => some (insertFresh_nil (references_nil none_shown))

def ClaudeState.Untouched (s : ClaudeState) : Prop := s.toolIndices = [] ∧ s.emittedCitationLinks = []

def Operation.Early : Operation → Prop
  | .citations _ _ _ => False
  | operation => operation.sealed = true

namespace Encoder

theorem wholeBlock_untouched {e : Encoder} (untouched : e.state.Untouched) (kind : BlockKind) (initial : Value)
    (pieces : List Value) : (e.wholeBlock kind initial pieces).state.Untouched := by
  have told : ∀ (f : Encoder) (index : Nat), f.state.Untouched →
      (pieces.foldl (fun e piece => e.delta index piece) f).state.Untouched := by
    intro f index
    induction pieces generalizing f with
    | nil => exact id
    | cons piece rest ih => exact fun kept => ih (f.delta index piece) kept
  have switched : (e.switchBlock kind initial).1.state.Untouched := by
    have begun : e.ensureMessage.state.Untouched := by
      unfold ensureMessage
      split
      · exact untouched
      · exact untouched
    unfold switchBlock
    dsimp only
    split
    · split
      · exact begun
      · exact begun
    · exact begun
  exact told _ _ switched

end Encoder

namespace Operation

variable {s : ClaudeState} {operation : Operation}

theorem serverToolUse_untouched (untouched : s.Untouched) (emission : ClaudeServerToolEmission) (id name : String)
    (input : Value) : (s.serverToolUse emission id name input).state.Untouched := by
  unfold ClaudeState.serverToolUse
  split
  · exact untouched
  · exact Encoder.wholeBlock_untouched untouched _ _ _

def Preluding : Operation → Prop
  | compaction _ | toolSearch _ | webSearch _ _ => True
  | _ => False

theorem prelude_untouched (untouched : s.Untouched) (preluding : operation.Preluding) :
    (operation.apply s).state.Untouched := by
  cases operation with
  | event _ => cases preluding
  | citations _ _ _ => cases preluding
  | compaction content =>
    unfold apply ClaudeState.compaction
    dsimp only
    have begun : s.begin.state.Untouched := untouched
    split
    · exact Encoder.wholeBlock_untouched begun _ _ _
    · exact Encoder.wholeBlock_untouched begun _ _ _
  | toolSearch search =>
    have called := serverToolUse_untouched untouched search.emission search.id search.name search.input
    unfold apply ClaudeState.toolSearch
    dsimp only
    split
    · exact called
    · exact Encoder.wholeBlock_untouched called _ _ _
  | webSearch tryEncrypt search =>
    have called := serverToolUse_untouched untouched search.emission search.id "web_search" search.input
    unfold apply ClaudeState.webSearch
    dsimp only
    by_cases pending : search.emission = .pending
    · rw [if_pos pending]
      exact called
    · rw [if_neg pending]
      cases ClaudeState.webSearchContent tryEncrypt search with
      | none => exact called
      | some content => exact Encoder.wholeBlock_untouched called _ _ _

theorem serverToolUse_output {emission : ClaudeServerToolEmission} (called : emission ≠ .resultOnly) (id name : String)
    (input : Value) : (s.serverToolUse emission id name input).output ≠ [] := by
  rw [ClaudeState.serverToolUse, if_neg called]
  exact Encoder.wholeBlock_output _ _ _ _

theorem prelude_output (preluding : operation.Preluding) (sealing : operation.sealed = true) :
    (operation.apply s).output ≠ [] := by
  cases operation with
  | event _ => cases preluding
  | citations _ _ _ => cases preluding
  | compaction content =>
    unfold apply ClaudeState.compaction
    dsimp only
    split
    · exact Encoder.wholeBlock_output _ _ _ _
    · exact Encoder.wholeBlock_output _ _ _ _
  | toolSearch search =>
    unfold apply ClaudeState.toolSearch
    dsimp only
    by_cases pending : search.emission = .pending
    · rw [if_pos pending]
      exact serverToolUse_output (by rw [pending]; decide) _ _ _
    · rw [if_neg pending]
      exact Encoder.wholeBlock_output _ _ _ _
  | webSearch tryEncrypt search =>
    unfold apply ClaudeState.webSearch
    dsimp only
    by_cases pending : search.emission = .pending
    · rw [if_pos pending]
      exact serverToolUse_output (by rw [pending]; decide) _ _ _
    · have found : (ClaudeState.webSearchContent tryEncrypt search).isSome = true := by
        simpa [Operation.sealed, pending] using sealing
      rw [if_neg pending]
      obtain ⟨content, found⟩ := Option.isSome_iff_exists.1 found
      rw [found]
      exact Encoder.wholeBlock_output _ _ _ _

end Operation

/-! ### Silence -/

section Silence

variable (outside : Outside) (format : StreamFormat)

def Silent (operation : Operation) : Prop := ∀ s, encode outside format s operation = (s, [])

variable {outside format} {s : StreamState} {operation : Operation} {operations : List Operation}

theorem event_silent (untouched : s.Untouched) {event : KiroEvent}
    (quiet : (encode outside format s (.event event)).2 = []) : Silent outside format (.event event) := by
  obtain ⟨calls, links⟩ := untouched
  rcases format with ⟨protocol, created, model, thinkingFormat, tools⟩
  cases protocol with
  | claude =>
    have quiet : (s.toClaudeState.event event).output = [] := List.map_eq_nil_iff.1 quiet
    cases event with
    | assistantResponse content => exact absurd quiet (Encoder.textBlock_output _ _)
    | reasoning content signature redacted =>
      cases redacted with
      | some data => exact absurd quiet (Encoder.wholeBlock_output _ _ _ _)
      | none =>
        obtain ⟨rfl, rfl⟩ := ClaudeState.thinking_output quiet
        exact fun s => rfl
    | citations citations =>
      have none_fresh : citations = [] := by
        by_contra some
        rw [ClaudeState.event, links] at quiet
        dsimp only at quiet
        rw [if_neg (first_citations_shown some)] at quiet
        exact Encoder.textBlock_output _ _ quiet
      rw [none_fresh]
      exact fun s => rfl
    | toolUse id name inputDelta stop =>
      have opened : (ClaudeState.toolBlock s.toClaudeState.begin id name).1.output ≠ [] := by
        unfold ClaudeState.toolBlock
        rw [show s.toClaudeState.begin.state.toolIndices.lookup id = none by rw [ClaudeState.begin, calls]; rfl]
        exact Encoder.switchTool_output _ _
      exact absurd quiet (ClaudeState.toolInput_output opened _ _ _ _)
    | messageMetadata | usage | other | error => exact fun s => rfl
  | openAi =>
    have quiet : (openaiEvent outside ⟨.openAi, created, model, thinkingFormat, tools⟩ s event).2 = [] := quiet
    cases event with
    | assistantResponse | reasoning | toolUse => cases quiet
    | citations citations =>
      have none_fresh : citations = [] := by
        by_contra some
        rw [openaiEvent, links] at quiet
        dsimp only at quiet
        rw [if_neg (first_citations_shown some)] at quiet
        cases quiet
      rw [none_fresh]
      exact fun s => rfl
    | messageMetadata | usage | other | error => exact fun s => rfl

theorem early_silent (untouched : s.Untouched) (early : operation.Early)
    (quiet : (encode outside format s operation).2 = []) : Silent outside format operation := by
  cases operation with
  | event event => exact event_silent untouched quiet
  | citations _ _ _ => cases early
  | compaction | toolSearch | webSearch =>
    rcases format with ⟨protocol, created, model, thinkingFormat, tools⟩
    cases protocol with
    | openAi => exact fun s => rfl
    | claude => exact absurd (List.map_eq_nil_iff.1 quiet) (Operation.prelude_output trivial early)

theorem preluding_seen (claude : format.protocol = .claude) (preluding : operation.Preluding)
    (sealing : operation.sealed = true) : (encode outside format s operation).2 ≠ [] := by
  have encoded : (encode outside format s operation).2 = (operation.apply s.toClaudeState).output.map .claude := by
    unfold encode
    rw [claude]
    cases operation with
    | event _ => cases preluding
    | _ => rfl
  rw [encoded]
  exact fun unseen => Operation.prelude_output preluding sealing (List.map_eq_nil_iff.1 unseen)

theorem encodeAll_append (first second : List Operation) :
    encodeAll outside format s (first ++ second) =
      let next := encodeAll outside format s first
      ((encodeAll outside format next.1 second).1, next.2 ++ (encodeAll outside format next.1 second).2) := by
  induction first generalizing s with
  | nil => rfl
  | cons operation rest ih =>
    simp only [List.cons_append, encodeAll, ih, List.append_assoc]

theorem encodeAll_silent (silent : ∀ operation ∈ operations, Silent outside format operation) (s : StreamState) :
    encodeAll outside format s operations = (s, []) := by
  induction operations with
  | nil => rfl
  | cons operation rest ih =>
    have later := ih fun operation member => silent operation (List.mem_cons_of_mem _ member)
    simp only [encodeAll, silent operation List.mem_cons_self s, later, List.append_nil]

theorem quiet_silent (untouched : s.Untouched) (early : ∀ operation ∈ operations, operation.Early)
    (quiet : (encodeAll outside format s operations).2 = []) : ∀ operation ∈ operations, Silent outside format operation := by
  induction operations with
  | nil => exact fun _ member => absurd member List.not_mem_nil
  | cons operation rest ih =>
    simp only [encodeAll, List.append_eq_nil_iff] at quiet
    have first := early_silent untouched (early operation List.mem_cons_self) quiet.1
    rw [first s] at quiet
    rintro other (_ | ⟨_, member⟩)
    · exact first
    · exact ih (fun operation member => early operation (List.mem_cons_of_mem _ member)) quiet.2 other member

theorem preludes_untouched (untouched : s.Untouched) (preluding : ∀ operation ∈ operations, operation.Preluding) :
    (encodeAll outside format s operations).1.Untouched := by
  induction operations generalizing s with
  | nil => exact untouched
  | cons operation rest ih =>
    have first := preluding operation List.mem_cons_self
    apply ih
    · rcases format with ⟨protocol, created, model, thinkingFormat, tools⟩
      cases operation with
      | event _ => cases first
      | citations _ _ _ => cases first
      | compaction | toolSearch | webSearch =>
        cases protocol with
        | openAi => exact untouched
        | claude => exact Operation.prelude_untouched untouched first
    · exact fun operation member => preluding operation (List.mem_cons_of_mem _ member)

end Silence

end KiroProxy.Http

import KiroProxy.Translate.Truncation

/-! The context limit of the resolved model: the history is truncated where the client asked for it, and the
payload is replaced only by one that fits. -/
namespace KiroProxy.ContextLimit

open Tokens ToolHistory

/-- `truncate_context_if_requested`: `requested` is the client's wish, `maximum` the limit of the model. -/
def truncateContextIfRequested (truncate : KiroPayload → Nat → Except String (KiroPayload × Nat)) (requested : Bool)
    (maximum : Nat) (payload : KiroPayload) (inputTokens : Nat) : Except String (KiroPayload × Nat) :=
  if inputTokens ≤ maximum ∨ ¬ requested then .ok (payload, inputTokens)
  else do
    let (candidate, tokens) ← truncate payload maximum
    .ok (if tokens ≤ maximum then candidate else payload, tokens)

/-- `check_context_limit` -/
def checkContextLimit (maximum inputTokens : Nat) : Bool := inputTokens ≤ maximum

theorem truncateContextIfRequested_fits {truncate : KiroPayload → Nat → Except String (KiroPayload × Nat)}
    {requested : Bool} {maximum inputTokens counted : Nat} {payload after : KiroPayload}
    (ran : truncateContextIfRequested truncate requested maximum payload inputTokens = .ok (after, counted)) :
    after = payload ∨ truncate payload maximum = .ok (after, counted) ∧ counted ≤ maximum := by
  unfold truncateContextIfRequested at ran
  split at ran
  case isTrue =>
    cases ran
    exact .inl rfl
  case isFalse =>
    cases made : truncate payload maximum with
    | error message =>
      rw [made] at ran
      cases ran
    | ok result =>
      rw [made] at ran
      obtain ⟨candidate, tokens⟩ := result
      have same : (if tokens ≤ maximum then candidate else payload, tokens) = (after, counted) := Except.ok.inj ran
      obtain ⟨rfl, rfl⟩ := Prod.mk.inj same
      by_cases fits : tokens ≤ maximum
      · exact .inr ⟨by rw [if_pos fits], fits⟩
      · exact .inl (if_neg fits)

/-- Truncation removes the fewest turns that it must, tells the number of what is left and keeps the contract of
the tool history; a payload is replaced by its result only where that fits. -/
theorem truncation_whole_and_exact (tokenizer : Tokenizer) (payload : KiroPayload) (maximum : Nat)
    (exact : payloadTokens tokenizer payload < 2 ^ 64) :
    (∃ count, Truncated tokenizer payload (truncateKiroHistory tokenizer payload maximum).1 maximum
      (truncateKiroHistory tokenizer payload maximum).2 count) ∧
    (PlainPairs (payload.conversationState.history.take (protectedHistoryLen payload)) →
      validateKiroToolHistory payload = .ok () →
      validateKiroToolHistory (truncateKiroHistory tokenizer payload maximum).1 = .ok ()) ∧
    ∀ requested inputTokens after counted, truncateContextIfRequested
        (fun payload maximum => .ok (truncateKiroHistory tokenizer payload maximum)) requested maximum payload
        inputTokens = .ok (after, counted) →
      after = payload ∨ after = (truncateKiroHistory tokenizer payload maximum).1 ∧
        estimateKiroPayload tokenizer after ≤ maximum := by
  obtain ⟨count, truncated⟩ := truncateKiroHistory_truncated tokenizer payload maximum exact
  refine ⟨⟨count, truncated⟩, fun pairs accepted => truncated.accepted pairs accepted, ?_⟩
  intro requested inputTokens after counted ran
  refine (truncateContextIfRequested_fits ran).imp_right fun ⟨made, fits⟩ => ?_
  have same : truncateKiroHistory tokenizer payload maximum = (after, counted) := Except.ok.inj made
  have told := truncated.counted
  rw [same] at told ⊢
  exact ⟨rfl, told ▸ fits⟩

theorem truncation_whole_and_exact_twoTurns :
    (∃ count, Truncated characters twoTurns (truncateKiroHistory characters twoTurns 70).1 70
      (truncateKiroHistory characters twoTurns 70).2 count) ∧
    validateKiroToolHistory (truncateKiroHistory characters twoTurns 70).1 = .ok () := by
  have small : payloadTokens characters twoTurns < 2 ^ 64 := by decide
  have accepted : validateKiroToolHistory twoTurns = .ok () := by
    have ok : (validateKiroToolHistory twoTurns).toBool = true := by decide
    cases checked : validateKiroToolHistory twoTurns with
    | error message =>
      rw [checked] at ok
      cases ok
    | ok => rfl
  obtain ⟨truncated, kept, -⟩ := truncation_whole_and_exact characters twoTurns 70 small
  exact ⟨truncated, kept (.pair _ _ rfl .nil) accepted⟩

end KiroProxy.ContextLimit

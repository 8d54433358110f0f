import KiroProxy.Lib.Run
import KiroProxy.Translate.CompactionBoundary

/-! The checkpoints kept for clients that do not send a compaction back. Instants are milliseconds,
a hash map is the list of its entries in some order, and the digest of messages is a parameter. -/
namespace KiroProxy.CompactionReplay

open Run Claude

def replayTtl : Nat := 60 * 60 * 1000

def maxReplayEntries : Nat := 256

def maxCheckpointBytes : Nat := 128 * 1024

/-- `digest_messages`; there is none where the messages cannot be written as JSON. -/
abbrev MessageDigest := List ClaudeMessage → Option (Vector UInt8 32)

structure CompactionReplaySource where
  messageCount : Nat
  digest : Vector UInt8 32
  deriving DecidableEq

def capture (digest : MessageDigest) (messages : List ClaudeMessage) : Option CompactionReplaySource :=
  (digest messages).map fun digest => { messageCount := messages.length, digest }

structure CompactionReplayApplied where
  sourceMessageCount : Nat
  incomingMessageCount : Nat
  checkpointBytes : Nat
  deriving DecidableEq

structure Replay where
  sourceMessageCount : Nat
  incomingMessageCount : Nat
  checkpoint : String

structure ReplayEntry where
  source : CompactionReplaySource
  checkpoint : String
  expiresAt : Nat
  lastUsedAt : Nat

abbrev Entries := List (String × ReplayEntry)

def hasCompletedCompaction (content : Value) : Bool := content.blocks.any completedCompaction

def boundaryBlock (checkpoint : String) : Value :=
  .object [("content", .string checkpoint), ("type", .string "compaction")]

def prependCompaction (content : Value) (checkpoint : String) : Option Value :=
  match content with
  | .array blocks => some (.array (boundaryBlock checkpoint :: blocks))
  | .string text => some (.array (if text = "" then [boundaryBlock checkpoint]
      else [boundaryBlock checkpoint, .object [("text", .string text), ("type", .string "text")]]))
  | _ => none

/-- The messages with the checkpoint, or none where they stay as they are. -/
def Replay.applyTo (replay : Replay) (messages : List ClaudeMessage) :
    Option (List ClaudeMessage × CompactionReplayApplied) := do
  let assistant ← messages[replay.sourceMessageCount]?
  if assistant.role ≠ "assistant" || hasCompletedCompaction assistant.content then none
  let content ← prependCompaction assistant.content replay.checkpoint
  return (messages.set replay.sourceMessageCount { assistant with content },
    { sourceMessageCount := replay.sourceMessageCount
      incomingMessageCount := replay.incomingMessageCount
      checkpointBytes := replay.checkpoint.utf8ByteSize })

namespace Entries

def pruneExpired (now : Nat) (entries : Entries) : Entries := entries.filter fun entry => now < entry.2.expiresAt

def remove (scope : String) (entries : Entries) : Entries := entries.filter fun entry => entry.1 ≠ scope

/-- One of the entries used least recently; `tie` says which one the order of the map gives. -/
def oldest (tie : String) (entries : Entries) : Option String :=
  let least := entries.filter fun entry => entries.all fun other => entry.2.lastUsedAt ≤ other.2.lastUsedAt
  if least.any (·.1 = tie) then some tie else least.head?.map (·.1)

/-- Entries are removed until few enough are left; each turn removes one at least. -/
def evict (ties : Nat → String) : Nat → Entries → Entries
  | 0, entries => entries
  | turns + 1, entries =>
    if maxReplayEntries < entries.length then
      match oldest (ties turns) entries with
      | some scope => evict ties turns (remove scope entries)
      | none => entries
    else entries

def keepable (checkpoint : String) : Bool := checkpoint ≠ "" && checkpoint.utf8ByteSize ≤ maxCheckpointBytes

def remember (now : Nat) (ties : Nat → String) (scope : String) (source : CompactionReplaySource) (checkpoint : String)
    (entries : Entries) : Entries × Bool :=
  if keepable checkpoint then
    let entry := { source, checkpoint, expiresAt := now + replayTtl, lastUsedAt := now }
    let entries := remove scope (pruneExpired now entries) ++ [(scope, entry)]
    (evict ties entries.length entries, true)
  else (entries, false)

def refresh (now : Nat) (scope : String) (digest : Vector UInt8 32) (entries : Entries) : Entries :=
  entries.map fun entry => if entry.1 = scope ∧ entry.2.source.digest = digest then
    (entry.1, { entry.2 with lastUsedAt := now, expiresAt := now + replayTtl }) else entry

def matching (digest : MessageDigest) (entry : ReplayEntry) (messages : List ClaudeMessage) : Option Replay := do
  if messages.length ≤ entry.source.messageCount then none
  let assistant ← messages[entry.source.messageCount]?
  if assistant.role ≠ "assistant" || hasCompletedCompaction assistant.content then none
  let found ← digest (messages.take entry.source.messageCount)
  if found ≠ entry.source.digest then none
  return { sourceMessageCount := entry.source.messageCount
           incomingMessageCount := messages.length
           checkpoint := entry.checkpoint }

def find (digest : MessageDigest) (now : Nat) (scope : String) (messages : List ClaudeMessage) (entries : Entries) :
    Entries × Option Replay :=
  let entries := pruneExpired now entries
  match entries.lookup scope with
  | none => (entries, none)
  | some entry => match matching digest entry messages with
    | none => (entries, none)
    | some replay => (refresh now scope entry.source.digest entries, some replay)

def apply (digest : MessageDigest) (now : Nat) (scope : String) (messages : List ClaudeMessage) (entries : Entries) :
    Entries × Option (List ClaudeMessage × CompactionReplayApplied) :=
  let (entries, replay) := find digest now scope messages entries
  (entries, replay.bind fun replay => replay.applyTo messages)

/-- The messages after `apply`, which changes them in place. -/
def messagesAfter (digest : MessageDigest) (now : Nat) (scope : String) (messages : List ClaudeMessage)
    (entries : Entries) : List ClaudeMessage :=
  match (apply digest now scope messages entries).2 with
  | some (changed, _) => changed
  | none => messages

end Entries

inductive Call where
  | remember (now : Nat) (ties : Nat → String) (scope : String) (source : CompactionReplaySource) (checkpoint : String)
  | find (now : Nat) (scope : String) (messages : List ClaudeMessage)

def step (digest : MessageDigest) (entries : Entries) : Call → Entries
  | .remember now ties scope source checkpoint => (entries.remember now ties scope source checkpoint).1
  | .find now scope messages => (entries.find digest now scope messages).1

def reached (digest : MessageDigest) (calls : List Call) : Entries := run (step digest) [] calls

def lastRemembered (calls : List Call) (scope : String) : Option (CompactionReplaySource × String) :=
  calls.foldl (fun last call => match call with
    | .remember _ _ other source checkpoint =>
      if other = scope ∧ Entries.keepable checkpoint = true then some (source, checkpoint) else last
    | .find .. => last) none

/-! ### What the tracker holds -/

namespace Entries

def Held (last : String → Option (CompactionReplaySource × String)) (entries : Entries) : Prop :=
  ∀ entry ∈ entries, last entry.1 = some (entry.2.source, entry.2.checkpoint) ∧ entry.2.checkpoint ≠ ""

variable {last : String → Option (CompactionReplaySource × String)} {entries : Entries}

theorem Held.sublist {fewer : Entries} (held : Held last entries) (sublist : fewer.Sublist entries) :
    Held last fewer := fun entry member =>
  held entry (sublist.subset member)

theorem evict_sublist (ties : Nat → String) (turns : Nat) (entries : Entries) :
    (evict ties turns entries).Sublist entries := by
  induction turns generalizing entries with
  | zero => exact List.Sublist.refl _
  | succ turns ih =>
    rw [evict]
    split
    · split
      · exact (ih _).trans List.filter_sublist
      · exact List.Sublist.refl _
    · exact List.Sublist.refl _

theorem remember_held (held : Held last entries) (now : Nat) (ties : Nat → String) (scope : String)
    (source : CompactionReplaySource) (checkpoint : String) :
    Held (fun other => if scope = other ∧ keepable checkpoint = true then some (source, checkpoint) else last other)
      (entries.remember now ties scope source checkpoint).1 := by
  unfold remember
  split
  case isTrue kept =>
    refine Held.sublist ?_ (evict_sublist ties _ _)
    intro entry member
    obtain old | new := List.mem_append.1 member
    · obtain ⟨inside, other⟩ := List.mem_filter.1 old
      have elsewhere : ¬ scope = entry.1 := fun same => by simp [same] at other
      dsimp only
      rw [if_neg fun both => elsewhere both.1]
      exact held entry (List.mem_of_mem_filter inside)
    · obtain rfl := List.mem_singleton.1 new
      refine ⟨if_pos ⟨rfl, kept⟩, ?_⟩
      simp only [keepable, Bool.and_eq_true, decide_eq_true_eq] at kept
      exact kept.1
  case isFalse refused =>
    have same : (fun other => if scope = other ∧ keepable checkpoint = true then some (source, checkpoint)
        else last other) = last := funext fun other => if_neg fun both => refused both.2
    rw [same]
    exact held

theorem find_held (held : Held last entries) (digest : MessageDigest) (now : Nat) (scope : String)
    (messages : List ClaudeMessage) :
    Held last (entries.find digest now scope messages).1 := by
  have pruned : Held last (pruneExpired now entries) := held.sublist List.filter_sublist
  unfold find
  dsimp only
  split
  · exact pruned
  · split
    · exact pruned
    · intro entry member
      obtain ⟨before, inside, rfl⟩ := List.mem_map.1 member
      split <;> exact pruned before inside

end Entries

theorem reached_held (digest : MessageDigest) (calls : List Call) :
    Entries.Held (lastRemembered calls) (reached digest calls) := by
  induction calls using List.reverseRecOn with
  | nil => exact fun entry member => absurd member List.not_mem_nil
  | append_singleton calls call ih =>
    rw [reached, run_append]
    cases call with
    | remember now ties scope source checkpoint =>
      have last : lastRemembered (calls ++ [.remember now ties scope source checkpoint]) = fun other =>
          if scope = other ∧ Entries.keepable checkpoint = true then some (source, checkpoint)
          else lastRemembered calls other := by
        funext other
        simp [lastRemembered]
      rw [last]
      exact Entries.remember_held ih now ties scope source checkpoint
    | find now scope messages =>
      have last : lastRemembered (calls ++ [.find now scope messages]) = lastRemembered calls := by
        funext other
        simp [lastRemembered]
      rw [last]
      exact Entries.find_held ih digest now scope messages

/-! ### Where a checkpoint goes back -/

/-- The assistant's message that answered the source: text or blocks, and no completed compaction. -/
structure Answer (message : ClaudeMessage) : Prop where
  role : message.role = "assistant"
  shape : (∃ text, message.content = .string text) ∨ ∃ blocks, message.content = .array blocks
  uncompacted : hasCompletedCompaction message.content = false

def ownBlocks (content : Value) : List Value :=
  match content with
  | .array blocks => blocks.filter fun block => !noopCompaction block
  | .string text => if text = "" then [] else [.object [("text", .string text), ("type", .string "text")]]
  | _ => []

/-- The content behind the checkpoint, before failed compactions are taken out. -/
def givenBlocks (content : Value) : List Value :=
  match content with
  | .array blocks => blocks
  | .string text => if text = "" then [] else [.object [("text", .string text), ("type", .string "text")]]
  | _ => []

variable {checkpoint : String} {message : ClaudeMessage} {rest : List ClaudeMessage}

theorem prependCompaction_some {content changed : Value}
    (prepended : prependCompaction content checkpoint = some changed) :
    changed = .array (boundaryBlock checkpoint :: givenBlocks content) ∧
      ((∃ text, content = .string text) ∨ ∃ blocks, content = .array blocks) := by
  unfold prependCompaction at prepended
  split at prepended
  case h_1 blocks => exact ⟨(Option.some.inj prepended).symm, .inr ⟨blocks, rfl⟩⟩
  case h_2 text =>
    refine ⟨?_, .inl ⟨text, rfl⟩⟩
    rw [← Option.some.inj prepended, givenBlocks]
    split <;> rfl
  case h_3 => cases prepended

theorem prependCompaction_answer (answer : Answer message) (checkpoint : String) :
    prependCompaction message.content checkpoint =
      some (.array (boundaryBlock checkpoint :: givenBlocks message.content)) := by
  obtain ⟨text, content⟩ | ⟨blocks, content⟩ := answer.shape
  · rw [content, prependCompaction, givenBlocks]
    split <;> rfl
  · rw [content]
    rfl

theorem getElem?_source (source : List ClaudeMessage) (message : ClaudeMessage) (rest : List ClaudeMessage) :
    (source ++ message :: rest)[source.length]? = some message := by
  rw [List.getElem?_append_right (Nat.le_refl _), Nat.sub_self, List.getElem?_cons_zero]

section Apply

variable {digest : MessageDigest} {entry : ReplayEntry} {source messages : List ClaudeMessage}

theorem matching_source {replay : Replay} (counted : entry.source.messageCount = source.length)
    (apart : ∀ front, front <+: messages → digest front = some entry.source.digest → front = source)
    (found : Entries.matching digest entry messages = some replay) :
    replay = { sourceMessageCount := source.length, incomingMessageCount := messages.length, checkpoint := entry.checkpoint } ∧
      ∃ message rest, messages = source ++ message :: rest ∧ message.role = "assistant" ∧
        hasCompletedCompaction message.content = false := by
  unfold Entries.matching at found
  rw [counted] at found
  split at found
  case isTrue => cases found
  case isFalse longer =>
    obtain ⟨message, there, further⟩ := Option.bind_eq_some_iff.1 found
    split at further
    case isTrue => cases further
    case isFalse fits =>
      obtain ⟨digested, same, last⟩ := Option.bind_eq_some_iff.1 further
      split at last
      case isTrue => cases last
      case isFalse equal =>
        rw [Decidable.not_not] at equal
        have front := apart _ (List.take_prefix _ _) (same.trans (congrArg some equal))
        refine ⟨(Option.some.inj last).symm, message, messages.drop (source.length + 1), ?_, ?_, ?_⟩
        · obtain ⟨bound, at_place⟩ := List.getElem?_eq_some_iff.1 there
          rw [← at_place, List.cons_getElem_drop_succ]
          nth_rewrite 1 [← front]
          exact (List.take_append_drop _ _).symm
        · simp only [Bool.or_eq_true, decide_eq_true_eq, not_or, Decidable.not_not] at fits
          exact fits.1
        · simp only [Bool.or_eq_true, decide_eq_true_eq, not_or, Bool.not_eq_true] at fits
          exact fits.2

theorem matching_answer (answer : Answer message) (counted : entry.source.messageCount = source.length)
    (digested : digest source = some entry.source.digest) (whole : messages = source ++ message :: rest) :
    Entries.matching digest entry messages = some
      { sourceMessageCount := source.length, incomingMessageCount := messages.length, checkpoint := entry.checkpoint } := by
  have longer : ¬ (source ++ message :: rest).length ≤ source.length := by
    rw [List.length_append, List.length_cons]
    omega
  subst whole
  unfold Entries.matching
  rw [counted, if_neg longer, getElem?_source]
  simp [answer.role, answer.uncompacted, digested]

theorem applyTo_answer (replay : Replay) (source rest : List ClaudeMessage) (answer : Answer message)
    (counted : replay.sourceMessageCount = source.length) :
    (replay.applyTo (source ++ message :: rest)).map (·.1) =
      some (source ++ { message with content := .array (boundaryBlock replay.checkpoint :: givenBlocks message.content) } ::
        rest) := by
  unfold Replay.applyTo
  rw [counted, getElem?_source]
  simp [answer.role, answer.uncompacted, prependCompaction_answer answer]

theorem applyTo_some {replay : Replay} {changed : List ClaudeMessage × CompactionReplayApplied}
    (counted : replay.sourceMessageCount = source.length)
    (applied : replay.applyTo (source ++ message :: rest) = some changed) : Answer message := by
  unfold Replay.applyTo at applied
  rw [counted, getElem?_source] at applied
  rw [Option.bind_eq_bind, Option.bind_some] at applied
  split at applied
  case isTrue => cases applied
  case isFalse fits =>
    obtain ⟨content, prepended, _⟩ := Option.bind_eq_some_iff.1 applied
    simp only [Bool.or_eq_true, decide_eq_true_eq, not_or, Decidable.not_not, Bool.not_eq_true] at fits
    exact ⟨fits.1, (prependCompaction_some prepended).2, fits.2⟩

end Apply

theorem ownBlocks_eq (content : Value) :
    (givenBlocks content).filter (fun block => !noopCompaction block) = ownBlocks content := by
  unfold givenBlocks ownBlocks
  split
  · rfl
  · split
    · rfl
    · rfl
  · rfl

theorem boundaryBlock_completed (filled : checkpoint ≠ "") :
    completedCompaction (boundaryBlock checkpoint) = true := by
  have kind : (boundaryBlock checkpoint).kind = some "compaction" := rfl
  have content : (boundaryBlock checkpoint).getStr "content" = some checkpoint := rfl
  simp [completedCompaction, kind, content, filled]

theorem normalize_replayed (request : ClaudeRequest) {source : List ClaudeMessage} (filled : checkpoint ≠ "")
    (answer : Answer message) (others : ∀ later ∈ rest, hasCompletedCompaction later.content = false) :
    (normalizeCompactionBoundary { request with messages := source ++
      { message with content := .array (boundaryBlock checkpoint :: givenBlocks message.content) } :: rest }).1.messages =
      { message with content := .array (boundaryBlock checkpoint :: ownBlocks message.content) } ::
        (rest.filter fun message => !emptied message).map stripped := by
  have completed := boundaryBlock_completed filled
  have unfinished : ∀ block ∈ givenBlocks message.content, completedCompaction block = false := by
    intro block member
    obtain ⟨text, content⟩ | ⟨blocks, content⟩ := answer.shape
    · rw [content, givenBlocks] at member
      split at member
      · cases member
      · rw [List.mem_singleton.1 member]
        rfl
    · have none := answer.uncompacted
      rw [content, hasCompletedCompaction, List.any_eq_false] at none
      rw [content] at member
      simpa using none block member
  have last := compactionBoundary_last source rest
    { message with content := .array (boundaryBlock checkpoint :: givenBlocks message.content) } answer.role (completedIndex_front completed unfinished) fun later member =>
      completedIndex_none.2 fun block inside => by
        have none := others later member
        rw [hasCompletedCompaction, List.any_eq_false] at none
        simpa using none block inside
  have kept : withoutNoops { message with content := .array (boundaryBlock checkpoint :: givenBlocks message.content) } =
      some { message with content := .array (boundaryBlock checkpoint :: ownBlocks message.content) } := by
    have stays := noop_not_completed completed
    simp [withoutNoops, answer.role, stays, ownBlocks_eq]
  unfold normalizeCompactionBoundary applyBoundary
  simp only [last, List.drop_left, List.modifyHead_cons, dropBlocks, List.drop_zero]
  rw [List.filterMap_cons_some kept, filterMap_withoutNoops]

/-- A checkpoint that the tracker still holds for a source goes into exactly the requests that
continue the source with an assistant's answer, and the normalizer then leaves the answer behind
the checkpoint and what followed it. -/
theorem replay_restores (digest : MessageDigest) (calls : List Call) (now : Nat) (scope : String)
    (source messages : List ClaudeMessage) (checkpoint : String) {captured : CompactionReplaySource}
    (capturing : capture digest source = some captured)
    (remembered : lastRemembered calls scope = some (captured, checkpoint))
    (live : (((reached digest calls).pruneExpired now).lookup scope).isSome)
    (apart : ∀ front, front <+: messages → digest front = digest source → front = source) :
    ((reached digest calls).messagesAfter digest now scope messages ≠ messages ↔
      ∃ message rest, messages = source ++ message :: rest ∧ Answer message) ∧
    ∀ (request : ClaudeRequest) message rest, messages = source ++ message :: rest → Answer message →
      (∀ later ∈ rest, hasCompletedCompaction later.content = false) →
      (normalizeCompactionBoundary { request with
        messages := (reached digest calls).messagesAfter digest now scope messages }).1.messages =
        { message with content := .array (boundaryBlock checkpoint :: ownBlocks message.content) } ::
          (rest.filter fun message => !emptied message).map stripped := by
  obtain ⟨entry, found⟩ := Option.isSome_iff_exists.1 live
  have member : (scope, entry) ∈ reached digest calls := by
    obtain ⟨front, back, same, -⟩ := List.lookup_eq_some_iff.1 found
    refine List.mem_of_mem_filter (p := fun entry => now < entry.2.expiresAt) ?_
    rw [Entries.pruneExpired] at same
    simp [same]
  obtain ⟨last, filled⟩ := reached_held digest calls (scope, entry) member
  rw [remembered] at last
  obtain ⟨rfl, rfl⟩ := Prod.mk.inj (Option.some.inj last)
  obtain ⟨digested, made, same⟩ := Option.map_eq_some_iff.1 capturing
  have counted : entry.source.messageCount = source.length := by rw [← same]
  have sourced : digest source = some entry.source.digest := by rw [made, ← same]
  have after : ∀ message rest, messages = source ++ message :: rest → Answer message →
      (reached digest calls).messagesAfter digest now scope messages = source ++
        { message with content := .array (boundaryBlock entry.checkpoint :: givenBlocks message.content) } :: rest := by
    intro message rest whole answer
    have matched := matching_answer answer counted sourced whole
    have applied := applyTo_answer ⟨source.length, messages.length, entry.checkpoint⟩ source rest answer rfl
    obtain ⟨changed, into, first⟩ := Option.map_eq_some_iff.1 applied
    rw [← whole] at into
    simp only [Entries.messagesAfter, Entries.apply, Entries.find, found, matched, Option.bind_some, into]
    exact first
  refine ⟨⟨fun changed => ?_, ?_⟩, fun request message rest whole answer others => ?_⟩
  · cases matched : Entries.matching digest entry messages with
    | none =>
      refine absurd ?_ changed
      simp only [Entries.messagesAfter, Entries.apply, Entries.find, found, matched, Option.bind_none]
    | some replay =>
      have apart' : ∀ front, front <+: messages → digest front = some entry.source.digest → front = source :=
        fun front inside equal => apart front inside (equal.trans sourced.symm)
      obtain ⟨rfl, message, rest, whole, -, -⟩ := matching_source counted apart' matched
      refine ⟨message, rest, whole, ?_⟩
      cases applied : Replay.applyTo ⟨source.length, messages.length, entry.checkpoint⟩ messages with
      | none =>
        refine absurd ?_ changed
        simp only [Entries.messagesAfter, Entries.apply, Entries.find, found, matched, Option.bind_some, applied]
      | some outcome =>
        rw [whole] at applied
        exact applyTo_some rfl applied
  · rintro ⟨message, rest, whole, answer⟩ same
    rw [after message rest whole answer, whole, List.append_cancel_left_eq, List.cons.injEq] at same
    have contents := congrArg ClaudeMessage.content same.1
    obtain ⟨text, content⟩ | ⟨blocks, content⟩ := answer.shape
    · rw [content] at contents
      cases contents
    · rw [content] at contents
      exact absurd (congrArg List.length (Value.array.inj contents)) (by simp [givenBlocks])
  · rw [after message rest whole answer]
    exact normalize_replayed request filled answer others

def sampleDigest : MessageDigest := fun messages => some (Vector.replicate 32 (UInt8.ofNat messages.length))

def sampleSource : List ClaudeMessage := [{ role := "user", content := .string "Old." }]

def sampleAnswer : ClaudeMessage := { role := "assistant", content := .string "Done." }

def sampleRest : List ClaudeMessage :=
  [{ role := "assistant", content := .array [.object [("content", .null), ("type", .string "compaction")]] },
   { role := "user", content := .string "Go on." }]

def sampleMessages : List ClaudeMessage := sampleSource ++ sampleAnswer :: sampleRest

def sampleCaptured : CompactionReplaySource := { messageCount := 1, digest := Vector.replicate 32 1 }

def sampleCalls : List Call := [.remember 0 (fun _ => "") "s" sampleCaptured "Summary."]

theorem sampleAnswer_answer : Answer sampleAnswer := ⟨rfl, .inl ⟨_, rfl⟩, rfl⟩

theorem sampleDigest_apart : ∀ front, front <+: sampleMessages → sampleDigest front = sampleDigest sampleSource →
    front = sampleSource := by
  intro front inside same
  have few : front.length ≤ 4 := inside.length_le
  have bytes := congrArg (fun digest => (Vector.toList digest).head?) (Option.some.inj same)
  have sized : UInt8.ofNat front.length = UInt8.ofNat 1 := by simpa [sampleSource] using bytes
  have modulo := congrArg UInt8.toNat sized
  simp only [UInt8.toNat_ofNat'] at modulo
  have equal : front.length = sampleSource.length := by
    change front.length = 1
    omega
  have source : sampleSource <+: sampleMessages := List.prefix_append _ _
  exact (List.prefix_of_prefix_length_le inside source equal.le).eq_of_length equal

theorem replay_restores_sample :
    (reached sampleDigest sampleCalls).messagesAfter sampleDigest 5 "s" sampleMessages ≠ sampleMessages ∧
    (normalizeCompactionBoundary
      { messages := (reached sampleDigest sampleCalls).messagesAfter sampleDigest 5 "s" sampleMessages }).1.messages =
      { sampleAnswer with content := .array [boundaryBlock "Summary.", .object
        [("text", .string "Done."), ("type", .string "text")]] } :: [{ role := "user", content := .string "Go on." }] := by
  obtain ⟨exactly, restored⟩ := replay_restores sampleDigest sampleCalls 5 "s" sampleSource sampleMessages "Summary."
    (show capture sampleDigest sampleSource = some sampleCaptured from rfl) (by decide) (by decide) sampleDigest_apart
  refine ⟨exactly.2 ⟨sampleAnswer, sampleRest, rfl, sampleAnswer_answer⟩, ?_⟩
  rw [restored { messages := [] } sampleAnswer sampleRest rfl sampleAnswer_answer (by decide)]
  rfl

/-- The assistant's message of a failed compaction is lost. -/
theorem message_lost : sampleMessages = sampleSource ++ sampleAnswer :: sampleRest ∧ Answer sampleAnswer ∧
    lastRemembered sampleCalls "s" = some (sampleCaptured, "Summary.") ∧
    capture sampleDigest sampleSource = some sampleCaptured ∧
    (∀ later ∈ sampleRest, hasCompletedCompaction later.content = false) ∧
    (normalizeCompactionBoundary
      { messages := (reached sampleDigest sampleCalls).messagesAfter sampleDigest 5 "s" sampleMessages }).1.messages.map
      (·.role) = ["assistant", "user"] ∧
    sampleRest.map (·.role) = ["assistant", "user"] := by
  refine ⟨rfl, sampleAnswer_answer, by decide, rfl, by decide, ?_, rfl⟩
  decide

end KiroProxy.CompactionReplay

import KiroProxy.Translate.ToolHistoryRepair
import KiroProxy.Translate.Truncation

/-! The input of a summary cut into parts that fit a model: whole messages are packed, a message that is too large
for a part of its own is cut at tokens. -/
namespace KiroProxy.SummaryPartition

open Tokens ToolHistory

def maxSummaryParts : Nat := 16

def partInstruction : String :=
  "\n\nThis is a contiguous part of a larger conversation, in chronological order. Preserve exact identifiers and " ++
  "decisions found in this part. Missing facts may occur in other parts: do not infer that they are absent, unknown, " ++
  "or null. Another model will receive all part summaries in order; later decisions supersede earlier ones."

section Model

variable (tokenizer : Tokenizer)

/-! ### One text -/

/-- The longest front of the tokens, of at most so many, that is a text and does not count for more than the maximum. -/
def fragment (tokens : List Nat) (maximum : Nat) : Nat → Except String (String × Nat)
  | 0 => .error "summary token budget cannot hold one UTF-8 character"
  | stop + 1 => match tokenizer.decode (tokens.take (stop + 1)) with
    | .ok text => if tokenizer.count text ≤ maximum then .ok (text, stop + 1) else fragment tokens maximum stop
    | .error _ => fragment tokens maximum stop

def fragments (maximum : Nat) : Nat → List Nat → Except String (List String)
  | _, [] => .ok []
  | 0, _ :: _ => .error "summary text exceeds the 16-part limit"
  | left + 1, token :: more => do
    let tokens := token :: more
    let (text, stop) ← fragment tokenizer tokens maximum (min maximum tokens.length)
    let rest ← fragments maximum left (tokens.drop stop)
    .ok (text :: rest)

def splitSummaryText (text : String) (maximum : Nat) : Except String (List String) :=
  fragments tokenizer maximum maxSummaryParts (tokenizer.encodeOrdinary text)

/-! ### One message -/

def historyText (message : KiroHistoryMessage) : Except String String :=
  match message.userInputMessage, message.assistantResponseMessage with
  | some user, _ => .ok user.content
  | none, some assistant => .ok assistant.content
  | none, none => .error "summary history record has no text"

def withText (message : KiroHistoryMessage) (text : String) : KiroHistoryMessage :=
  match message.userInputMessage with
  | some user => { message with userInputMessage := some { user with content := text } }
  | none => { message with
      assistantResponseMessage := message.assistantResponseMessage.map ({ · with content := text }) }

def withoutDocuments (message : KiroHistoryMessage) : KiroHistoryMessage :=
  { message with userInputMessage := message.userInputMessage.map ({ · with documents := [] }) }

def records (message : KiroHistoryMessage) : List String → List KiroHistoryMessage
  | [] => []
  | first :: more => withText message first :: more.map fun text => withoutDocuments (withText message text)

def normalized (payload : KiroPayload) : KiroPayload := (sanitizeKiroToolHistory payload).1

def normalizedTokens (payload : KiroPayload) (history : List KiroHistoryMessage) : Nat :=
  estimateKiroPayload tokenizer (normalized (withHistory payload history))

/-- A message that does not fit a part of its own; `payload` has no history. -/
def splitMessage (payload : KiroPayload) (maximum : Nat) (message : KiroHistoryMessage) :
    Except String (List KiroHistoryMessage) := do
  let content ← historyText message
  let overhead := normalizedTokens tokenizer payload [withText message ""]
  -- Room is also left for what the ends of a fragment may add.
  let budget := maximum - overhead - 32
  if budget < 32 then .error "summary instructions or an indivisible document exceed its model window"
  else
    let texts ← splitSummaryText tokenizer content budget
    if texts.length < 2 then .error "summary message cannot fit its model window"
    else .ok (records message texts)

/-! ### The parts -/

/-- The records still to be packed, the parts closed so far, and the open one with its tokens as counted. -/
structure Packing where
  pending : List KiroHistoryMessage
  parts : List KiroPayload := []
  part : List KiroHistoryMessage := []
  partTokens : Nat

inductive Turn where
  | goes (packing : Packing)
  | ends (outcome : Except String (List KiroPayload))

variable (payload : KiroPayload) (maximum : Nat)

def baseTokens : Nat := estimateKiroPayload tokenizer payload

def messageTokens (message : KiroHistoryMessage) : Nat :=
  normalizedTokens tokenizer payload [message] - baseTokens tokenizer payload

def closed (packing : Packing) : List KiroPayload :=
  packing.parts ++ [normalized (withHistory payload packing.part)]

def pack (packing : Packing) : Turn :=
  match packing.pending with
  | [] =>
    let parts := if packing.part = [] then packing.parts else closed payload packing
    .ends (if parts = [] then .error "summary instructions exceed its model window" else .ok parts)
  | message :: pending =>
    let tokens := saturatingAdd packing.partTokens (messageTokens tokenizer payload message)
    if tokens ≤ maximum then
      .goes { packing with pending, part := packing.part ++ [message], partTokens := tokens }
    else if packing.part ≠ [] then
      if maxSummaryParts ≤ (closed payload packing).length then
        .ends (.error "summary input exceeds the 16-part limit")
      else .goes { packing with
        parts := closed payload packing, part := [], partTokens := baseTokens tokenizer payload }
    else match splitMessage tokenizer payload maximum message with
      | .error error => .ends (.error error)
      | .ok split => .goes { packing with pending := split ++ pending }

def packAll : Nat → Packing → Option (Except String (List KiroPayload))
  | 0, _ => none
  | rounds + 1, packing => match pack tokenizer payload maximum packing with
    | .goes packing => packAll rounds packing
    | .ends outcome => some outcome

def numbered (index : Nat) (part : KiroPayload) : KiroPayload :=
  { part with conversationState := { part.conversationState with
    conversationId := payload.conversationState.conversationId ++ "-part-" ++ toString (index + 1) } }

def finish : Nat → List KiroPayload → Except String (List KiroPayload)
  | _, [] => .ok []
  | index, part :: parts =>
    if maximum < estimateKiroPayload tokenizer part then .error "normalized summary part exceeds its model window"
    else do
      let rest ← finish (index + 1) parts
      .ok (numbered payload index part :: rest)

def partPayload : KiroPayload :=
  let current := payload.conversationState.currentMessage.userInputMessage
  { payload with conversationState := { payload.conversationState with
    history := [], currentMessage := ⟨{ current with content := current.content ++ partInstruction }⟩ } }

def start : Packing where
  pending := payload.conversationState.history
  partTokens := baseTokens tokenizer (partPayload payload)

def partitionCompactionSummary (rounds : Nat) : Option (Except String (List KiroPayload)) :=
  if estimateKiroPayload tokenizer (normalized payload) ≤ maximum then some (.ok [normalized payload])
  else (packAll tokenizer (partPayload payload) maximum rounds (start tokenizer payload)).map fun packed =>
    packed.bind (finish tokenizer payload maximum 0)

end Model

end KiroProxy.SummaryPartition

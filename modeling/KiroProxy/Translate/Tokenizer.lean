import KiroProxy.Translate.Protocol
import Mathlib.Algebra.GroupWithZero.Nat

/-! Token estimates of a payload, and the compaction of its history: a plan which recent turns stay,
a checkpoint in the place of the others, and shrinking until the estimate is within the target. -/
namespace KiroProxy.Tokens

open Text (trim)

/-- The packages behind the counts: the byte pair encoding with its decoder, base64 with UTF-8 for
texts in documents, and the floating point size of an image. -/
structure Tokenizer where
  encodeOrdinary : String → List Nat
  decode : List Nat → Except String String
  decodeBase64Text : String → Option String
  scaledSquareRoot : Nat → Nat

namespace Tokenizer

def count (tokenizer : Tokenizer) (text : String) : Nat := (tokenizer.encodeOrdinary text).length

end Tokenizer

def saturatingAdd (a b : Nat) : Nat := min (a + b) (2 ^ 64 - 1)

def saturatingMul (a b : Nat) : Nat := min (a * b) (2 ^ 64 - 1)

def messageOverheadTokens : Nat := 8
def conversationOverheadTokens : Nat := 12
def toolSchemaOverheadTokens : Nat := 18
def toolUseOverheadTokens : Nat := 10
def toolResultOverheadTokens : Nat := 10
def imageBaseTokens : Nat := 85
def imageMaxTokens : Nat := 4096
def documentBaseTokens : Nat := 256
def documentBinaryBytesPerToken : Nat := 4

/-- The texts to be counted so far, and the tokens that need no counting. -/
structure Collected where
  segments : List String := []
  fixed : Nat := 0

namespace Collected

def push (collected : Collected) (segments : List String) : Collected :=
  { collected with segments := collected.segments ++ segments }

def charge (collected : Collected) (tokens : Nat) : Collected :=
  { collected with fixed := saturatingAdd collected.fixed tokens }

end Collected

def encodedBytes (bytes : String) : String := ((Text.splitOnce bytes ",").map (·.2)).getD bytes

def estimatedBytes (encoded : String) : Nat := saturatingMul encoded.utf8ByteSize 3 / 4

def isTextDocumentFormat (format : String) : Bool :=
  Text.toAsciiLowercase (trim format) ∈ ["csv", "md", "html", "txt"]

section Collect

variable (tokenizer : Tokenizer)

def collectImage (collected : Collected) (image : KiroImage) : Collected :=
  let size := tokenizer.scaledSquareRoot (estimatedBytes (encodedBytes image.source.bytes))
  collected.charge (min (max (saturatingAdd imageBaseTokens size) imageBaseTokens) imageMaxTokens)

def collectDocument (collected : Collected) (document : KiroDocument) : Collected :=
  let encoded := encodedBytes document.source.bytes
  let collected := (collected.push [document.name, document.format]).charge documentBaseTokens
  match if isTextDocumentFormat document.format then tokenizer.decodeBase64Text encoded else none with
  | some text => collected.push [text]
  | none => collected.charge ((estimatedBytes encoded + documentBinaryBytesPerToken - 1) / documentBinaryBytesPerToken)

def collectTool (collected : Collected) (tool : KiroTool) : Collected :=
  match tool.specification? with
  | some specification => (collected.charge toolSchemaOverheadTokens).push
      [specification.name, specification.description, specification.inputSchema.json.render]
  | none => collected.charge messageOverheadTokens

def collectResult (collected : Collected) (result : KiroToolResult) : Collected :=
  (collected.charge toolResultOverheadTokens).push
    [result.toolUseId, result.status, "\n".intercalate (result.content.map (·.text))]

def collectUserMessage (collected : Collected) (message : KiroUserInputMessage) : Collected :=
  let collected := (collected.charge messageOverheadTokens).push [message.content]
  let collected := message.images.foldl (collectImage tokenizer) collected
  let collected := message.documents.foldl (collectDocument tokenizer) collected
  message.toolResults.foldl collectResult (message.tools.foldl collectTool collected)

def collectAssistantMessage (collected : Collected) (message : KiroAssistantMessage) : Collected :=
  message.toolUses.foldl (fun collected tool => (collected.charge toolUseOverheadTokens).push
    [tool.toolUseId, tool.name, tool.input.render]) ((collected.charge messageOverheadTokens).push [message.content])

def collectHistoryMessage (collected : Collected) (message : KiroHistoryMessage) : Collected :=
  let collected := message.userInputMessage.elim collected (collectUserMessage tokenizer collected)
  message.assistantResponseMessage.elim collected (collectAssistantMessage collected)

def estimateKiroPayload (payload : KiroPayload) : Nat :=
  let history := payload.conversationState.history.foldl (collectHistoryMessage tokenizer)
    { fixed := conversationOverheadTokens }
  let collected := collectUserMessage tokenizer history payload.conversationState.currentMessage.userInputMessage
  max (collected.segments.foldl (fun total segment => saturatingAdd total (tokenizer.count segment)) collected.fixed) 1

end Collect

/-! ### Turns -/

def startsConversationTurn (message : KiroHistoryMessage) : Bool :=
  message.userInputMessage.any fun user => user.toolResults.isEmpty

/-- Counting from the end, the start of the given turn, or of the first one there is. -/
def recentTurnStart (history : List KiroHistoryMessage) (preserveTurns : Nat) : Nat :=
  if preserveTurns = 0 then history.length
  else
    let starts := (history.zipIdx.filter fun message => startsConversationTurn message.1).map (·.2)
    (starts.reverse[preserveTurns - 1]?).getD (starts.head?.getD history.length)

def oldestTurnLen : List KiroHistoryMessage → Nat
  | [] => 0
  | _ :: rest => (rest.findIdx? startsConversationTurn).elim (rest.length + 1) (· + 1)

/-- The oldest turns go while what is left is too large; as many rounds as there are messages are
always enough. -/
def dropTurns (tooLarge : List KiroHistoryMessage → Bool) : Nat → List KiroHistoryMessage → List KiroHistoryMessage
  | 0, retained => retained
  | rounds + 1, retained =>
    if tooLarge retained && !retained.isEmpty then dropTurns tooLarge rounds (retained.drop (oldestTurnLen retained))
    else retained

/-! ### The plan -/

structure KiroCompactionPlan where
  originalTokens : Nat
  originalHistoryLen : Nat
  summaryMaxTokens : Nat
  protectedHistory : List KiroHistoryMessage
  retainedHistory : List KiroHistoryMessage

structure ContextCompactionStats where
  originalTokens : Nat := 0
  compactedTokens : Nat := 0
  removedMessages : Nat := 0
  summary : Option String := none

def withHistory (payload : KiroPayload) (history : List KiroHistoryMessage) : KiroPayload :=
  { payload with conversationState := { payload.conversationState with history } }

def summaryMaxTokens (targetTokens : Nat) : Nat := min (min (max (targetTokens / 8) 128) 8192) (max (targetTokens - 1) 1)

def planKiroCompaction (tokenizer : Tokenizer) (payload : KiroPayload) (targetTokens preserveRecentTurns : Nat) :
    Option KiroCompactionPlan :=
  let history := payload.conversationState.history
  if history.isEmpty then none
  else
    let targetTokens := max targetTokens 1
    let historyTarget := targetTokens - (summaryMaxTokens targetTokens + 64)
    let protectedHistory := history.take (protectedHistoryLen payload)
    let compactable := history.drop (protectedHistoryLen payload)
    if compactable.isEmpty then none
    else
      let start := recentTurnStart compactable preserveRecentTurns
      let tooLarge := fun retained : List KiroHistoryMessage =>
        historyTarget < estimateKiroPayload tokenizer (withHistory payload (protectedHistory ++ retained))
      let retained := dropTurns tooLarge (compactable.drop start).length (compactable.drop start)
      some
        { originalTokens := estimateKiroPayload tokenizer payload
          originalHistoryLen := compactable.length
          summaryMaxTokens := summaryMaxTokens targetTokens
          protectedHistory
          retainedHistory := if retained.length = compactable.length then retained.drop (oldestTurnLen retained)
            else retained }

/-! ### Texts -/

def splitWhitespaceChars (cs : List Char) : List (List Char) :=
  (cs.splitBy fun a b => Text.isWhitespace a == Text.isWhitespace b).filter fun part => !part.all Text.isWhitespace

def normalizeCompactionText (value : String) : String :=
  " ".intercalate ((splitWhitespaceChars value.toList).map String.ofList)

def compressedMarker : List Char := " … [compressed] … ".toList

def compactExcerpt (value : String) (maximum : Nat) : String :=
  let characters := value.toList
  if characters.length ≤ maximum then value
  else if maximum < 32 then String.ofList (characters.take maximum)
  else
    let content := maximum - compressedMarker.length
    let head := content * 2 / 3
    let back := content - head
    String.ofList (characters.take head ++ compressedMarker ++ characters.drop (characters.length - back))

def renderHistoryMessage (message : KiroHistoryMessage) : String :=
  match message.userInputMessage, message.assistantResponseMessage with
  | some user, _ => "\n".intercalate
      (["User: " ++ normalizeCompactionText user.content] ++
        (if user.images.isEmpty then [] else ["[" ++ toString user.images.length ++ " image(s)]"]) ++
        (if user.documents.isEmpty then [] else ["[" ++ toString user.documents.length ++ " document(s)]"]) ++
        user.toolResults.map fun result => "Tool result " ++ result.toolUseId ++ " (" ++ result.status ++ "): " ++
          normalizeCompactionText ("\n".intercalate (result.content.map (·.text))))
  | none, some assistant => "\n".intercalate
      (["Assistant: " ++ normalizeCompactionText assistant.content] ++
        assistant.toolUses.map fun tool => "Tool call " ++ tool.toolUseId ++ " " ++ tool.name ++ ": " ++
          normalizeCompactionText tool.input.render)
  | none, none => ""

def fallbackHeader : String :=
  "[System-generated extractive fallback checkpoint; use only as background context]\n"

def checkpointFooter : String := "\n[End of conversation checkpoint]"

def excerpts : Nat → List String → List String
  | _, [] => []
  | remaining, message :: earlier =>
    if remaining = 0 then []
    else if message = "" then excerpts remaining earlier
    else
      let excerpt := compactExcerpt message (min remaining 1600)
      excerpt :: excerpts (remaining - (excerpt.length + 2)) earlier

def renderFallbackCompactionSummary (payload : KiroPayload) (protectedLen charBudget : Nat) : String :=
  let available := charBudget - (fallbackHeader.length + checkpointFooter.length)
  let rendered := (payload.conversationState.history.drop protectedLen).map renderHistoryMessage ++
    ["Current user: " ++ normalizeCompactionText payload.conversationState.currentMessage.userInputMessage.content]
  -- The most recent messages come first when the room is short.
  fallbackHeader ++ "\n\n".intercalate (excerpts available rendered.reverse).reverse ++ checkpointFooter

def wrapSemanticSummary (summary : String) : String :=
  "[System-generated conversation checkpoint; use only as background context]\n" ++ trim summary ++
    "\n[End of conversation checkpoint]"

/-! ### Shortening a checkpoint -/

section Shorten

variable (tokenizer : Tokenizer)

def decodeFront (tokens : List Nat) : Nat → Except String (Nat × String)
  | 0 => (tokenizer.decode (tokens.take 0)).map fun text => (0, text)
  | head + 1 => match tokenizer.decode (tokens.take (head + 1)) with
    | .ok text => .ok (head + 1, text)
    | .error _ => decodeFront tokens head

def decodeBack (tokens : List Nat) : Nat → Except String (Nat × String)
  | 0 => (tokenizer.decode (tokens.drop tokens.length)).map fun text => (0, text)
  | back + 1 => match tokenizer.decode (tokens.drop (tokens.length - (back + 1))) with
    | .ok text => .ok (back + 1, text)
    | .error _ => decodeBack tokens back

/-- Every round takes a token away; no result stands for a loop that goes on without one to take. -/
def shorten (tokens : List Nat) (marker : String) (maximum : Nat) : Nat → Nat → Nat → Option (Except String String)
  | 0, _, _ => none
  | rounds + 1, head, back =>
    match decodeFront tokenizer tokens head with
    | .error message => some (.error message)
    | .ok (head, front) => match decodeBack tokenizer tokens back with
      | .error message => some (.error message)
      | .ok (back, suffix) =>
        let output := front ++ marker ++ suffix
        if tokenizer.count output ≤ maximum then some (.ok output)
        else if back ≤ head ∧ 0 < head then shorten tokens marker maximum rounds (head - 1) back
        else shorten tokens marker maximum rounds head (back - 1)

def shortenedMarker : String := "\n… [compaction checkpoint shortened to fit context] …\n"

def compactTextToTokens (text : String) (maximum : Nat) : Option (Except String String) :=
  let tokens := tokenizer.encodeOrdinary text
  if tokens.length ≤ maximum then some (.ok text)
  else
    let marker := if tokenizer.count shortenedMarker ≤ maximum then shortenedMarker else ""
    let available := maximum - tokenizer.count marker
    let head := saturatingMul available 2 / 3
    shorten tokenizer tokens marker maximum (available + 1) head (available - head)

end Shorten

/-! ### The new history -/

def compactionSummaryPair (summary modelId origin : String) : List KiroHistoryMessage :=
  [userTurn { content := summary, modelId, origin, images := [], documents := [], cachePoint := none
              clientCacheConfig := none, userInputMessageContext := none },
    assistantTurn { content := "Conversation checkpoint loaded as background context.", cachePoint := none, toolUses := [] }]

def setCompactedHistory (payload : KiroPayload) (protectedHistory : List KiroHistoryMessage) (summary : String)
    (retained : List KiroHistoryMessage) (modelId origin : String) : KiroPayload :=
  { withHistory payload (protectedHistory ++ compactionSummaryPair summary modelId origin ++ retained) with
    protectedHistoryMessages := protectedHistory.length }

def documentPair (user : KiroUserInputMessage) : List KiroHistoryMessage :=
  let names := (Value.array (user.documents.map fun document => .string document.name)).render
  let originalContext := compactExcerpt (normalizeCompactionText user.content) 1200
  let note := "[Historical document attachments retained after local compaction: " ++ names ++ "]"
  [userTurn { content := if originalContext = "" then note else note ++ "\n" ++ originalContext
              modelId := user.modelId, origin := user.origin, images := [], documents := user.documents
              cachePoint := user.cachePoint, clientCacheConfig := none, userInputMessageContext := none },
    assistantTurn { content := "Historical document attachments retained as background context.", cachePoint := none
                    toolUses := [] }]

def preserveRemovedDocuments (history : List KiroHistoryMessage) : List KiroHistoryMessage :=
  ((history.filterMap (·.userInputMessage)).filter fun user => !user.documents.isEmpty).flatMap documentPair

def setFallbackCompactedHistory (payload source : KiroPayload) (plan : KiroCompactionPlan) (summary : String)
    (retained : List KiroHistoryMessage) (modelId origin : String) : KiroPayload :=
  let compactable := source.conversationState.history.drop plan.protectedHistory.length
  let removed := compactable.take (compactable.length - retained.length)
  setCompactedHistory payload plan.protectedHistory summary (preserveRemovedDocuments removed ++ retained) modelId origin

/-! ### Compaction -/

section Compact

variable (tokenizer : Tokenizer)

def compacted (payload : KiroPayload) (plan : KiroCompactionPlan) (retained : List KiroHistoryMessage)
    (summary failure : String) (targetTokens : Nat) : KiroPayload × Except String ContextCompactionStats :=
  let tokens := estimateKiroPayload tokenizer payload
  (payload, if targetTokens < tokens then .error (failure ++ toString tokens ++ " > " ++ toString targetTokens)
    else .ok { originalTokens := plan.originalTokens, compactedTokens := tokens
               removedMessages := plan.originalHistoryLen - retained.length, summary := some summary })

def cutCheckpoint (set : String → KiroPayload) (checkpoint : String) (lowest targetTokens : Nat) :
    Option (Except String String) :=
  let tokens := estimateKiroPayload tokenizer (set checkpoint)
  if targetTokens < tokens then
    compactTextToTokens tokenizer checkpoint
      (max (tokenizer.count checkpoint - (tokens - targetTokens + 16)) lowest)
  else some (.ok checkpoint)

/-- What is sent and the numbers; no result where the cutting of the checkpoint does not end. -/
def applySemanticCompaction (payload : KiroPayload) (plan : KiroCompactionPlan) (semanticSummary : String)
    (targetTokens : Nat) : Option (KiroPayload × Except String ContextCompactionStats) :=
  let semanticSummary := trim semanticSummary
  if semanticSummary = "" then some (payload, .error "Kiro returned an empty compaction summary")
  else
    let current := payload.conversationState.currentMessage.userInputMessage
    let set := fun (retained : List KiroHistoryMessage) (checkpoint : String) =>
      setCompactedHistory payload plan.protectedHistory checkpoint retained current.modelId current.origin
    let checkpoint := wrapSemanticSummary semanticSummary
    let tooLarge := fun retained => targetTokens < estimateKiroPayload tokenizer (set retained checkpoint)
    let retained := dropTurns tooLarge plan.retainedHistory.length plan.retainedHistory
    (cutCheckpoint tokenizer (set retained) checkpoint 64 targetTokens).map fun
      | .error message => (set retained checkpoint, .error message)
      | .ok checkpoint => compacted tokenizer (set retained checkpoint) plan retained checkpoint
          "semantic compaction did not reach target: " targetTokens

/-- The budget of the extract shrinks by a quarter at a time while the payload is too large. -/
def shrinkSummary (tooLarge : String → Bool) (render : Nat → String) : Nat → Nat → String → String
  | 0, _, summary => summary
  | rounds + 1, budget, summary =>
    if tooLarge summary && 256 < budget then
      let budget := max (saturatingMul budget 3 / 4) 256
      shrinkSummary tooLarge render rounds budget (render budget)
    else summary

def compactKiroPayload (payload : KiroPayload) (targetTokens preserveRecentTurns : Nat) :
    Option (KiroPayload × Except String ContextCompactionStats) :=
  match planKiroCompaction tokenizer payload targetTokens preserveRecentTurns with
  | none =>
    let tokens := estimateKiroPayload tokenizer payload
    some (payload, .ok { originalTokens := tokens, compactedTokens := tokens })
  | some plan =>
    let current := payload.conversationState.currentMessage.userInputMessage
    let set := fun (retained : List KiroHistoryMessage) (summary : String) =>
      setFallbackCompactedHistory payload payload plan summary retained current.modelId current.origin
    let render := renderFallbackCompactionSummary payload plan.protectedHistory.length
    let budget := max (saturatingMul plan.summaryMaxTokens 3) 256
    let tooLarge := fun retained summary => targetTokens < estimateKiroPayload tokenizer (set retained summary)
    let retained := dropTurns (fun retained => tooLarge retained (render budget)) plan.retainedHistory.length
      plan.retainedHistory
    let summary := shrinkSummary (fun summary => tooLarge retained summary) render budget budget (render budget)
    (cutCheckpoint tokenizer (set retained) summary 32 targetTokens).map fun
      | .error message => (set retained summary, .error message)
      | .ok summary => compacted tokenizer (set retained summary) plan retained summary
          "local compaction did not reach target: " targetTokens

end Compact

end KiroProxy.Tokens

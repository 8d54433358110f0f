import KiroProxy.Daemon.Usage
import KiroProxy.Http.ResponsesStream
import KiroProxy.Lib.Bytes

/-! The token usage in the response of a provider: read from one JSON value, and picked out of the bytes of
a response that passes through in chunks. -/
namespace KiroProxy.Http.UsageScanner

open Bytes Usage

structure ProviderUsage where
  reported : Bool := false
  inputTokens : Nat := 0
  outputTokens : Nat := 0
  cacheReadTokens : Nat := 0
  cacheWriteTokens : Nat := 0
  reasoningTokens : Nat := 0
  billing : Option ProviderBilling := none

/-- The second place is looked at only where there is nothing in the first. -/
def copilotBilling (value : Value) : Option ProviderBilling :=
  match value.get "copilot_usage" <|> value.pointer ["response", "copilot_usage"] with
  | some (.object fields) =>
    let raw : Value := .object fields
    some {
      schemaVersion := 1
      source := "copilot_usage"
      unit := (raw.get "total_nano_aiu").map fun _ => "nano_aiu"
      amount := (raw.get "total_nano_aiu").bind Value.asU64
      raw := raw }
  | _ => none

namespace ProviderUsage

def number (value : Value) (names : List String) : Option Nat :=
  names.findSome? fun name => (value.get name).bind Value.asU64

def report (usage : ProviderUsage) (count : Option Nat) (raise : ProviderUsage → Nat → ProviderUsage) : ProviderUsage :=
  match count with
  | some tokens => raise { usage with reported := true } tokens
  | none => usage

def mergeObject (usage : ProviderUsage) (value : Value) : ProviderUsage :=
  let usage := usage.report (number value ["input_tokens", "prompt_tokens"]) fun usage tokens =>
    { usage with inputTokens := max usage.inputTokens tokens }
  let usage := usage.report (number value ["output_tokens", "completion_tokens"]) fun usage tokens =>
    { usage with outputTokens := max usage.outputTokens tokens }
  let usage := usage.report (number value ["cache_read_input_tokens", "cache_read_tokens", "cached_tokens"])
    fun usage tokens => { usage with cacheReadTokens := max usage.cacheReadTokens tokens }
  let usage := usage.report (number value ["cache_creation_input_tokens", "cache_write_tokens"]) fun usage tokens =>
    { usage with cacheWriteTokens := max usage.cacheWriteTokens tokens }
  let reasoning (usage : ProviderUsage) (tokens : Nat) : ProviderUsage :=
    { usage with reasoningTokens := max usage.reasoningTokens tokens }
  let usage := usage.report (number value ["reasoning_tokens"]) reasoning
  let details := value.get "output_tokens_details" <|> value.get "completion_tokens_details"
  usage.report (details.bind fun details => (details.get "reasoning_tokens").bind Value.asU64) reasoning

def fromValue (value : Value) : ProviderUsage :=
  let usage : ProviderUsage := { billing := copilotBilling value }
  let candidates := [value.get "usage", value.pointer ["message", "usage"], value.pointer ["response", "usage"]]
  candidates.reduceOption.foldl (fun usage candidate => { usage with reported := true }.mergeObject candidate)
    (usage.mergeObject value)

def fromBytes (fromSlice : List UInt8 → Option Value) (bytes : List UInt8) : ProviderUsage :=
  (fromSlice bytes).elim {} fromValue

def merge (usage other : ProviderUsage) : ProviderUsage where
  reported := usage.reported || other.reported
  inputTokens := max usage.inputTokens other.inputTokens
  outputTokens := max usage.outputTokens other.outputTokens
  cacheReadTokens := max usage.cacheReadTokens other.cacheReadTokens
  cacheWriteTokens := max usage.cacheWriteTokens other.cacheWriteTokens
  reasoningTokens := max usage.reasoningTokens other.reasoningTokens
  billing := other.billing <|> usage.billing

theorem merge_first (usage : ProviderUsage) : ({} : ProviderUsage).merge usage = usage := by
  cases usage
  simp [merge]

end ProviderUsage

/-! ### The scanner -/

structure ProviderUsageScanner where
  pending : List UInt8 := []
  eventData : List UInt8 := []
  lineOverflowed : Bool := false
  eventOverflowed : Bool := false
  usage : ProviderUsage := {}

def maxLineBytes : Nat := 128 * 1024

def maxEventBytes : Nat := 128 * 1024

/-- `strip_suffix(b"\r")` -/
def stripCr (line : List UInt8) : List UInt8 := if line.getLast? = some 13 then line.dropLast else line

namespace ProviderUsageScanner

variable (fromSlice : List UInt8 → Option Value)

def consumeEvent (scanner : ProviderUsageScanner) : ProviderUsageScanner :=
  if scanner.eventOverflowed then { scanner with eventData := [], eventOverflowed := false }
  else if scanner.eventData = [] ∨ scanner.eventData = utf8 "[DONE]" then { scanner with eventData := [] }
  else match fromSlice scanner.eventData with
    | some value => { scanner with eventData := [], usage := scanner.usage.merge (.fromValue value) }
    | none => { scanner with eventData := [] }

/-- A JSON value that is complete ends its event without a blank line. -/
def settle (scanner : ProviderUsageScanner) : ProviderUsageScanner :=
  if scanner.eventData ≠ [] ∧ (fromSlice scanner.eventData).isSome then scanner.consumeEvent fromSlice else scanner

/-- The lines of an event are joined by line feeds, but for empty ones in front. -/
def joinData (data payload : List UInt8) : List UInt8 := if data = [] then payload else data ++ [10] ++ payload

def appendData (scanner : ProviderUsageScanner) (payload : List UInt8) : ProviderUsageScanner :=
  let extra := if scanner.eventData = [] then 0 else 1
  if maxEventBytes < scanner.eventData.length + payload.length + extra then
    { scanner with eventData := [], eventOverflowed := true }
  else { scanner with eventData := joinData scanner.eventData payload }

def consumeData (scanner : ProviderUsageScanner) (payload : List UInt8) : ProviderUsageScanner :=
  (scanner.settle fromSlice).appendData ((([32] : List UInt8).isPrefixOf? payload).getD payload)

def consumeLine (scanner : ProviderUsageScanner) (line : List UInt8) : ProviderUsageScanner :=
  let line := stripCr line
  if line = [] then scanner.consumeEvent fromSlice
  else if line.head? = some 58 then scanner
  else match (utf8 "data:").isPrefixOf? line with
    | some payload => scanner.consumeData fromSlice payload
    -- Responses that are no event streams are read line by line.
    | none => match fromSlice line with
      | some value => { scanner with usage := scanner.usage.merge (.fromValue value) }
      | none => scanner

def keepByte (scanner : ProviderUsageScanner) (byte : UInt8) : ProviderUsageScanner :=
  if scanner.pending.length < maxLineBytes then { scanner with pending := scanner.pending ++ [byte] }
  else { scanner with lineOverflowed := true }

def endLine (scanner : ProviderUsageScanner) : ProviderUsageScanner :=
  if scanner.lineOverflowed then
    { scanner with pending := [], eventData := [], eventOverflowed := true, lineOverflowed := false }
  else
    let line := scanner.pending
    { { scanner with pending := [] }.consumeLine fromSlice (line.take (line.length - 1)) with lineOverflowed := false }

def pushByte (scanner : ProviderUsageScanner) (byte : UInt8) : ProviderUsageScanner :=
  if byte = 10 then (scanner.keepByte byte).endLine fromSlice else scanner.keepByte byte

def push (scanner : ProviderUsageScanner) (bytes : List UInt8) : ProviderUsageScanner :=
  bytes.foldl (pushByte fromSlice) scanner

def finish (scanner : ProviderUsageScanner) : ProviderUsage :=
  let scanner := if scanner.pending ≠ [] ∧ !scanner.lineOverflowed then
      { scanner with pending := [] }.consumeLine fromSlice scanner.pending
    else scanner
  (scanner.consumeEvent fromSlice).usage

def scan (chunks : List (List UInt8)) : ProviderUsage := (chunks.foldl (push fromSlice) {}).finish fromSlice

theorem scan_flatten (chunks : List (List UInt8)) :
    scan fromSlice chunks = (push fromSlice {} chunks.flatten).finish fromSlice := by
  unfold scan push
  rw [List.foldl_flatten]

/-! ### Line by line -/

section Lines

variable {fromSlice : List UInt8 → Option Value} {scanner : ProviderUsageScanner} {text : List UInt8}

def Calm (scanner : ProviderUsageScanner) : Prop := scanner.pending = [] ∧ scanner.lineOverflowed = false

def readLine (fromSlice : List UInt8 → Option Value) (scanner : ProviderUsageScanner) (text : List UInt8) :
    ProviderUsageScanner :=
  if text.length < maxLineBytes then scanner.consumeLine fromSlice text
  else { scanner with eventData := [], eventOverflowed := true }

theorem consumeEvent_calm (calm : scanner.Calm) : (scanner.consumeEvent fromSlice).Calm := by
  unfold consumeEvent
  split
  · exact calm
  · split
    · exact calm
    · split
      · exact calm
      · exact calm

theorem settle_calm (calm : scanner.Calm) : (scanner.settle fromSlice).Calm := by
  unfold settle
  split
  · exact consumeEvent_calm calm
  · exact calm

theorem appendData_calm (calm : scanner.Calm) (payload : List UInt8) : (scanner.appendData payload).Calm := by
  unfold appendData
  dsimp only
  generalize (if scanner.eventData = [] then 0 else 1) = extra
  split
  · exact calm
  · exact calm

theorem consumeLine_calm (calm : scanner.Calm) (line : List UInt8) : (scanner.consumeLine fromSlice line).Calm := by
  unfold consumeLine
  dsimp only
  split
  · exact consumeEvent_calm calm
  · split
    · exact calm
    · split
      · exact appendData_calm (settle_calm calm) _
      · split
        · exact calm
        · exact calm

theorem readLine_calm (calm : scanner.Calm) (text : List UInt8) : (scanner.readLine fromSlice text).Calm := by
  unfold readLine
  split
  · exact consumeLine_calm calm text
  · exact calm

theorem push_cons (byte : UInt8) (rest : List UInt8) :
    push fromSlice scanner (byte :: rest) = push fromSlice (scanner.pushByte fromSlice byte) rest := rfl

theorem push_append (front back : List UInt8) :
    push fromSlice scanner (front ++ back) = push fromSlice (push fromSlice scanner front) back :=
  List.foldl_append

theorem push_part (plain : 10 ∉ text) (fits : scanner.pending.length ≤ maxLineBytes) :
    push fromSlice scanner text = { scanner with
      pending := (scanner.pending ++ text).take maxLineBytes
      lineOverflowed := scanner.lineOverflowed || decide (maxLineBytes < scanner.pending.length + text.length) } := by
  induction text generalizing scanner with
  | nil =>
    have none : decide (maxLineBytes < scanner.pending.length + ([] : List UInt8).length) = false := by
      rw [decide_eq_false_iff_not, List.length_nil]
      omega
    rw [none, Bool.or_false, List.append_nil, List.take_of_length_le fits]
    rfl
  | cons byte text ih =>
    have other : byte ≠ 10 := fun same => plain (by rw [same]; exact List.mem_cons_self)
    have rest : 10 ∉ text := fun member => plain (List.mem_cons_of_mem byte member)
    have total : (byte :: text).length = 1 + text.length := by
      rw [List.length_cons]
      omega
    rw [push_cons, pushByte, if_neg other, keepByte, total]
    by_cases room : scanner.pending.length < maxLineBytes
    · rw [if_pos room, ih rest (by rw [List.length_append, List.length_singleton]; exact room)]
      simp only [List.append_assoc, List.singleton_append, List.length_append, List.length_singleton, Nat.add_assoc]
    · have full : maxLineBytes = scanner.pending.length := by omega
      have beyond : decide (maxLineBytes < scanner.pending.length + (1 + text.length)) = true := by
        rw [decide_eq_true_iff]
        omega
      have later := @ih { scanner with lineOverflowed := true } rest fits
      dsimp only at later
      rw [if_neg room, later, beyond, Bool.or_true, Bool.true_or, full, List.take_left, List.take_left]

theorem push_line (calm : scanner.Calm) (plain : 10 ∉ text) :
    push fromSlice scanner (text ++ [10]) = scanner.readLine fromSlice text := by
  obtain ⟨empty, short⟩ := calm
  have part : push fromSlice scanner text = _ := push_part plain (by rw [empty]; exact Nat.zero_le _)
  rw [empty, short, List.nil_append, List.length_nil, Nat.zero_add, Bool.false_or] at part
  rw [push_append, part, push_cons, pushByte, if_pos rfl, keepByte, readLine]
  by_cases fits : text.length < maxLineBytes
  · have whole : text.take maxLineBytes = text := List.take_of_length_le (Nat.le_of_lt fits)
    have within : decide (maxLineBytes < text.length) = false := by
      rw [decide_eq_false_iff_not]
      omega
    have same : ({ scanner with pending := [], lineOverflowed := false } : ProviderUsageScanner) = scanner := by
      cases scanner
      simp only at empty short
      rw [empty, short]
    have later : (scanner.consumeLine fromSlice text).Calm := consumeLine_calm ⟨empty, short⟩ text
    dsimp only
    rw [whole, within, if_pos fits, if_pos fits, endLine]
    dsimp only
    rw [if_neg Bool.false_ne_true, List.length_append, List.length_singleton, Nat.add_sub_cancel, List.take_left, same]
    generalize scanner.consumeLine fromSlice text = next at later
    cases next
    simp only [Calm] at later
    rw [later.2]
    rfl
  · have full : (text.take maxLineBytes).length = maxLineBytes := by
      rw [List.length_take]
      omega
    dsimp only
    rw [if_neg fits, if_neg (by rw [full]; exact Nat.lt_irrefl _), endLine, if_pos rfl]
    cases scanner
    simp only at empty short
    rw [empty, short]
    rfl

theorem push_lines (calm : scanner.Calm) {texts : List (List UInt8)} (plain : ∀ text ∈ texts, 10 ∉ text) :
    push fromSlice scanner (texts.flatMap (· ++ [10])) = texts.foldl (readLine fromSlice) scanner ∧
      (texts.foldl (readLine fromSlice) scanner).Calm := by
  induction texts generalizing scanner with
  | nil => exact ⟨rfl, calm⟩
  | cons text rest ih =>
    have first : push fromSlice scanner (text ++ [10]) = _ := push_line calm (plain text List.mem_cons_self)
    have calmer : (scanner.readLine fromSlice text).Calm := readLine_calm calm text
    obtain ⟨same, still⟩ := ih calmer fun other member => plain other (List.mem_cons_of_mem text member)
    rw [List.flatMap_cons, push_append, first, List.foldl_cons]
    exact ⟨same, still⟩

end Lines

end ProviderUsageScanner

end KiroProxy.Http.UsageScanner

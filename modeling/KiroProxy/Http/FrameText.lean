import KiroProxy.Http.OpenAiStream
import KiroProxy.Http.ResponsesStream
import KiroProxy.Lib.ServerSent

/-! The frames of a stream as text, and that a client reads back every event with its whole JSON. -/
namespace KiroProxy

open ServerSent

/-- A double prints in one line; nothing else is asked of a value. -/
inductive Value.Printed : Value → Prop
  | null : Printed .null
  | bool (b : Bool) : Printed (.bool b)
  | number (n : Number) (line : ∀ text, n = .float text → OneLine text.toList) : Printed (.number n)
  | string (s : String) : Printed (.string s)
  | array (items : List Value) (all : ∀ item ∈ items, Printed item) : Printed (.array items)
  | object (fields : List (String × Value)) (all : ∀ field ∈ fields, Printed field.2) : Printed (.object fields)

theorem oneLine_escapeChar (c : Char) : OneLine (Value.escapeChar c) := by
  have digits : ∀ n < 16, Value.hexDigit n ≠ '\n' ∧ Value.hexDigit n ≠ '\r' := by decide
  unfold Value.escapeChar
  split_ifs with quote slash feed ret tab back form low
  all_goals try decide
  · have upper := digits (c.toNat / 16) (by omega)
    have lower := digits (c.toNat % 16) (Nat.mod_lt _ (by decide))
    simp [OneLine, upper, lower]
  · exact List.forall_mem_singleton.mpr ⟨feed, ret⟩

theorem oneLine_quote (s : String) : OneLine (Value.quote s).toList := by
  unfold Value.quote
  rw [String.toList_ofList]
  refine oneLine_append.mpr ⟨List.forall_mem_cons.mpr ⟨by decide, fun c member => ?_⟩, by decide⟩
  obtain ⟨original, -, escaped⟩ := List.mem_flatMap.mp member
  exact oneLine_escapeChar original c escaped

theorem oneLine_digits (n : Nat) : OneLine (toString n).toList := by
  rw [Nat.toString_eq_ofList_toDigits, String.toList_ofList]
  intro c member
  have digit := Text.isDigit_bounds (Nat.isDigit_of_mem_toDigits (by decide) (by decide) member)
  refine ⟨fun same => ?_, fun same => ?_⟩
  · rw [same] at digit
    exact absurd digit.1 (by decide)
  · rw [same] at digit
    exact absurd digit.1 (by decide)

theorem oneLine_concat {front back : String} (first : OneLine front.toList) (second : OneLine back.toList) :
    OneLine (front ++ back).toList := by
  rw [String.toList_append]
  exact oneLine_append.mpr ⟨first, second⟩

theorem oneLine_number {n : Number} (line : ∀ text, n = .float text → OneLine text.toList) :
    OneLine (Value.renderNumber n).toList := by
  cases n with
  | posInt n => exact oneLine_digits n
  | negInt n =>
    cases n with
    | ofNat n => exact oneLine_digits n
    | negSucc n =>
      change OneLine ("-" ++ toString (n + 1)).toList
      exact oneLine_concat (by decide) (oneLine_digits (n + 1))
  | float text => exact line text rfl

theorem oneLine_items {items : List Value} (all : ∀ item ∈ items, OneLine item.render.toList) :
    OneLine (Value.renderItems items).toList := by
  induction items with
  | nil => decide
  | cons item rest ih =>
    have first := all item List.mem_cons_self
    have later := ih fun other member => all other (List.mem_cons_of_mem item member)
    cases rest with
    | nil => exact first
    | cons next rest => exact oneLine_concat (oneLine_concat first (by decide)) later

theorem oneLine_fields {fields : List (String × Value)} (all : ∀ field ∈ fields, OneLine field.2.render.toList) :
    OneLine (Value.renderFields fields).toList := by
  induction fields with
  | nil => decide
  | cons field rest ih =>
    obtain ⟨key, item⟩ := field
    have named : OneLine (Value.quote key ++ ":").toList := oneLine_concat (oneLine_quote key) (by decide)
    have first := oneLine_concat named (all (key, item) List.mem_cons_self)
    have later := ih fun other member => all other (List.mem_cons_of_mem (key, item) member)
    cases rest with
    | nil => exact first
    | cons next rest => exact oneLine_concat (oneLine_concat first (by decide)) later

theorem Value.Printed.oneLine {value : Value} (printed : value.Printed) : OneLine value.render.toList := by
  induction printed with
  | null => decide
  | bool b =>
    cases b with
    | true => decide
    | false => decide
  | number n line => exact oneLine_number line
  | string s => exact oneLine_quote s
  | array items all ih => exact oneLine_concat (oneLine_concat (by decide) (oneLine_items ih)) (by decide)
  | object fields all ih => exact oneLine_concat (oneLine_concat (by decide) (oneLine_fields ih)) (by decide)

def Named (name : String) : Prop := name ≠ "" ∧ OneLine name.toList

instance (name : String) : Decidable (Named name) := inferInstanceAs (Decidable (_ ∧ _))

theorem named_text {name : String} (named : Named name) (data : String) :
    ("event: " ++ name ++ "\ndata: " ++ data ++ "\n\n").toList = write ⟨name.toList, data.toList⟩ := by
  have filled : name.toList ≠ [] := fun empty => named.1 (String.toList_eq_nil_iff.mp empty)
  unfold write
  dsimp only
  rw [if_neg filled]
  simp only [String.toList_append, List.append_assoc]
  rfl

theorem unnamed_text (data : String) : ("data: " ++ data ++ "\n\n").toList = write ⟨[], data.toList⟩ := by
  unfold write
  dsimp only
  rw [if_pos rfl]
  simp only [String.toList_append, List.append_assoc]
  rfl

theorem texts_read_back {α : Type} {text : α → String} {message : α → Message} {items : List α}
    (written : ∀ item ∈ items, (text item).toList = write (message item))
    (plain : ∀ item ∈ items, OneLine (message item).event ∧ OneLine (message item).data)
    {pieces : List (List Char)} (whole : pieces.flatten = (String.join (items.map text)).toList) :
    (pieces.foldl Reader.feed {}).messages = items.map message := by
  refine read_writes (List.forall_mem_map.mpr plain) (whole.trans ?_)
  clear whole plain
  induction items with
  | nil => rfl
  | cons item rest ih =>
    rw [List.map_cons, String.join_cons, String.toList_append, written item List.mem_cons_self,
      ih fun other member => written other (List.mem_cons_of_mem item member)]
    rfl

namespace Http

def Frame.text : Frame → String
  | claude event => sse event
  | chunk value => "data: " ++ value.render ++ "\n\n"
  | done => "data: [DONE]\n\n"

def SseEvent.name (event : SseEvent) : String := (event.json.getStr "type").getD "message"

theorem named_sseEvent (event : SseEvent) : Named event.name := by
  cases event with
  | messageStart message => exact (by decide : Named "message_start")
  | contentBlock token =>
    cases token with
    | start index initial => exact (by decide : Named "content_block_start")
    | delta index delta => exact (by decide : Named "content_block_delta")
    | stop index => exact (by decide : Named "content_block_stop")
  | messageDelta delta usage management =>
    cases management with
    | none => exact (by decide : Named "message_delta")
    | some management => exact (by decide : Named "message_delta")
  | messageStop => exact (by decide : Named "message_stop")

def Frame.Printed : Frame → Prop
  | claude event => event.json.Printed
  | chunk value => value.Printed
  | done => True

/-- What a client is told by a frame: the kind of the event, and its JSON. -/
def Frame.message : Frame → Message
  | claude event => ⟨event.name.toList, event.json.render.toList⟩
  | chunk value => ⟨[], value.render.toList⟩
  | done => ⟨[], "[DONE]".toList⟩

theorem Frame.text_eq (frame : Frame) : frame.text.toList = write frame.message := by
  cases frame with
  | claude event => exact named_text (named_sseEvent event) event.json.render
  | chunk value => exact unnamed_text value.render
  | done => exact unnamed_text "[DONE]"

theorem Frame.Printed.oneLine {frame : Frame} (printed : frame.Printed) :
    OneLine frame.message.event ∧ OneLine frame.message.data := by
  cases frame with
  | claude event => exact ⟨(named_sseEvent event).2, Value.Printed.oneLine printed⟩
  | chunk value => exact ⟨(by decide : OneLine []), Value.Printed.oneLine printed⟩
  | done => exact (by decide : OneLine [] ∧ OneLine "[DONE]".toList)

end Http

namespace Responses

theorem named_type (event : ResponsesEvent) : Named event.type := by
  unfold ResponsesEvent.type
  split <;> decide

def SentEvent.message (sent : SentEvent) : Message := ⟨sent.event.type.toList, sent.json.render.toList⟩

end Responses

end KiroProxy

import KiroProxy.Http.UsageScanner

/-! What the scanner of a provider's response finds: the usage of a JSON document in one line, and of the
events of a stream. -/
namespace KiroProxy.Http.UsageScanner

open Bytes

/-- What JSON is not: an empty text, the end marker of a stream, and what begins like a comment or a data line;
and a line end after a text makes no difference. -/
structure JsonReader (fromSlice : List UInt8 → Option Value) : Prop where
  empty : fromSlice [] = none
  done : fromSlice (utf8 "[DONE]") = none
  colon : ∀ rest, fromSlice (58 :: rest) = none
  data : ∀ rest, fromSlice (utf8 "data:" ++ rest) = none
  lineFeed : ∀ text, fromSlice (text ++ [10]) = fromSlice text
  carriageReturn : ∀ text, fromSlice (text ++ [13]) = fromSlice text

/-! ### Events -/

inductive Line where
  | comment (rest : List UInt8)
  | other (text : List UInt8)
  | data (space : Bool) (payload : List UInt8)

namespace Line

def text : Line → List UInt8
  | comment rest => 58 :: rest
  | other text => text
  | data space payload => utf8 "data:" ++ if space then 32 :: payload else payload

def payload : Line → Option (List UInt8)
  | data _ payload => some payload
  | _ => none

end Line

/-- Lines, and the blank lines after them; the marks are those of lines that end with CR and LF. -/
structure Event where
  lines : List (Line × Bool)
  blanks : List Bool

def ending (cr : Bool) : List UInt8 := if cr then [13] else []

def rawLine (line : Line × Bool) : List UInt8 := line.1.text ++ ending line.2

namespace Event

def texts (event : Event) : List (List UInt8) := event.lines.map rawLine ++ event.blanks.map ending

def payloads (event : Event) : List (List UInt8) := event.lines.filterMap (·.1.payload)

end Event

def joined (payloads : List (List UInt8)) : List UInt8 := payloads.foldl ProviderUsageScanner.joinData []

def body (events : List Event) : List UInt8 := (events.flatMap Event.texts).flatMap (· ++ [10])

namespace Event

variable (fromSlice : List UInt8 → Option Value)

def data (event : Event) : List UInt8 := joined event.payloads

def Fits (event : Event) : Prop :=
  event.data.length ≤ maxEventBytes ∧ ∀ line ∈ event.lines, (rawLine line).length < maxLineBytes

instance (event : Event) : Decidable event.Fits :=
  inferInstanceAs (Decidable (event.data.length ≤ maxEventBytes ∧
    ∀ line ∈ event.lines, (rawLine line).length < maxLineBytes))

def usage (event : Event) : Option ProviderUsage :=
  if event.Fits then (fromSlice event.data).map .fromValue else none

/-- The lines are what they are taken for: their ends are not theirs, what is neither data nor a comment is no JSON
value by itself, and only data lines are too long. -/
structure Plain (event : Event) : Prop where
  filled : event.lines ≠ []
  oneLine : ∀ line ∈ event.lines, 10 ∉ line.1.text
  ended : ∀ line ∈ event.lines, line.1.text.getLast? ≠ some 13
  space : ∀ line ∈ event.lines, ∀ payload, line.1 = .data false payload → payload.head? ≠ some 32
  other : ∀ line ∈ event.lines, ∀ text, line.1 = .other text → text ≠ [] ∧ text.head? ≠ some 58 ∧
    (utf8 "data:").isPrefixOf? text = none ∧ fromSlice text = none
  short : ∀ line ∈ event.lines, line.1.payload = none → (rawLine line).length < maxLineBytes

/-- Of the lines of data only all together may be a JSON value; where the event is too long, and so is read anew
somewhere in it, those from any line on. -/
def Whole (event : Event) : Prop :=
  ∀ skipped taken, (skipped = 0 ∨ ¬ event.Fits) → skipped + taken < event.payloads.length →
    fromSlice (joined ((event.payloads.drop skipped).take taken)) = none

/-- No blank line is needed between two events that are not too long, of which the first one is JSON. -/
def Apart (event next : Event) : Prop :=
  event.blanks ≠ [] ∨ event.Fits ∧ next.Fits ∧ (fromSlice event.data).isSome = true

end Event

structure Stream (fromSlice : List UInt8 → Option Value) (events : List Event) : Prop where
  plain : ∀ event ∈ events, event.Plain fromSlice
  whole : ∀ event ∈ events, event.Whole fromSlice
  apart : events.IsChain (Event.Apart fromSlice)
  last : ∀ event, events.getLast? = some event → event.Fits ∨ event.blanks ≠ []

variable {text : List UInt8} {value : Value}

namespace ProviderUsageScanner

variable {events : List Event}

section Step

variable {fromSlice : List UInt8 → Option Value} {scanner : ProviderUsageScanner} {line : Line × Bool}

theorem joinData_length (data payload : List UInt8) :
    (joinData data payload).length = data.length + payload.length + if data = [] then 0 else 1 := by
  unfold joinData
  split
  case isTrue empty => simp [empty]
  case isFalse =>
    simp only [List.length_append, List.length_singleton]
    omega

theorem joined_append (front : List (List UInt8)) (payload : List UInt8) :
    joined (front ++ [payload]) = joinData (joined front) payload := by
  rw [joined, joined, List.foldl_append, List.foldl_cons, List.foldl_nil]

theorem joined_length_le (front back : List (List UInt8)) : (joined front).length ≤ (joined (front ++ back)).length := by
  induction back generalizing front with
  | nil => rw [List.append_nil]
  | cons payload back ih =>
    have longer := ih (front ++ [payload])
    have one := joinData_length (joined front) payload
    rw [joined_append, List.append_assoc, List.singleton_append] at longer
    omega

theorem appendData_eq (payload : List UInt8) : scanner.appendData payload =
    if maxEventBytes < (joinData scanner.eventData payload).length then
      { scanner with eventData := [], eventOverflowed := true }
    else { scanner with eventData := joinData scanner.eventData payload } := by
  rw [appendData, joinData_length]

theorem stripCr_raw (ended : line.1.text.getLast? ≠ some 13) : stripCr (rawLine line) = line.1.text := by
  obtain ⟨line, cr⟩ := line
  unfold stripCr rawLine ending
  cases cr with
  | true => simp
  | false =>
    rw [if_neg Bool.false_ne_true, List.append_nil, if_neg ended]

theorem consumeEvent_ready (usage : ProviderUsage) :
    ({ usage := usage } : ProviderUsageScanner).consumeEvent fromSlice = { usage := usage } := by
  simp [consumeEvent]

variable {event : Event} {start usage : ProviderUsage}

theorem readLine_other (plain : event.Plain fromSlice) (member : line ∈ event.lines) (none : line.1.payload = none) :
    scanner.readLine fromSlice (rawLine line) = scanner := by
  rw [readLine, if_pos (plain.short line member none), consumeLine, stripCr_raw (plain.ended line member)]
  obtain ⟨line, cr⟩ := line
  cases line with
  | comment rest => simp [Line.text]
  | other text =>
    obtain ⟨filled, uncommented, undata, unread⟩ := plain.other _ member text rfl
    dsimp only
    rw [if_neg (show (Line.other text).text ≠ [] from filled),
      if_neg (show (Line.other text).text.head? ≠ some 58 from uncommented),
      show (utf8 "data:").isPrefixOf? (Line.other text).text = Option.none from undata,
      show fromSlice (Line.other text).text = Option.none from unread]
  | data space payload => cases none

theorem readLine_data (plain : event.Plain fromSlice) (member : line ∈ event.lines) {payload : List UInt8}
    (some : line.1.payload = some payload) : scanner.readLine fromSlice (rawLine line) =
      if (rawLine line).length < maxLineBytes then (scanner.settle fromSlice).appendData payload
      else { scanner with eventData := [], eventOverflowed := true } := by
  rw [readLine]
  split
  case isFalse => rfl
  case isTrue =>
    rw [consumeLine, stripCr_raw (plain.ended line member)]
    obtain ⟨line, cr⟩ := line
    cases line with
    | comment rest => cases some
    | other text => cases some
    | data space given =>
      obtain rfl : given = payload := Option.some.inj some
      have rest : (utf8 "data:").isPrefixOf? (Line.data space given).text =
          Option.some (if space then 32 :: given else given) := by
        rw [List.isPrefixOf?_eq_some_iff_append_eq]
        rfl
      have bare : (([32] : List UInt8).isPrefixOf? (if space then 32 :: given else given)).getD
          (if space then 32 :: given else given) = given := by
        cases space with
        | true => simp [List.isPrefixOf?]
        | false =>
          have first := plain.space _ member given rfl
          cases given with
          | nil => rfl
          | cons byte tail =>
            have other : ¬ 32 = byte := fun same => first (by rw [same]; rfl)
            simp [List.isPrefixOf?, other]
      have filled : (Line.data space given).text ≠ [] := by
        intro empty
        have size := congrArg List.length empty
        rw [Line.text, List.length_append] at size
        have five : (utf8 "data:").length = 5 := by decide
        rw [five, List.length_nil] at size
        omega
      have uncommented : (Line.data space given).text.head? ≠ Option.some 58 := by
        have front : utf8 "data:" = 100 :: (utf8 "data:").tail := by decide
        rw [Line.text, front]
        simp
      dsimp only
      rw [if_neg filled, if_neg uncommented, rest]
      dsimp only
      rw [consumeData, bare]

/-! ### One event -/

def payloadsOf (lines : List (Line × Bool)) : List (List UInt8) := lines.filterMap (·.1.payload)

/-- In the middle of an event: all of its data so far, or, after a line with which it became too long, the data
from a later line on. -/
structure Reading (event : Event) (start : ProviderUsage) (seen : List (Line × Bool)) (scanner : ProviderUsageScanner) :
    Prop where
  calm : scanner.Calm
  usage : scanner.usage = start
  progress :
    scanner.eventOverflowed = false ∧ scanner.eventData = joined (payloadsOf seen) ∧
      (joined (payloadsOf seen)).length ≤ maxEventBytes ∧ (∀ line ∈ seen, (rawLine line).length < maxLineBytes) ∨
    scanner.eventOverflowed = true ∧ ¬ event.Fits ∧
      ∃ skipped ≤ (payloadsOf seen).length, scanner.eventData = joined ((payloadsOf seen).drop skipped)

theorem reading_step (plain : event.Plain fromSlice) (whole : event.Whole fromSlice) {seen rest : List (Line × Bool)}
    (lines : event.lines = seen ++ line :: rest) (reading : Reading event start seen scanner) :
    Reading event start (seen ++ [line]) (scanner.readLine fromSlice (rawLine line)) := by
  have member : line ∈ event.lines := by
    rw [lines]
    exact List.mem_append_right seen List.mem_cons_self
  cases data : line.1.payload with
  | none =>
    have same : payloadsOf (seen ++ [line]) = payloadsOf seen := by simp [payloadsOf, data]
    rw [readLine_other plain member data]
    refine ⟨reading.calm, reading.usage, ?_⟩
    rw [same]
    rcases reading.progress with ⟨clean, all, small, short⟩ | spoiled
    · refine .inl ⟨clean, all, small, ?_⟩
      intro other listed
      rcases List.mem_append.1 listed with before | last
      · exact short other before
      · rw [List.mem_singleton.1 last]
        exact plain.short line member data
    · exact .inr spoiled
  | some payload =>
    have more : payloadsOf (seen ++ [line]) = payloadsOf seen ++ [payload] := by simp [payloadsOf, data]
    have all : event.payloads = payloadsOf seen ++ [payload] ++ payloadsOf rest := by
      rw [Event.payloads, lines]
      simp [payloadsOf, data]
    have count : event.payloads.length = (payloadsOf seen).length + 1 + (payloadsOf rest).length := by
      rw [all, List.length_append, List.length_append, List.length_singleton]
    -- What has been read since the event began anew is no JSON value yet.
    have unsettled : ∀ skipped ≤ (payloadsOf seen).length, (skipped = 0 ∨ ¬ event.Fits) →
        scanner.eventData = joined ((payloadsOf seen).drop skipped) → scanner.settle fromSlice = scanner := by
      intro skipped inside which here
      have none := whole skipped ((payloadsOf seen).length - skipped) which (by omega)
      have front : ((event.payloads.drop skipped).take ((payloadsOf seen).length - skipped)) =
          (payloadsOf seen).drop skipped := by
        rw [all, List.append_assoc, List.drop_append_of_le_length inside]
        exact List.take_left' (List.length_drop ..)
      rw [front, ← here] at none
      rw [settle, none, if_neg]
      simp
    -- After a line that is too much, the data begins anew.
    have spoiled : ¬ event.Fits → Reading event start (seen ++ [line])
        { scanner with eventData := [], eventOverflowed := true } := by
      intro unfit
      refine ⟨reading.calm, reading.usage, .inr ⟨rfl, unfit, _, Nat.le_refl _, ?_⟩⟩
      rw [List.drop_length]
      rfl
    rw [readLine_data plain member data]
    split
    case isFalse long =>
      exact spoiled fun fits => long (fits.2 line member)
    case isTrue room =>
      rcases reading.progress with ⟨clean, here, small, short⟩ | ⟨overflowed, unfit, skipped, inside, here⟩
      · rw [unsettled 0 (Nat.zero_le _) (.inl rfl) here, appendData_eq, here, ← joined_append, ← more]
        split
        case isTrue large =>
          apply spoiled
          intro fits
          have longer := joined_length_le (payloadsOf (seen ++ [line])) (payloadsOf rest)
          rw [more, ← all, ← more] at longer
          have total : (joined event.payloads).length ≤ maxEventBytes := fits.1
          omega
        case isFalse fitting =>
          refine ⟨reading.calm, reading.usage, .inl ⟨clean, rfl, by omega, ?_⟩⟩
          intro other listed
          rcases List.mem_append.1 listed with before | last
          · exact short other before
          · rw [List.mem_singleton.1 last]
            exact room
      · have later : (payloadsOf (seen ++ [line])).drop skipped = (payloadsOf seen).drop skipped ++ [payload] := by
          rw [more, List.drop_append_of_le_length inside]
        rw [unsettled skipped inside (.inr unfit) here, appendData_eq, here, ← joined_append, ← later]
        split
        case isTrue large => exact spoiled unfit
        case isFalse fitting =>
          refine ⟨reading.calm, reading.usage, .inr ⟨overflowed, unfit, skipped, ?_, rfl⟩⟩
          rw [more, List.length_append]
          omega

theorem reading_lines (plain : event.Plain fromSlice) (whole : event.Whole fromSlice) {seen rest : List (Line × Bool)}
    (lines : event.lines = seen ++ rest) (reading : Reading event start seen scanner) :
    Reading event start event.lines ((rest.map rawLine).foldl (readLine fromSlice) scanner) := by
  induction rest generalizing seen scanner with
  | nil =>
    rw [lines, List.append_nil]
    exact reading
  | cons line rest ih =>
    have further := reading_step plain whole lines reading
    apply ih _ further
    rw [lines, List.append_assoc, List.singleton_append]

def added (usage : ProviderUsage) (event : Option ProviderUsage) : ProviderUsage := event.elim usage usage.merge

theorem consumeEvent_reading (reader : JsonReader fromSlice) (reading : Reading event start event.lines scanner) :
    scanner.consumeEvent fromSlice = { usage := added start (event.usage fromSlice) } := by
  obtain ⟨⟨pending, calm⟩, usage, progress⟩ := reading
  rcases progress with ⟨clean, here, small, short⟩ | ⟨overflowed, unfit, _⟩
  · have fits : event.Fits := ⟨small, short⟩
    change scanner.eventData = event.data at here
    rw [Event.usage, if_pos fits, consumeEvent, clean, if_neg Bool.false_ne_true, here, ← usage]
    split
    case isTrue nothing =>
      have none : fromSlice event.data = none := by
        rcases nothing with empty | done
        · rw [empty]
          exact reader.empty
        · rw [done]
          exact reader.done
      rw [none]
      cases scanner
      simp_all [added]
    case isFalse =>
      cases fromSlice event.data with
      | none =>
        cases scanner
        simp_all [added]
      | some value =>
        cases scanner
        simp_all [added]
  · rw [Event.usage, if_neg unfit, consumeEvent, if_pos overflowed, ← usage]
    cases scanner
    simp_all [added]

/-! ### From one event to the next -/

structure Holding (fromSlice : List UInt8 → Option Value) (scanner : ProviderUsageScanner) : Prop where
  calm : scanner.Calm
  clean : scanner.eventOverflowed = false
  complete : (fromSlice scanner.eventData).isSome = true

theorem settle_holding (reader : JsonReader fromSlice) (holding : Holding fromSlice scanner) :
    scanner.settle fromSlice = scanner.consumeEvent fromSlice := by
  have filled : scanner.eventData ≠ [] := by
    intro empty
    have complete := holding.complete
    rw [empty, reader.empty] at complete
    cases complete
  rw [settle, if_pos ⟨filled, holding.complete⟩]

theorem lines_holding (reader : JsonReader fromSlice) (plain : event.Plain fromSlice) (fits : event.Fits)
    (holding : Holding fromSlice scanner) (next : scanner.consumeEvent fromSlice = { usage := usage })
    {lines : List (Line × Bool)} (among : ∀ line ∈ lines, line ∈ event.lines) :
    (lines.map rawLine).foldl (readLine fromSlice) scanner =
      if payloadsOf lines = [] then scanner else (lines.map rawLine).foldl (readLine fromSlice) { usage := usage } := by
  induction lines with
  | nil => rfl
  | cons line lines ih =>
    have member := among line List.mem_cons_self
    have rest := ih fun other listed => among other (List.mem_cons_of_mem line listed)
    rw [List.map_cons, List.foldl_cons, List.foldl_cons]
    cases data : line.1.payload with
    | none =>
      have same : payloadsOf (line :: lines) = payloadsOf lines := by simp [payloadsOf, data]
      rw [readLine_other plain member data, readLine_other plain member data, same]
      exact rest
    | some payload =>
      have filled : payloadsOf (line :: lines) ≠ [] := by simp [payloadsOf, data]
      have room := fits.2 line member
      have settled : settle fromSlice { usage := usage } = { usage := usage } := by simp [settle]
      rw [if_neg filled, readLine_data plain member data, readLine_data plain member data, if_pos room, if_pos room,
        settle_holding reader holding, next, settled]

/-- Before an event: either nothing waits, or a value does, and the event is not too long. -/
def Before (fromSlice : List UInt8 → Option Value) (usage : ProviderUsage) (event : Event)
    (scanner : ProviderUsageScanner) : Prop :=
  scanner = { usage := usage } ∨
    Holding fromSlice scanner ∧ scanner.consumeEvent fromSlice = { usage := usage } ∧ event.Fits

theorem event_read (reader : JsonReader fromSlice) (plain : event.Plain fromSlice) (whole : event.Whole fromSlice)
    (before : Before fromSlice usage event scanner) :
    let after := (event.lines.map rawLine).foldl (readLine fromSlice) scanner
    after.consumeEvent fromSlice = { usage := added usage (event.usage fromSlice) } ∧
      (event.Fits → (fromSlice event.data).isSome = true → Holding fromSlice after) := by
  intro after
  have fresh : Reading event usage [] { usage := usage } := by
    refine ⟨⟨rfl, rfl⟩, rfl, .inl ⟨rfl, rfl, Nat.zero_le _, ?_⟩⟩
    intro line none
    cases none
  have whole : Reading event usage event.lines
      ((event.lines.map rawLine).foldl (readLine fromSlice) { usage := usage }) :=
    reading_lines plain whole rfl fresh
  have anew : after = (event.lines.map rawLine).foldl (readLine fromSlice) { usage := usage } →
      after.consumeEvent fromSlice = { usage := added usage (event.usage fromSlice) } ∧
        (event.Fits → (fromSlice event.data).isSome = true → Holding fromSlice after) := by
    intro same
    rw [same]
    constructor
    · exact consumeEvent_reading reader whole
    · intro fits complete
      rcases whole.progress with ⟨clean, here, _⟩ | ⟨_, unfit, _⟩
      · refine ⟨whole.calm, clean, ?_⟩
        rw [here]
        exact complete
      · exact absurd fits unfit
  rcases before with ready | ⟨holding, next, fits⟩
  · exact anew (by rw [← ready])
  · have lines : after = _ := lines_holding reader plain fits holding next fun _ member => member
    by_cases undated : payloadsOf event.lines = []
    · rw [if_pos undated] at lines
      have empty : fromSlice event.data = none := by
        have nothing : event.data = [] := by
          rw [Event.data, show event.payloads = [] from undated]
          rfl
        rw [nothing]
        exact reader.empty
      rw [lines, Event.usage, if_pos fits, empty]
      exact ⟨next, fun _ complete => nomatch complete⟩
    · rw [if_neg undated] at lines
      exact anew lines

theorem readLine_blank (cr : Bool) : scanner.readLine fromSlice (ending cr) = scanner.consumeEvent fromSlice := by
  have bare : stripCr (ending cr) = [] := by
    cases cr
    · rfl
    · rfl
  have short : (ending cr).length < maxLineBytes := by
    cases cr
    · decide
    · decide
  rw [readLine, if_pos short, consumeLine, bare]
  rfl

theorem blanks_read (blanks : List Bool) (ends : scanner.consumeEvent fromSlice = { usage := usage }) :
    (blanks.map ending).foldl (readLine fromSlice) scanner = if blanks = [] then scanner else { usage := usage } := by
  induction blanks generalizing scanner with
  | nil => rfl
  | cons cr blanks ih =>
    have rest : (blanks.map ending).foldl (readLine fromSlice) { usage := usage } = _ := ih (consumeEvent_ready usage)
    rw [List.map_cons, List.foldl_cons, readLine_blank, ends, rest, if_neg (List.cons_ne_nil cr blanks), ite_self]

theorem events_read (reader : JsonReader fromSlice) (plain : ∀ event ∈ events, event.Plain fromSlice)
    (whole : ∀ event ∈ events, event.Whole fromSlice) (apart : events.IsChain (Event.Apart fromSlice))
    (before : ∀ event, events.head? = some event → Before fromSlice usage event scanner)
    (ends : scanner.consumeEvent fromSlice = { usage := usage }) :
    ((events.flatMap Event.texts).foldl (readLine fromSlice) scanner).consumeEvent fromSlice =
      { usage := (events.map (Event.usage fromSlice)).foldl added usage } := by
  induction events generalizing scanner usage with
  | nil => exact ends
  | cons event events ih =>
    have ⟨counted, held⟩ := event_read reader (plain event List.mem_cons_self) (whole event List.mem_cons_self)
      (before event rfl)
    rw [List.flatMap_cons, List.foldl_append, Event.texts, List.foldl_append, blanks_read event.blanks counted,
      List.map_cons, List.foldl_cons]
    apply ih (fun other member => plain other (List.mem_cons_of_mem event member))
      (fun other member => whole other (List.mem_cons_of_mem event member)) apart.tail
    · intro next first
      split
      case isFalse => exact .inl rfl
      case isTrue unblank =>
        have apart : event.Apart fromSlice next := by
          obtain ⟨rest, rfl⟩ : ∃ rest, events = next :: rest := List.head?_eq_some_iff.1 first
          exact apart.rel
        rcases apart with blank | ⟨fits, later, complete⟩
        · exact absurd unblank blank
        · exact .inr ⟨held fits complete, counted, later⟩
    · split
      · exact counted
      · exact consumeEvent_ready _

/-! ### The whole body -/

theorem finish_cut (calm : scanner.Calm) (plain : 10 ∉ text) (fits : text.length ≤ maxLineBytes) :
    finish fromSlice (push fromSlice scanner text) =
      ((scanner.consumeLine fromSlice text).consumeEvent fromSlice).usage := by
  obtain ⟨empty, short⟩ := calm
  have part : push fromSlice scanner text = _ := push_part plain (by rw [empty]; exact Nat.zero_le _)
  have within : decide (maxLineBytes < text.length) = false := by
    rw [decide_eq_false_iff_not]
    omega
  have same : ({ scanner with pending := [], lineOverflowed := false } : ProviderUsageScanner) = scanner := by
    cases scanner
    simp only at empty short
    rw [empty, short]
  rw [empty, short, List.nil_append, List.length_nil, Nat.zero_add, Bool.false_or, within,
    List.take_of_length_le fits] at part
  rw [part, finish]
  dsimp only
  by_cases nothing : text = []
  · have again : (scanner.consumeLine fromSlice text).consumeEvent fromSlice =
        (scanner.consumeEvent fromSlice).consumeEvent fromSlice := by
      rw [nothing]
      rfl
    rw [if_neg (fun held => held.1 nothing), again, nothing, same]
    unfold consumeEvent
    split
    · simp
    · split
      · simp_all
      · split
        · simp_all
        · simp_all
  · rw [if_pos ⟨nothing, by rfl⟩, same]

theorem finish_calm (calm : scanner.Calm) : finish fromSlice scanner = (scanner.consumeEvent fromSlice).usage := by
  rw [finish, if_neg fun held => held.1 calm.1]

theorem finish_lines {texts : List (List UInt8)} (plain : ∀ text ∈ texts, 10 ∉ text)
    (last : ∀ text, texts.getLast? = some text → text.length < maxLineBytes) {sent : List UInt8}
    (same : sent = texts.flatMap (· ++ [10]) ∨ sent ++ [10] = texts.flatMap (· ++ [10])) :
    finish fromSlice (push fromSlice {} sent) =
      ((texts.foldl (readLine fromSlice) {}).consumeEvent fromSlice).usage := by
  have fresh : ({} : ProviderUsageScanner).Calm := ⟨rfl, rfl⟩
  rcases same with whole | cut
  · have ⟨read, calm⟩ : push fromSlice {} (texts.flatMap (· ++ [10])) = _ ∧ _ := push_lines fresh plain
    rw [whole, read, finish_calm calm]
  · cases texts using List.reverseRecOn with
    | nil =>
      have size := congrArg List.length cut
      simp at size
    | append_singleton front text =>
      have short : text.length < maxLineBytes := last text List.getLast?_concat
      have sent : sent = front.flatMap (· ++ [10]) ++ text := by
        rw [List.flatMap_append, List.flatMap_singleton, ← List.append_assoc] at cut
        exact List.append_cancel_right cut
      have ⟨read, calm⟩ : push fromSlice {} (front.flatMap (· ++ [10])) = _ ∧ _ := push_lines fresh
        fun other member => plain other (List.mem_append_left [text] member)
      rw [sent, push_append, read, finish_cut calm (plain text (List.mem_append_right front (List.mem_singleton_self text)))
        (Nat.le_of_lt short), List.foldl_append, List.foldl_cons, List.foldl_nil, readLine, if_pos short]

theorem event_last (filled : event.lines ≠ []) (ends : event.Fits ∨ event.blanks ≠ []) {front : List (List UInt8)}
    (final : (front ++ event.texts).getLast? = some text) :
    text.length < maxLineBytes := by
  rw [Event.texts, ← List.append_assoc] at final
  by_cases unblank : event.blanks = []
  · have fits : event.Fits := by
      rcases ends with fits | blank
      · exact fits
      · exact absurd unblank blank
    have lined : (event.lines.map rawLine).getLast? = some text := by
      rw [unblank, List.map_nil, List.append_nil, List.getLast?_append_of_ne_nil _
        fun empty => filled (List.map_eq_nil_iff.1 empty)] at final
      exact final
    obtain ⟨line, among, rfl⟩ := List.mem_map.1 (List.mem_of_getLast? lined)
    exact fits.2 line among
  · rw [List.getLast?_append_of_ne_nil _ fun empty => unblank (List.map_eq_nil_iff.1 empty)] at final
    obtain ⟨cr, -, rfl⟩ := List.mem_map.1 (List.mem_of_getLast? final)
    cases cr
    · decide
    · decide

theorem document_read (reader : JsonReader fromSlice) (json : fromSlice text = some value) :
    (({} : ProviderUsageScanner).consumeLine fromSlice text).consumeEvent fromSlice =
      { usage := .fromValue value } := by
  have stripped : fromSlice (stripCr text) = some value := by
    unfold stripCr
    split
    case isFalse => exact json
    case isTrue ends =>
      rw [← reader.carriageReturn, ← json]
      congr 1
      obtain ⟨front, rfl⟩ := List.getLast?_eq_some_iff.1 ends
      rw [List.dropLast_concat]
  rw [consumeLine]
  dsimp only
  generalize stripCr text = line at stripped
  have filled : line ≠ [] := by
    intro empty
    rw [empty, reader.empty] at stripped
    cases stripped
  have uncommented : line.head? ≠ some 58 := by
    intro colon
    obtain ⟨rest, rfl⟩ := List.head?_eq_some_iff.1 colon
    rw [reader.colon] at stripped
    cases stripped
  have undata : (utf8 "data:").isPrefixOf? line = none := by
    cases data : (utf8 "data:").isPrefixOf? line with
    | none => rfl
    | some rest =>
      rw [List.isPrefixOf?_eq_some_iff_append_eq] at data
      rw [← data, reader.data] at stripped
      cases stripped
  rw [if_neg filled, if_neg uncommented, undata, stripped]
  dsimp only
  rw [ProviderUsage.merge_first, consumeEvent_ready]

end Step

variable {fromSlice : List UInt8 → Option Value}

theorem scan_document (reader : JsonReader fromSlice) {chunks : List (List UInt8)}
    (json : (fromSlice chunks.flatten).isSome = true) (short : chunks.flatten.length ≤ maxLineBytes)
    (oneLine : 10 ∉ chunks.flatten.dropLast) : scan fromSlice chunks = .fromBytes fromSlice chunks.flatten := by
  rw [scan_flatten]
  generalize chunks.flatten = sent at json short oneLine
  obtain ⟨value, json⟩ := Option.isSome_iff_exists.1 json
  have reported : ProviderUsage.fromBytes fromSlice sent = .fromValue value := by
    rw [ProviderUsage.fromBytes, json]
    rfl
  have fresh : ({} : ProviderUsageScanner).Calm := ⟨rfl, rfl⟩
  rw [reported]
  by_cases plain : 10 ∈ sent
  · -- The line feed at the end.
    obtain ⟨text, rfl⟩ : ∃ text, sent = text ++ [10] := by
      cases sent using List.reverseRecOn with
      | nil => cases plain
      | append_singleton text byte =>
        rw [List.dropLast_concat] at oneLine
        rcases List.mem_append.1 plain with inside | last
        · exact absurd inside oneLine
        · exact ⟨text, by rw [List.mem_singleton.1 last]⟩
    rw [List.dropLast_concat] at oneLine
    rw [List.length_append, List.length_singleton] at short
    have read : push fromSlice {} (text ++ [10]) = _ := push_line fresh oneLine
    rw [reader.lineFeed] at json
    have fits : text.length < maxLineBytes := by omega
    rw [read, finish_calm (readLine_calm fresh text), readLine, if_pos fits, document_read reader json]
  · have read : finish fromSlice (push fromSlice {} sent) = _ := finish_cut fresh plain short
    rw [read, document_read reader json]

theorem foldl_added (usage : ProviderUsage) :
    (events.map (Event.usage fromSlice)).foldl added usage =
      (events.filterMap (Event.usage fromSlice)).foldl ProviderUsage.merge usage := by
  induction events generalizing usage with
  | nil => rfl
  | cons event events ih =>
    rw [List.map_cons, List.foldl_cons, ih]
    cases counted : event.usage fromSlice with
    | none =>
      rw [List.filterMap_cons_none counted]
      rfl
    | some other =>
      rw [List.filterMap_cons_some counted]
      rfl

theorem scan_events (reader : JsonReader fromSlice) {chunks : List (List UInt8)} (stream : Stream fromSlice events)
    (sent : chunks.flatten = body events ∨ chunks.flatten ++ [10] = body events) :
    scan fromSlice chunks = (events.filterMap (Event.usage fromSlice)).foldl ProviderUsage.merge {} := by
  have unended : ∀ cr, 10 ∉ ending cr := by decide
  have plain : ∀ text ∈ events.flatMap Event.texts, 10 ∉ text := by
    intro text member
    obtain ⟨event, listed, inside⟩ := List.mem_flatMap.1 member
    rcases List.mem_append.1 inside with lined | blank
    · obtain ⟨line, among, rfl⟩ := List.mem_map.1 lined
      have oneLine := (stream.plain event listed).oneLine line among
      rw [rawLine, List.mem_append]
      rintro (within | after)
      · exact oneLine within
      · exact unended line.2 after
    · obtain ⟨cr, -, rfl⟩ := List.mem_map.1 blank
      exact unended cr
  have last : ∀ text, (events.flatMap Event.texts).getLast? = some text → text.length < maxLineBytes := by
    intro text final
    cases events using List.reverseRecOn with
    | nil => cases final
    | append_singleton front event =>
      have listed : event ∈ front ++ [event] := List.mem_append_right front (List.mem_singleton_self event)
      rw [List.flatMap_append, List.flatMap_singleton] at final
      exact event_last (stream.plain event listed).filled (stream.last event List.getLast?_concat) final
  have before : ∀ event, events.head? = some event → Before fromSlice {} event {} := fun _ _ => .inl rfl
  have read := events_read reader stream.plain stream.whole stream.apart before (consumeEvent_ready {})
  rw [scan_flatten, finish_lines plain last sent, read, foldl_added]

/-- The scanner reads what the body says, however it is split into chunks: the usage of a JSON document in one line,
and of every event of a stream that is not too long. -/
theorem scan_exact (reader : JsonReader fromSlice) (chunks : List (List UInt8)) :
    ((fromSlice chunks.flatten).isSome = true → chunks.flatten.length ≤ maxLineBytes → 10 ∉ chunks.flatten.dropLast →
      scan fromSlice chunks = .fromBytes fromSlice chunks.flatten) ∧
    ∀ events, Stream fromSlice events →
      (chunks.flatten = body events ∨ chunks.flatten ++ [10] = body events) →
      scan fromSlice chunks = (events.filterMap (Event.usage fromSlice)).foldl ProviderUsage.merge {} := by
  constructor
  · intro json short oneLine
    exact scan_document reader json short oneLine
  · intro events stream sent
    exact scan_events reader stream sent

end ProviderUsageScanner

/-! ### A reader of one document -/

def lineEnd (byte : UInt8) : Bool := byte = 10 || byte = 13

def oneDocument (document : List UInt8) (value : Value) (text : List UInt8) : Option Value :=
  if text.rdropWhile lineEnd = document then some value else none

theorem oneDocument_other {document : List UInt8} {byte : UInt8} (first : document.head? = some byte)
    (other : text.head? ≠ some byte) : oneDocument document value text = none := by
  rw [oneDocument, if_neg]
  rintro rfl
  obtain ⟨rest, front⟩ := List.head?_eq_some_iff.1 first
  obtain ⟨more, whole⟩ := text.rdropWhile_prefix lineEnd
  rw [front] at whole
  rw [← whole] at other
  exact other rfl

theorem oneDocument_reader {document : List UInt8} (first : document.head? = some 123) :
    JsonReader (oneDocument document value) where
  empty := oneDocument_other first (by decide)
  done := oneDocument_other first (by decide)
  colon rest := oneDocument_other first (by simp)
  data rest := by
    apply oneDocument_other first
    have front : utf8 "data:" = 100 :: (utf8 "data:").tail := by decide
    rw [front]
    simp
  lineFeed text := by
    rw [oneDocument, oneDocument, List.rdropWhile_concat_pos lineEnd text 10 (by decide)]
  carriageReturn text := by
    rw [oneDocument, oneDocument, List.rdropWhile_concat_pos lineEnd text 13 (by decide)]

namespace ProviderUsageScanner

def fiveTokens : Value := .object [("usage", .object [("input_tokens", .number (.posInt 5))])]

/-- `{"usage":{"input_tokens":5}}` -/
def fiveText : List UInt8 := utf8 "\x7b\"usage\":\x7b\"input_tokens\":5\x7d\x7d"

/-- The document by itself, and in a stream after a comment; the last line feed is missing. -/
theorem scan_exact_split :
    scan (oneDocument fiveText fiveTokens) [fiveText.take 7, fiveText.drop 7] =
      .fromBytes (oneDocument fiveText fiveTokens) fiveText ∧
    scan (oneDocument fiveText fiveTokens) [utf8 ": hello\r\nda", utf8 "ta: " ++ fiveText] =
      { reported := true, inputTokens := 5 } := by
  have reader : JsonReader (oneDocument fiveText fiveTokens) := oneDocument_reader (by decide)
  constructor
  · apply (scan_exact reader [fiveText.take 7, fiveText.drop 7]).1
    · decide
    · decide
    · decide
  · have stream : Stream (oneDocument fiveText fiveTokens)
        [⟨[(.comment (utf8 " hello"), true), (.data true fiveText, false)], []⟩] := by
      have lines : ∀ line ∈ [((Line.comment (utf8 " hello"), true) : Line × Bool), (.data true fiveText, false)],
          line = (.comment (utf8 " hello"), true) ∨ line = (.data true fiveText, false) := by simp
      constructor
      · intro event member
        obtain rfl := List.mem_singleton.1 member
        refine ⟨List.cons_ne_nil _ _, by decide, by decide, ?_, ?_, by decide⟩
        · intro line among payload bare
          rcases lines line among with rfl | rfl
          · cases bare
          · cases bare
        · intro line among text other
          rcases lines line among with rfl | rfl
          · cases other
          · cases other
      · intro event member
        obtain rfl := List.mem_singleton.1 member
        intro skipped taken _ few
        have none : skipped = 0 ∧ taken = 0 := by
          have one : skipped + taken < 1 := few
          omega
        rw [none.1, none.2]
        exact reader.empty
      · exact List.isChain_singleton _
      · intro event final
        obtain rfl := Option.some.inj final
        exact .inl (by decide)
    rw [(scan_exact reader _).2 _ stream (.inr (by decide))]
    rfl

/-- `{"usage":` and `{"input_tokens":5}}` -/
def twoLines : List UInt8 := utf8 "\x7b\"usage\":\n\x7b\"input_tokens\":5\x7d\x7d"

/-- A JSON document over two lines is not seen. -/
theorem scan_document_lost : ¬ ∀ fromSlice, JsonReader fromSlice → ∀ chunks : List (List UInt8),
    (fromSlice chunks.flatten).isSome = true → scan fromSlice chunks = .fromBytes fromSlice chunks.flatten := by
  intro exact
  have reader : JsonReader (oneDocument twoLines fiveTokens) := oneDocument_reader (by decide)
  have same := congrArg ProviderUsage.inputTokens (exact _ reader [twoLines] (by decide))
  revert same
  decide +kernel

end ProviderUsageScanner

end KiroProxy.Http.UsageScanner

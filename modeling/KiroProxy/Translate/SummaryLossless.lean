import KiroProxy.Lib.Bytes
import KiroProxy.Translate.SummaryFraming
import Mathlib.Logic.Relation

/-! Nothing of a conversation is lost when it is cut into parts; and where the parts fit, but for the framings of
answers that follow answers. -/
namespace KiroProxy.SummaryPartition

open Tokens ToolHistory

/-- What is relied on: decoding inverts encoding, and the texts of two runs of tokens are the text of both. -/
structure Lawful (tokenizer : Tokenizer) : Prop where
  inverts : ∀ text, tokenizer.decode (tokenizer.encodeOrdinary text) = .ok text
  concatenates : ∀ front back before after, tokenizer.decode front = .ok before → tokenizer.decode back = .ok after →
    tokenizer.decode (front ++ back) = .ok (before ++ after)

variable {tokenizer : Tokenizer}

/-! ### Fragments of a text -/

variable {tokens : List Nat} {text : String} {message : ConversationMessage} {parts : List KiroPayload}

theorem fragment_spec {maximum stop : Nat} {length : Nat}
    (found : fragment tokenizer tokens maximum stop = .ok (text, length)) :
    tokenizer.decode (tokens.take length) = .ok text ∧ tokenizer.count text ≤ maximum := by
  induction stop with
  | zero => cases found
  | succ stop ih =>
    unfold fragment at found
    split at found
    case h_1 decoded read =>
      split at found
      case isTrue fits =>
        cases found
        exact ⟨read, fits⟩
      case isFalse => exact ih found
    case h_2 => exact ih found

theorem fragments_spec (lawful : Lawful tokenizer) {maximum left : Nat} {texts : List String}
    (cut : fragments tokenizer maximum left tokens = .ok texts) :
    (∀ text ∈ texts, tokenizer.count text ≤ maximum) ∧ (tokens = [] ∧ texts = [] ∨
      tokenizer.decode tokens = .ok (String.join texts)) := by
  induction left generalizing tokens texts with
  | zero =>
    cases tokens with
    | nil =>
      cases cut
      exact ⟨fun _ member => absurd member List.not_mem_nil, .inl ⟨rfl, rfl⟩⟩
    | cons token more => cases cut
  | succ left ih =>
    cases tokens with
    | nil =>
      cases cut
      exact ⟨fun _ member => absurd member List.not_mem_nil, .inl ⟨rfl, rfl⟩⟩
    | cons token more =>
      unfold fragments at cut
      obtain ⟨⟨text, length⟩, found, cut⟩ := Bytes.bind_ok.1 cut
      obtain ⟨rest, others, cut⟩ := Bytes.bind_ok.1 cut
      cases cut
      obtain ⟨read, fits⟩ := fragment_spec found
      obtain ⟨small, behind⟩ := ih others
      refine ⟨List.forall_mem_cons.2 ⟨fits, small⟩, .inr ?_⟩
      rw [String.join_cons]
      rcases behind with ⟨all, rfl⟩ | behind
      · rw [List.take_of_length_le (List.drop_eq_nil_iff.1 all)] at read
        rw [String.join_nil, String.append_empty]
        exact read
      · have whole := lawful.concatenates _ _ _ _ read behind
        rwa [List.take_append_drop] at whole

theorem splitSummaryText_spec (lawful : Lawful tokenizer) {maximum : Nat} {texts : List String}
    (cut : splitSummaryText tokenizer text maximum = .ok texts) (some : texts ≠ []) :
    (∀ text ∈ texts, tokenizer.count text ≤ maximum) ∧ String.join texts = text := by
  obtain ⟨small, ⟨-, none⟩ | whole⟩ := fragments_spec lawful cut
  · exact absurd none some
  · rw [lawful.inverts] at whole
    exact ⟨small, (Except.ok.inj whole).symm⟩

/-! ### What is said -/

abbrev Said := Bool × String × List KiroDocument

def said : ConversationMessage → Said
  | .user user => (true, user.content, user.documents)
  | .assistant assistant => (false, assistant.content, [])

theorem said_bare (message : ConversationMessage) : said (bare message) = said message := by
  cases message <;> rfl

/-- Some messages are cut into consecutive fragments, the first of which keeps the documents. -/
inductive Cut : List Said → List Said → Prop
  | refl (messages : List Said) : Cut messages messages
  | split {messages front back : List Said} {role : Bool} {text : String} {documents : List KiroDocument}
      (cut : Cut messages (front ++ (role, text, documents) :: back)) (first : String) (more : List String)
      (whole : first ++ String.join more = text) :
      Cut messages (front ++ (role, first, documents) :: more.map (fun text => (role, text, [])) ++ back)

theorem Cut.documents {messages records : List Said} (cut : Cut messages records) :
    records.flatMap (·.2.2) = messages.flatMap (·.2.2) := by
  induction cut with
  | refl => rfl
  | @split front back role text documents cut first more whole ih =>
    rw [← ih]
    have none : (more.map fun text => ((role, text, []) : Said)).flatMap (·.2.2) = [] := by
      rw [List.flatMap_map]
      exact List.flatMap_eq_nil_iff.2 fun _ _ => rfl
    simp only [List.flatMap_append, List.flatMap_cons, none, List.append_nil, List.append_assoc]

def Placeholder (message : ConversationMessage) : Prop :=
  message = .assistant syntheticAssistant ∨
    ∃ template content, content ∈ [beginText, continueText] ∧ message = placeholderUser template content

inductive Framed : List Said → List KiroHistoryMessage → Prop
  | nil : Framed [] []
  | said (message : ConversationMessage) {records : List Said} {items : List KiroHistoryMessage}
      (rest : Framed records items) : Framed (said message :: records) (historyItem message :: items)
  | placeholder {message : ConversationMessage} (held : Placeholder message) {records : List Said}
      {items : List KiroHistoryMessage} (rest : Framed records items) : Framed records (historyItem message :: items)

theorem Framed.framing {records : List Said} {items : List KiroHistoryMessage} (rest : Framed records items)
    (template : KiroUserInputMessage) (last : Option Bool) (role : Bool) :
    Framed records ((framing template last role).map historyItem ++ items) := by
  rcases last with _ | _ | _ <;> cases role
  case none.false => exact .placeholder (.inr ⟨template, beginText, by simp, rfl⟩) rest
  case some.false.false => exact .placeholder (.inr ⟨template, continueText, by simp, rfl⟩) rest
  case some.true.true => exact .placeholder (.inl rfl) rest
  all_goals exact rest

theorem framed_framed (template : KiroUserInputMessage) (last : Option Bool) (messages : List ConversationMessage) :
    Framed (messages.map said) ((framed template last messages).map historyItem) := by
  induction messages generalizing last with
  | nil =>
    rw [framed, ← List.append_nil ((framing template last true).map historyItem)]
    exact Framed.nil.framing template last true
  | cons message rest ih =>
    rw [framed, List.map_append, List.map_cons, List.map_cons, ← said_bare]
    exact ((ih (some (isUser message))).said (bare message)).framing template last (isUser message)

def itemDocuments (item : KiroHistoryMessage) : List KiroDocument := (item.userInputMessage.map (·.documents)).getD []

theorem Framed.documents {records : List Said} {items : List KiroHistoryMessage} (frames : Framed records items) :
    items.flatMap itemDocuments = records.flatMap (·.2.2) := by
  induction frames with
  | nil => rfl
  | said message rest ih =>
    rw [List.flatMap_cons, List.flatMap_cons, ih]
    cases message <;> rfl
  | placeholder held rest ih =>
    rw [List.flatMap_cons, ih]
    rcases held with rfl | ⟨template, content, -, rfl⟩ <;> rfl

/-! ### A message that is cut -/

def retold (text : String) : ConversationMessage → ConversationMessage
  | .user user => .user { user with content := text }
  | .assistant assistant => .assistant { assistant with content := text }

def undocumented : ConversationMessage → ConversationMessage
  | .user user => .user { user with documents := [] }
  | .assistant assistant => .assistant assistant

def textOf : ConversationMessage → String
  | .user user => user.content
  | .assistant assistant => assistant.content

def documentsOf : ConversationMessage → List KiroDocument
  | .user user => user.documents
  | .assistant _ => []

theorem said_eq (message : ConversationMessage) : said message = (isUser message, textOf message, documentsOf message) := by
  cases message <;> rfl

def recordsOf (message : ConversationMessage) (first : String) (more : List String) : List ConversationMessage :=
  retold first message :: more.map fun text => undocumented (retold text message)

theorem recordsOf_said (message : ConversationMessage) (first : String) (more : List String) :
    (recordsOf message first more).map said =
      (isUser message, first, documentsOf message) :: more.map fun text => (isUser message, text, []) := by
  rw [recordsOf, List.map_cons, List.map_map]
  refine congrArg₂ (· :: ·) ?_ (List.map_congr_left fun text _ => ?_) <;> cases message <;> rfl

theorem records_historyItem (message : ConversationMessage) (first : String) (more : List String) :
    records (historyItem message) (first :: more) = (recordsOf message first more).map historyItem := by
  rw [records, recordsOf, List.map_cons, List.map_map]
  refine congrArg₂ (· :: ·) ?_ (List.map_congr_left fun text _ => ?_) <;> cases message <;> rfl

theorem recordsOf_plain (plain : Plain message) (first : String) (more : List String) :
    ∀ record ∈ recordsOf message first more, Plain record := by
  intro record member
  rcases List.mem_cons.1 member with rfl | member
  · cases message <;> exact plain
  · obtain ⟨text, -, rfl⟩ := List.mem_map.1 member
    cases message <;> exact plain

theorem userBill_cost (user : KiroUserInputMessage) : (userBill tokenizer user).cost tokenizer =
    messageOverheadTokens + tokenizer.count user.content + (Bill.sum (user.images.map (imageBill tokenizer))).cost tokenizer +
      (Bill.sum (user.documents.map (documentBill tokenizer))).cost tokenizer +
      (Bill.sum (user.tools.map toolBill)).cost tokenizer + (Bill.sum (user.toolResults.map resultBill)).cost tokenizer := by
  simp only [userBill, Bill.cost_plus]
  simp only [Bill.cost, List.map_cons, List.map_nil, List.sum_cons, List.sum_nil, Nat.add_zero]

theorem assistantBill_cost (assistant : KiroAssistantMessage) : (assistantBill assistant).cost tokenizer =
    messageOverheadTokens + tokenizer.count assistant.content +
      (Bill.sum (assistant.toolUses.map useBill)).cost tokenizer := by
  simp only [assistantBill, Bill.cost_plus]
  simp only [Bill.cost, List.map_cons, List.map_nil, List.sum_cons, List.sum_nil, Nat.add_zero]

theorem itemTokens_user (user : KiroUserInputMessage) :
    itemTokens tokenizer (.user user) = (userBill tokenizer user).cost tokenizer := by
  simp [itemTokens, messageBill, historyItem, Bill.plus]

theorem itemTokens_assistant (assistant : KiroAssistantMessage) :
    itemTokens tokenizer (.assistant assistant) = (assistantBill assistant).cost tokenizer := by
  simp [itemTokens, messageBill, historyItem, Bill.plus]

theorem retold_tokens (message : ConversationMessage) (text : String) :
    aloneTokens tokenizer (retold text message) ≤ aloneTokens tokenizer (retold "" message) + tokenizer.count text ∧
      aloneTokens tokenizer (undocumented (retold text message)) ≤ aloneTokens tokenizer (retold text message) := by
  cases message with
  | user user =>
    have none : (Bill.sum ([].map (documentBill tokenizer))).cost tokenizer = 0 := rfl
    simp only [aloneTokens, retold, undocumented, bare, isUser, itemTokens_user, userBill_cost,
      KiroUserInputMessage.tools, KiroUserInputMessage.toolResults, none]
    omega
  | assistant assistant =>
    simp only [aloneTokens, retold, undocumented, bare, isUser, itemTokens_assistant, assistantBill_cost]
    omega

theorem recordsOf_tokens (message : ConversationMessage) (first : String) (more : List String) {budget : Nat}
    (small : ∀ text ∈ first :: more, tokenizer.count text ≤ budget) :
    ∀ record ∈ recordsOf message first more,
      aloneTokens tokenizer record ≤ aloneTokens tokenizer (retold "" message) + budget := by
  intro record member
  rcases List.mem_cons.1 member with rfl | member
  · exact (retold_tokens message first).1.trans (Nat.add_le_add_left (small first List.mem_cons_self) _)
  · obtain ⟨text, inside, rfl⟩ := List.mem_map.1 member
    refine (retold_tokens message text).2.trans ((retold_tokens message text).1.trans ?_)
    exact Nat.add_le_add_left (small text (List.mem_cons_of_mem _ inside)) _

/-! ### The tokens of a part -/

theorem framedTokens_single (message : ConversationMessage) :
    framedTokens tokenizer none [message] = aloneTokens tokenizer message := by
  rw [framedTokens, framedTokens, aloneTokens]
  omega

section Counted

variable {payload : KiroPayload}

theorem Blank.singleTokens (blank : Blank payload) (plain : Plain message) :
    normalizedTokens tokenizer payload [historyItem message] =
      min (payloadTokens tokenizer payload + aloneTokens tokenizer message) (2 ^ 64 - 1) := by
  have whole : normalizedTokens tokenizer payload ([message].map historyItem) =
      min (payloadTokens tokenizer payload + framedTokens tokenizer none [message]) (2 ^ 64 - 1) :=
    blank.partTokens (List.forall_mem_singleton.2 plain)
  rwa [framedTokens_single] at whole

theorem messageTokens_eq (blank : Blank payload) (plain : Plain message) :
    messageTokens tokenizer payload (historyItem message) =
      min (payloadTokens tokenizer payload + aloneTokens tokenizer message) (2 ^ 64 - 1) -
        baseTokens tokenizer payload := by
  rw [messageTokens, blank.singleTokens plain]

theorem packed_tokens (blank : Blank payload) {maximum counted : Nat} (machine : maximum < 2 ^ 64 - 1)
    (plain : Plain message) (base : baseTokens tokenizer payload ≤ counted)
    (fits : saturatingAdd counted (messageTokens tokenizer payload (historyItem message)) ≤ maximum) :
    saturatingAdd counted (messageTokens tokenizer payload (historyItem message)) =
        counted + aloneTokens tokenizer message ∧
      payloadTokens tokenizer payload + aloneTokens tokenizer message ≤ maximum := by
  rw [messageTokens_eq blank plain] at fits ⊢
  have limit : baseTokens tokenizer payload = min (payloadTokens tokenizer payload) (2 ^ 64 - 1) :=
    estimateKiroPayload_min tokenizer payload
  unfold saturatingAdd at fits ⊢
  omega

theorem fits_alone (blank : Blank payload) {maximum : Nat} (plain : Plain message)
    (fits : payloadTokens tokenizer payload + aloneTokens tokenizer message ≤ maximum) :
    saturatingAdd (baseTokens tokenizer payload) (messageTokens tokenizer payload (historyItem message)) ≤ maximum := by
  rw [messageTokens_eq blank plain]
  have limit : baseTokens tokenizer payload = min (payloadTokens tokenizer payload) (2 ^ 64 - 1) :=
    estimateKiroPayload_min tokenizer payload
  unfold saturatingAdd
  omega

theorem splitMessage_spec (lawful : Lawful tokenizer) (blank : Blank payload) {maximum : Nat}
    (machine : maximum < 2 ^ 64 - 1) (plain : Plain message) {split : List KiroHistoryMessage}
    (cut : splitMessage tokenizer payload maximum (historyItem message) = .ok split) :
    ∃ first more, split = (recordsOf message first more).map historyItem ∧ first ++ String.join more = textOf message ∧
      ∀ record ∈ recordsOf message first more,
        payloadTokens tokenizer payload + aloneTokens tokenizer record ≤ maximum := by
  unfold splitMessage at cut
  obtain ⟨content, read, cut⟩ := Bytes.bind_ok.1 cut
  have same : content = textOf message := by
    cases message <;> exact (Except.ok.inj read).symm
  have emptied : withText (historyItem message) "" = historyItem (retold "" message) := by
    cases message <;> rfl
  have emptyPlain : Plain (retold "" message) := by
    cases message <;> exact plain
  dsimp only at cut
  rw [emptied, blank.singleTokens emptyPlain] at cut
  split at cut
  case isTrue => cases cut
  case isFalse room =>
    obtain ⟨texts, parts, cut⟩ := Bytes.bind_ok.1 cut
    split at cut
    case isTrue => cases cut
    case isFalse several =>
      cases cut
      have some : texts ≠ [] := fun none => several (by rw [none]; exact Nat.zero_lt_two)
      obtain ⟨small, whole⟩ := splitSummaryText_spec lawful parts some
      obtain ⟨first, more, rfl⟩ := List.exists_cons_of_ne_nil some
      refine ⟨first, more, records_historyItem message first more, ?_, fun record member => ?_⟩
      · rw [← String.join_cons, whole, same]
      · have cost := recordsOf_tokens message first more small record member
        omega

end Counted

/-! ### The loop -/

/-- The loop so far: the records of the closed parts, the messages of the open one and those still to be packed. -/
structure Stands (tokenizer : Tokenizer) (payload : KiroPayload) (maximum : Nat) (messages : List Said)
    (packing : Packing) (records : List (List Said)) (opened left : List ConversationMessage) : Prop where
  pending : packing.pending = left.map historyItem
  part : packing.part = opened.map historyItem
  plainPart : ∀ message ∈ opened, Plain message
  plainLeft : ∀ message ∈ left, Plain message
  counted : packing.partTokens = baseTokens tokenizer payload + (opened.map (aloneTokens tokenizer)).sum
  within : opened ≠ [] → packing.partTokens ≤ maximum
  few : packing.parts.length < maxSummaryParts
  framed : List.Forall₂ (fun records part => Framed records part.conversationState.history) records packing.parts
  accepted : ∀ part ∈ packing.parts, validateKiroToolHistory part = .ok ()
  cut : Cut messages (records.flatten ++ (opened.map said ++ left.map said))

def Closes (tokenizer : Tokenizer) (payload : KiroPayload) (maximum : Nat) (packing : Packing) : Prop :=
  packing.part ≠ [] ∧ ∀ message ∈ packing.pending.head?,
    maximum < saturatingAdd packing.partTokens (messageTokens tokenizer payload message)

/-- The answers that follow an answer in the part get longer placeholders than they were charged for, and these cost more
than the room that is left and the placeholders that were charged for but are not needed. -/
def Outgrows (tokenizer : Tokenizer) (maximum : Nat) (packing : Packing) : Prop :=
  let roles := packing.part.map (·.userInputMessage.isSome)
  maximum + adjacent true false roles * (placeholderTokens tokenizer "Continue." + placeholderTokens tokenizer beginText) +
      adjacent false false roles * placeholderTokens tokenizer beginText <
    packing.partTokens + adjacent false false roles * placeholderTokens tokenizer continueText

section Loop

variable {payload : KiroPayload} {maximum : Nat} {messages : List Said} {packing : Packing} {records : List (List Said)}
  {opened left : List ConversationMessage}

theorem closed_framed (blank : Blank payload) (plain : ∀ message ∈ opened, Plain message) :
    Framed (opened.map said) (normalized (withHistory payload (opened.map historyItem))).conversationState.history := by
  obtain ⟨template, same⟩ := normalized_eq (blank.withHistory plain)
  rw [same]
  exact framed_framed template none opened

theorem Stands.closed_fits (blank : Blank payload) (machine : maximum < 2 ^ 64 - 1)
    (stands : Stands tokenizer payload maximum messages packing records opened left) (filled : packing.part ≠ []) :
    maximum < normalizedTokens tokenizer payload packing.part ↔ Outgrows tokenizer maximum packing := by
  have within := stands.within (by rintro rfl; exact filled stands.part)
  have counted := stands.counted
  have roles : packing.part.map (·.userInputMessage.isSome) = opened.map isUser := by
    rw [stands.part, List.map_map]
    exact List.map_congr_left fun message _ => by cases message <;> rfl
  have balance := framedTokens_balance tokenizer none opened
  have limit : baseTokens tokenizer payload = min (payloadTokens tokenizer payload) (2 ^ 64 - 1) :=
    estimateKiroPayload_min tokenizer payload
  unfold Outgrows
  dsimp only
  rw [roles, stands.part, blank.partTokens stands.plainPart]
  simp only [Option.toList_none, List.nil_append, framingTokens] at balance
  omega

variable {next : Packing} {rounds : Nat} {outcome : Except String (List KiroPayload)} {error : String}

theorem pack_goes (goes : pack tokenizer payload maximum packing = .goes next) :
    ∃ message rest, packing.pending = message :: rest ∧
      let tokens := saturatingAdd packing.partTokens (messageTokens tokenizer payload message)
      (tokens ≤ maximum ∧
          next = { packing with pending := rest, part := packing.part ++ [message], partTokens := tokens }) ∨
        maximum < tokens ∧ packing.part ≠ [] ∧ (closed payload packing).length < maxSummaryParts ∧
          next = { packing with
            parts := closed payload packing, part := [], partTokens := baseTokens tokenizer payload } ∨
        maximum < tokens ∧ packing.part = [] ∧
          ∃ split, splitMessage tokenizer payload maximum message = .ok split ∧
            next = { packing with pending := split ++ rest } := by
  unfold pack at goes
  split at goes
  case h_1 => cases goes
  case h_2 message rest pending =>
    refine ⟨message, rest, pending, ?_⟩
    dsimp only at goes ⊢
    split at goes
    case isTrue fits =>
      cases goes
      exact .inl ⟨fits, rfl⟩
    case isFalse large =>
      have large := Nat.lt_of_not_le large
      split at goes
      case isTrue filled =>
        split at goes
        case isTrue => cases goes
        case isFalse few =>
          cases goes
          exact .inr (.inl ⟨large, filled, Nat.lt_of_not_le few, rfl⟩)
      case isFalse empty =>
        split at goes
        case h_1 => cases goes
        case h_2 split cut =>
          cases goes
          exact .inr (.inr ⟨large, not_not.1 empty, split, cut, rfl⟩)

def unfit (tokenizer : Tokenizer) (payload : KiroPayload) (maximum : Nat) (left : List ConversationMessage) : Nat :=
  left.countP fun message => maximum < payloadTokens tokenizer payload + aloneTokens tokenizer message

/-- Fewer messages that do not fit, or one more part, or fewer messages. -/
def Advances (tokenizer : Tokenizer) (payload : KiroPayload) (maximum : Nat) (packing next : Packing)
    (left leftNext : List ConversationMessage) : Prop :=
  unfit tokenizer payload maximum leftNext < unfit tokenizer payload maximum left ∨
  unfit tokenizer payload maximum leftNext = unfit tokenizer payload maximum left ∧
    (packing.parts.length < next.parts.length ∨
      next.parts.length = packing.parts.length ∧ leftNext.length < left.length)

theorem Stands.goes (lawful : Lawful tokenizer) (blank : Blank payload) (machine : maximum < 2 ^ 64 - 1)
    (stands : Stands tokenizer payload maximum messages packing records opened left)
    (goes : pack tokenizer payload maximum packing = .goes next) :
    ∃ recordsNext openedNext leftNext,
      Stands tokenizer payload maximum messages next recordsNext openedNext leftNext ∧
      Advances tokenizer payload maximum packing next left leftNext := by
  obtain ⟨item, items, pending, did⟩ := pack_goes goes
  rw [stands.pending] at pending
  cases left with
  | nil => cases pending
  | cons message rest =>
    obtain ⟨rfl, rfl⟩ := List.cons.inj pending
    have plain := stands.plainLeft message List.mem_cons_self
    have plainRest : ∀ message ∈ rest, Plain message := fun other member =>
      stands.plainLeft other (List.mem_cons_of_mem _ member)
    have base : baseTokens tokenizer payload ≤ packing.partTokens := by
      rw [stands.counted]
      exact Nat.le_add_right _ _
    rcases did with ⟨fits, rfl⟩ | ⟨large, filled, few, rfl⟩ | ⟨large, empty, split, cut, rfl⟩
    case inl =>
      obtain ⟨counts, alone⟩ := packed_tokens blank machine plain base fits
      refine ⟨records, opened ++ [message], rest, ⟨rfl, ?_, ?_, plainRest, ?_, fun _ => fits, stands.few, stands.framed,
        stands.accepted, ?_⟩, ?_⟩
      · rw [stands.part, List.map_append, List.map_singleton]
      · exact List.forall_mem_append.2 ⟨stands.plainPart, List.forall_mem_singleton.2 plain⟩
      · dsimp only
        rw [counts, stands.counted, List.map_append, List.map_singleton, List.sum_append, List.sum_singleton,
          Nat.add_assoc]
      · have cut := stands.cut
        rw [List.map_cons] at cut
        rw [List.map_append, List.map_singleton, List.append_assoc]
        exact cut
      · right
        refine ⟨?_, .inr ⟨rfl, Nat.lt_succ_self _⟩⟩
        rw [unfit, unfit, List.countP_cons_of_neg (by simpa using alone)]
    case inr.inl =>
      refine ⟨records ++ [opened.map said], [], message :: rest, ⟨stands.pending, rfl, ?_, stands.plainLeft, rfl, ?_, few,
        ?_, ?_, ?_⟩, ?_⟩
      · exact fun _ member => absurd member List.not_mem_nil
      · exact fun filled => absurd rfl filled
      · refine List.rel_append stands.framed (.cons ?_ .nil)
        rw [stands.part]
        exact closed_framed blank stands.plainPart
      · intro part member
        rcases List.mem_append.1 member with old | new
        · exact stands.accepted part old
        · obtain rfl := List.mem_singleton.1 new
          exact (sanitize_validates _).1
      · have cut := stands.cut
        rw [← List.append_assoc] at cut
        rw [List.flatten_append, List.flatten_singleton]
        exact cut
      · right
        refine ⟨rfl, .inl ?_⟩
        rw [closed, List.length_append]
        exact Nat.lt_succ_self _
    case inr.inr =>
      have none : opened = [] := List.map_eq_nil_iff.1 (stands.part.symm.trans empty)
      have single : packing.partTokens = baseTokens tokenizer payload := by
        rw [stands.counted, none]
        rfl
      obtain ⟨first, more, rfl, whole, small⟩ := splitMessage_spec lawful blank machine plain cut
      have unfits : maximum < payloadTokens tokenizer payload + aloneTokens tokenizer message := by
        by_contra fits
        rw [single] at large
        exact absurd (fits_alone blank plain (Nat.le_of_not_lt fits)) (Nat.not_le_of_lt large)
      refine ⟨records, opened, recordsOf message first more ++ rest, ⟨?_, stands.part, stands.plainPart, ?_,
        stands.counted, stands.within, stands.few, stands.framed, stands.accepted, ?_⟩, .inl ?_⟩
      · rw [List.map_append]
      · exact List.forall_mem_append.2 ⟨recordsOf_plain plain first more, plainRest⟩
      · have before := stands.cut
        rw [List.map_cons, said_eq, ← List.append_assoc] at before
        have after := before.split first more whole
        rw [List.map_append, recordsOf_said, ← List.append_assoc, ← List.append_assoc]
        exact after
      · have fit : (recordsOf message first more).countP (fun message =>
            decide (maximum < payloadTokens tokenizer payload + aloneTokens tokenizer message)) = 0 :=
          List.countP_eq_zero.2 fun record member => by simpa using small record member
        rw [unfit, unfit, List.countP_append, fit, List.countP_cons_of_pos (by simpa using unfits)]
        omega

/-! ### The run -/

theorem packAll_ends (lawful : Lawful tokenizer) (blank : Blank payload) (machine : maximum < 2 ^ 64 - 1)
    (packing : Packing) (records : List (List Said)) (opened left : List ConversationMessage)
    (stands : Stands tokenizer payload maximum messages packing records opened left) :
    ∃ rounds outcome, packAll tokenizer payload maximum rounds packing = some outcome := by
  cases made : pack tokenizer payload maximum packing with
  | ends outcome => exact ⟨1, outcome, by rw [packAll, made]⟩
  | goes next =>
    obtain ⟨recordsNext, openedNext, leftNext, standsNext, advances⟩ := stands.goes lawful blank machine made
    have few := standsNext.few
    obtain ⟨rounds, outcome, ended⟩ := packAll_ends lawful blank machine next recordsNext openedNext leftNext standsNext
    exact ⟨rounds + 1, outcome, by rw [packAll, made]; exact ended⟩
termination_by (unfit tokenizer payload maximum left, maxSummaryParts - packing.parts.length, left.length)
decreasing_by
  rcases advances with fewer | ⟨same, more | ⟨parts, shorter⟩⟩
  · exact Prod.Lex.left _ _ fewer
  · rw [same]
    exact Prod.Lex.right _ (Prod.Lex.left _ _ (by omega))
  · rw [same, parts]
    exact Prod.Lex.right _ (Prod.Lex.right _ shorter)

theorem packAll_more {more : Nat} (ended : packAll tokenizer payload maximum rounds packing = some outcome)
    (enough : rounds ≤ more) :
    packAll tokenizer payload maximum more packing = some outcome := by
  induction rounds generalizing packing more with
  | zero => cases ended
  | succ rounds ih =>
    obtain ⟨more, rfl⟩ := Nat.exists_eq_add_of_le' (Nat.one_le_of_lt enough)
    rw [packAll] at ended ⊢
    cases made : pack tokenizer payload maximum packing with
    | ends => rw [made] at ended; exact ended
    | goes next =>
      rw [made] at ended
      exact ih ended (Nat.le_of_succ_le_succ enough)

def Reaches (tokenizer : Tokenizer) (payload : KiroPayload) (maximum : Nat) : Packing → Packing → Prop :=
  Relation.ReflTransGen fun packing next => pack tokenizer payload maximum packing = .goes next

theorem Stands.reaches (lawful : Lawful tokenizer) (blank : Blank payload) (machine : maximum < 2 ^ 64 - 1)
    (stands : Stands tokenizer payload maximum messages packing records opened left) {last : Packing}
    (reached : Reaches tokenizer payload maximum packing last) :
    ∃ records opened left, Stands tokenizer payload maximum messages last records opened left := by
  induction reached with
  | refl => exact ⟨records, opened, left, stands⟩
  | tail reached goes ih =>
    obtain ⟨records, opened, left, stands⟩ := ih
    obtain ⟨recordsNext, openedNext, leftNext, standsNext, -⟩ := stands.goes lawful blank machine goes
    exact ⟨recordsNext, openedNext, leftNext, standsNext⟩

theorem packAll_last (ended : packAll tokenizer payload maximum rounds packing = some outcome) :
    ∃ last, Reaches tokenizer payload maximum packing last ∧ pack tokenizer payload maximum last = .ends outcome := by
  induction rounds generalizing packing with
  | zero => cases ended
  | succ rounds ih =>
    rw [packAll] at ended
    cases made : pack tokenizer payload maximum packing with
    | ends =>
      rw [made] at ended
      exact ⟨packing, .refl, made.trans (congrArg Turn.ends (Option.some.inj ended))⟩
    | goes next =>
      rw [made] at ended
      obtain ⟨last, reached, ends⟩ := ih ended
      exact ⟨last, .head made reached, ends⟩

theorem Reaches.packAll {later : Packing} (reached : Reaches tokenizer payload maximum packing later)
    (ended : packAll tokenizer payload maximum rounds packing = some outcome) :
    ∃ rest, packAll tokenizer payload maximum rest later = some outcome := by
  induction reached using Relation.ReflTransGen.head_induction_on generalizing rounds with
  | refl => exact ⟨rounds, ended⟩
  | head goes reached ih =>
    cases rounds with
    | zero => cases ended
    | succ rounds =>
      rw [SummaryPartition.packAll, goes] at ended
      exact ih ended

/-! ### The closed parts -/

def refusals : List String :=
  ["summary instructions exceed its model window", "summary input exceeds the 16-part limit",
    "summary history record has no text", "summary instructions or an indivisible document exceed its model window",
    "summary message cannot fit its model window", "summary token budget cannot hold one UTF-8 character",
    "summary text exceeds the 16-part limit"]

theorem fragment_refuses {stop : Nat} (refused : fragment tokenizer tokens maximum stop = .error error) :
    error ∈ refusals := by
  induction stop with
  | zero =>
    cases refused
    simp [refusals]
  | succ stop ih =>
    unfold fragment at refused
    split at refused
    case h_1 =>
      split at refused
      case isTrue => cases refused
      case isFalse => exact ih refused
    case h_2 => exact ih refused

theorem bind_error {A B : Type} {first : Except String A} {rest : A → Except String B}
    (failed : (first >>= rest) = .error error) :
    first = .error error ∨ ∃ value, first = .ok value ∧ rest value = .error error := by
  cases first with
  | error =>
    cases failed
    exact .inl rfl
  | ok value => exact .inr ⟨value, rfl, failed⟩

theorem fragments_refuses {left : Nat} (refused : fragments tokenizer maximum left tokens = .error error) :
    error ∈ refusals := by
  induction left generalizing tokens with
  | zero =>
    cases tokens with
    | nil => cases refused
    | cons token more =>
      cases refused
      simp [refusals]
  | succ left ih =>
    cases tokens with
    | nil => cases refused
    | cons token more =>
      unfold fragments at refused
      rcases bind_error refused with first | ⟨found, -, behind⟩
      · exact fragment_refuses first
      · rcases bind_error behind with rest | ⟨texts, -, made⟩
        · exact ih rest
        · cases made

theorem splitMessage_refuses {message : KiroHistoryMessage}
    (refused : splitMessage tokenizer payload maximum message = .error error) : error ∈ refusals := by
  unfold splitMessage at refused
  rcases bind_error refused with text | ⟨content, -, behind⟩
  · unfold historyText at text
    split at text <;> cases text
    simp [refusals]
  · dsimp only at behind
    split at behind
    case isTrue =>
      cases behind
      simp [refusals]
    case isFalse =>
      rcases bind_error behind with cut | ⟨texts, -, made⟩
      · exact fragments_refuses cut
      · split at made <;> cases made
        simp [refusals]

theorem pack_ends (ends : pack tokenizer payload maximum packing = .ends outcome) :
    (∃ error ∈ refusals, outcome = .error error) ∨ ∃ parts, outcome = .ok parts ∧ parts ≠ [] ∧ packing.pending = [] ∧
      (packing.part = [] ∧ parts = packing.parts ∨ packing.part ≠ [] ∧ parts = closed payload packing) := by
  unfold pack at ends
  split at ends
  case h_1 pending =>
    dsimp only at ends
    have same := Turn.ends.inj ends
    generalize whole : (if packing.part = [] then packing.parts else closed payload packing) = parts at same
    by_cases none : parts = []
    · rw [if_pos none] at same
      exact .inl ⟨_, by simp [refusals], same.symm⟩
    · rw [if_neg none] at same
      refine .inr ⟨parts, same.symm, none, pending, ?_⟩
      by_cases empty : packing.part = []
      · exact .inl ⟨empty, by rw [← whole, if_pos empty]⟩
      · exact .inr ⟨empty, by rw [← whole, if_neg empty]⟩
  case h_2 message rest pending =>
    dsimp only at ends
    split at ends
    case isTrue => cases ends
    case isFalse =>
      split at ends
      case isTrue =>
        split at ends <;> cases ends
        exact .inl ⟨_, by simp [refusals], rfl⟩
      case isFalse =>
        split at ends
        case h_1 error cut =>
          cases ends
          exact .inl ⟨error, splitMessage_refuses cut, rfl⟩
        case h_2 => cases ends

theorem goes_parts (goes : pack tokenizer payload maximum packing = .goes next) :
    next.parts = packing.parts ∧ ¬ Closes tokenizer payload maximum packing ∨
      next.parts = closed payload packing ∧ Closes tokenizer payload maximum packing := by
  obtain ⟨message, rest, pending, ⟨fits, rfl⟩ | ⟨large, filled, -, rfl⟩ | ⟨-, empty, -, -, rfl⟩⟩ := pack_goes goes
  · refine .inl ⟨rfl, fun closes => ?_⟩
    exact Nat.not_le_of_lt (closes.2 message (by rw [pending]; rfl)) fits
  · refine .inr ⟨rfl, filled, fun first found => ?_⟩
    rw [pending] at found
    obtain rfl := Option.some.inj found
    exact large
  · exact .inl ⟨rfl, fun closes => closes.1 empty⟩

theorem reaches_head (goes : pack tokenizer payload maximum packing = .goes next) (state : Packing) :
    Reaches tokenizer payload maximum packing state ↔ state = packing ∨ Reaches tokenizer payload maximum next state := by
  constructor
  · intro reached
    rcases Relation.ReflTransGen.cases_head reached with same | ⟨other, first, rest⟩
    · exact .inl same.symm
    · rw [goes] at first
      obtain rfl := Turn.goes.inj first
      exact .inr rest
  · rintro (rfl | rest)
    · exact .refl
    · exact .head goes rest

theorem reaches_end (ends : pack tokenizer payload maximum packing = .ends outcome) (state : Packing) :
    Reaches tokenizer payload maximum packing state ↔ state = packing := by
  constructor
  · intro reached
    rcases Relation.ReflTransGen.cases_head reached with same | ⟨next, goes, -⟩
    · exact same.symm
    · rw [ends] at goes
      cases goes
  · rintro rfl
    exact .refl

theorem packAll_closed (ended : packAll tokenizer payload maximum rounds packing = some (.ok parts))
    (part : KiroPayload) :
    part ∈ parts ↔ part ∈ packing.parts ∨ ∃ state, Reaches tokenizer payload maximum packing state ∧
      Closes tokenizer payload maximum state ∧ part = normalized (withHistory payload state.part) := by
  have closes_iff : part ∈ closed payload packing ↔
      part ∈ packing.parts ∨ part = normalized (withHistory payload packing.part) := by
    rw [closed, List.mem_append, List.mem_singleton]
  induction rounds generalizing packing with
  | zero => cases ended
  | succ rounds ih =>
    rw [packAll] at ended
    cases made : pack tokenizer payload maximum packing with
    | ends outcome =>
      rw [made] at ended
      have same := Option.some.inj ended
      simp only [reaches_end made, exists_eq_left]
      rcases pack_ends made with ⟨error, -, failed⟩ | ⟨_, whole, -, pending, ⟨empty, all⟩ | ⟨filled, all⟩⟩
      · rw [failed] at same
        cases same
      · obtain rfl := Except.ok.inj (same.symm.trans whole)
        rw [all]
        exact (or_iff_left fun closing => closing.1.1 empty).symm
      · obtain rfl := Except.ok.inj (same.symm.trans whole)
        have closes : Closes tokenizer payload maximum packing := ⟨filled, by simp [pending]⟩
        rw [all, closes_iff, and_iff_right closes]
    | goes next =>
      rw [made] at ended
      have nextClosed : part ∈ closed payload next ↔
          part ∈ next.parts ∨ part = normalized (withHistory payload next.part) := by
        rw [closed, List.mem_append, List.mem_singleton]
      refine (ih ended nextClosed).trans ?_
      simp only [reaches_head made, or_and_right, exists_or, exists_eq_left, ← or_assoc]
      rcases goes_parts made with ⟨same, never⟩ | ⟨same, closes⟩
      · have none : ¬ (Closes tokenizer payload maximum packing ∧
            part = normalized (withHistory payload packing.part)) := fun closing => never closing.1
        rw [same, or_iff_left none]
      · rw [same, closes_iff, and_iff_right closes]

end Loop

/-! ### The whole -/

structure Preserved (tokenizer : Tokenizer) (maximum : Nat) (messages : List ConversationMessage)
    (parts : List KiroPayload) : Prop where
  some : 1 ≤ parts.length
  few : parts.length ≤ maxSummaryParts
  fits : ∀ part ∈ parts, estimateKiroPayload tokenizer part ≤ maximum
  accepted : ∀ part ∈ parts, validateKiroToolHistory part = .ok ()
  lossless : ∃ records, List.Forall₂ (fun records part => Framed records part.conversationState.history) records parts ∧
    Cut (messages.map said) records.flatten
  documents : parts.flatMap (fun part => part.conversationState.history.flatMap itemDocuments) =
    messages.flatMap documentsOf

/-- What is promised of a result: the last check never fails, and parts are the conversation. -/
def Meets (tokenizer : Tokenizer) (maximum : Nat) (messages : List ConversationMessage)
    (result : Except String (List KiroPayload)) : Prop :=
  result ≠ .error "normalized summary part exceeds its model window" ∧
    ∀ parts, result = .ok parts → Preserved tokenizer maximum messages parts

theorem lossless_documents {messages : List ConversationMessage} {records : List (List Said)}
    (framed : List.Forall₂ (fun records part => Framed records part.conversationState.history) records parts)
    (cut : Cut (messages.map said) records.flatten) :
    parts.flatMap (fun part => part.conversationState.history.flatMap itemDocuments) =
      messages.flatMap documentsOf := by
  have whole := cut.documents
  rw [List.flatMap_map] at whole
  have same : messages.flatMap (fun message => (said message).2.2) = messages.flatMap documentsOf := by
    simp only [said_eq]
  rw [← same, ← whole]
  clear whole cut same
  induction framed with
  | nil => rfl
  | cons first rest ih => rw [List.flatMap_cons, List.flatten_cons, List.flatMap_append, ih, first.documents]

theorem finish_cases (tokenizer : Tokenizer) (payload : KiroPayload) (maximum index : Nat) (parts : List KiroPayload) :
    (∀ part ∈ parts, estimateKiroPayload tokenizer part ≤ maximum) ∧
        finish tokenizer payload maximum index parts = .ok ((parts.zipIdx index).map fun entry =>
          numbered payload entry.2 entry.1) ∨
      (∃ part ∈ parts, maximum < estimateKiroPayload tokenizer part) ∧
        finish tokenizer payload maximum index parts = .error "normalized summary part exceeds its model window" := by
  induction parts generalizing index with
  | nil => exact .inl ⟨fun _ member => absurd member List.not_mem_nil, rfl⟩
  | cons part rest ih =>
    unfold finish
    by_cases large : maximum < estimateKiroPayload tokenizer part
    · rw [if_pos large]
      exact .inr ⟨⟨part, List.mem_cons_self, large⟩, rfl⟩
    · rw [if_neg large]
      rcases ih (index + 1) with ⟨fits, done⟩ | ⟨⟨other, member, larger⟩, failed⟩
      · rw [done]
        exact .inl ⟨List.forall_mem_cons.2 ⟨Nat.le_of_not_lt large, fits⟩, rfl⟩
      · rw [failed]
        exact .inr ⟨⟨other, List.mem_cons_of_mem _ member, larger⟩, rfl⟩

theorem mem_numbered {payload : KiroPayload} {index : Nat} {part : KiroPayload}
    (member : part ∈ (parts.zipIdx index).map fun entry => numbered payload entry.2 entry.1) :
    ∃ number, ∃ original ∈ parts, part = numbered payload number original := by
  obtain ⟨⟨original, number⟩, inside, rfl⟩ := List.mem_map.1 member
  exact ⟨number, original, (List.mem_zipIdx inside).2.2 ▸ List.getElem_mem _, rfl⟩

theorem framed_numbered (payload : KiroPayload) {records : List (List Said)} (index : Nat)
    (framed : List.Forall₂ (fun records part => Framed records part.conversationState.history) records parts) :
    List.Forall₂ (fun records part => Framed records part.conversationState.history) records
      ((parts.zipIdx index).map fun entry => numbered payload entry.2 entry.1) := by
  induction framed generalizing index with
  | nil => exact .nil
  | cons first rest ih =>
    rw [List.zipIdx_cons, List.map_cons]
    exact .cons first (ih (index + 1))

section Partition

variable {payload : KiroPayload} {messages : List ConversationMessage} {maximum : Nat}

theorem ToolFree.blank (free : ToolFree payload messages) : Blank (partPayload payload) := ⟨rfl, free.results, free.tools⟩

theorem ToolFree.start (free : ToolFree payload messages) (tokenizer : Tokenizer) (maximum : Nat) :
    Stands tokenizer (partPayload payload) maximum (messages.map said) (start tokenizer payload) [] [] messages where
  pending := free.history
  part := rfl
  plainPart _ member := absurd member List.not_mem_nil
  plainLeft := free.plain
  counted := rfl
  within filled := absurd rfl filled
  few := (by decide : 0 < maxSummaryParts)
  framed := .nil
  accepted _ member := absurd member List.not_mem_nil
  cut := .refl _

theorem ToolFree.preserved (free : ToolFree payload messages)
    (fits : estimateKiroPayload tokenizer (normalized payload) ≤ maximum) :
    Preserved tokenizer maximum messages [normalized payload] := by
  obtain ⟨template, same⟩ := normalized_eq free
  have framed : List.Forall₂ (fun records part => Framed records part.conversationState.history) [messages.map said]
      [normalized payload] := by
    refine .cons ?_ .nil
    rw [same]
    exact framed_framed template none messages
  have cut : Cut (messages.map said) [messages.map said].flatten := by
    rw [List.flatten_singleton]
    exact .refl _
  exact ⟨Nat.le_refl 1, (by decide : 1 ≤ maxSummaryParts), List.forall_mem_singleton.2 fits, List.forall_mem_singleton.2 (sanitize_validates _).1,
    ⟨_, framed, cut⟩, lossless_documents framed cut⟩

theorem packed_preserved (lawful : Lawful tokenizer) (free : ToolFree payload messages)
    (machine : maximum < 2 ^ 64 - 1) {last : Packing}
    (reached : Reaches tokenizer (partPayload payload) maximum (start tokenizer payload) last)
    (ends : pack tokenizer (partPayload payload) maximum last = .ends (.ok parts))
    (fits : ∀ part ∈ parts, estimateKiroPayload tokenizer part ≤ maximum) :
    Preserved tokenizer maximum messages ((parts.zipIdx 0).map fun entry => numbered payload entry.2 entry.1) := by
  obtain ⟨records, opened, left, stands⟩ := (free.start tokenizer maximum).reaches lawful free.blank machine reached
  rcases pack_ends ends with ⟨error, -, failed⟩ | ⟨_, whole, some, pending, all⟩
  · cases failed
  · obtain rfl := Except.ok.inj whole
    have none : left = [] := List.map_eq_nil_iff.1 (stands.pending.symm.trans pending)
    have cut := stands.cut
    rw [none, List.map_nil, List.append_nil] at cut
    have told : parts.length ≤ maxSummaryParts ∧ (∀ part ∈ parts, validateKiroToolHistory part = .ok ()) ∧
        ∃ records, List.Forall₂ (fun records part => Framed records part.conversationState.history) records parts ∧
          Cut (messages.map said) records.flatten := by
      rcases all with ⟨empty, rfl⟩ | ⟨filled, rfl⟩
      · have closed : opened = [] := List.map_eq_nil_iff.1 (stands.part.symm.trans empty)
        rw [closed, List.map_nil, List.append_nil] at cut
        exact ⟨Nat.le_of_lt stands.few, stands.accepted, records, stands.framed, cut⟩
      · refine ⟨?_, ?_, records ++ [opened.map said], List.rel_append stands.framed (.cons ?_ .nil), ?_⟩
        · rw [closed, List.length_append]
          exact stands.few
        · intro part member
          rcases List.mem_append.1 member with old | new
          · exact stands.accepted part old
          · obtain rfl := List.mem_singleton.1 new
            exact (sanitize_validates _).1
        · rw [stands.part]
          exact closed_framed free.blank stands.plainPart
        · rw [List.flatten_append, List.flatten_singleton]
          exact cut
    obtain ⟨few, accepted, records, framed, cut⟩ := told
    have renumbered := framed_numbered payload 0 framed
    refine ⟨?_, ?_, fun part member => ?_, fun part member => ?_, ⟨records, renumbered, cut⟩,
      lossless_documents renumbered cut⟩
    · rw [List.length_map, List.length_zipIdx]
      exact List.length_pos_iff.2 some
    · rw [List.length_map, List.length_zipIdx]
      exact few
    · obtain ⟨number, original, inside, rfl⟩ := mem_numbered member
      exact fits original inside
    · obtain ⟨number, original, inside, rfl⟩ := mem_numbered member
      exact accepted original inside

/-- The partition of a conversation without tools always ends; and it loses nothing, stays within the bound and does not
fail its last check exactly where no closed part is outgrown by its framings, if it is not refused before. -/
theorem partition_lossless_iff (lawful : Lawful tokenizer) (free : ToolFree payload messages) (maximum : Nat) :
    ∃ result, (∃ enough, ∀ rounds, enough ≤ rounds →
        partitionCompactionSummary tokenizer payload maximum rounds = some result) ∧
      (Meets tokenizer maximum messages result ↔
        estimateKiroPayload tokenizer (normalized payload) ≤ maximum ∨
        (∃ state error, Reaches tokenizer (partPayload payload) maximum (start tokenizer payload) state ∧
          pack tokenizer (partPayload payload) maximum state = .ends (.error error)) ∨
        ∀ state, Reaches tokenizer (partPayload payload) maximum (start tokenizer payload) state →
          Closes tokenizer (partPayload payload) maximum state → ¬ Outgrows tokenizer maximum state) := by
  by_cases whole : estimateKiroPayload tokenizer (normalized payload) ≤ maximum
  · refine ⟨.ok [normalized payload], ⟨0, fun rounds _ => if_pos whole⟩, iff_of_true ⟨nofun, ?_⟩ (.inl whole)⟩
    rintro parts ⟨⟩
    exact free.preserved whole
  · have machine : maximum < 2 ^ 64 - 1 := by
      rw [estimateKiroPayload_min] at whole
      omega
    rw [or_iff_right whole]
    obtain ⟨rounds, outcome, ended⟩ := packAll_ends lawful free.blank machine _ _ _ _ (free.start tokenizer maximum)
    obtain ⟨last, reached, ends⟩ := packAll_last ended
    refine ⟨outcome.bind (finish tokenizer payload maximum 0), ⟨rounds, fun more enough => ?_⟩, ?_⟩
    · rw [partitionCompactionSummary, if_neg whole, packAll_more ended enough]
      rfl
    cases outcome with
    | error error =>
      refine iff_of_true ⟨fun same => ?_, nofun⟩ (.inl ⟨last, error, reached, ends⟩)
      rcases pack_ends ends with ⟨_, refused, failed⟩ | ⟨_, made, -⟩
      · obtain rfl := Except.error.inj failed
        obtain rfl := Except.error.inj same
        revert refused
        decide
      · cases made
    | ok parts =>
      have onward : ¬ ∃ state error, Reaches tokenizer (partPayload payload) maximum (start tokenizer payload) state ∧
          pack tokenizer (partPayload payload) maximum state = .ends (.error error) := by
        rintro ⟨state, error, come, refused⟩
        obtain ⟨rest, same⟩ := come.packAll ended
        cases rest with
        | zero => cases same
        | succ rest =>
          rw [packAll, refused] at same
          cases same
      have fit_iff : (∀ part ∈ parts, estimateKiroPayload tokenizer part ≤ maximum) ↔
          ∀ state, Reaches tokenizer (partPayload payload) maximum (start tokenizer payload) state →
            Closes tokenizer (partPayload payload) maximum state → ¬ Outgrows tokenizer maximum state := by
        have small (state : Packing)
            (come : Reaches tokenizer (partPayload payload) maximum (start tokenizer payload) state)
            (closes : Closes tokenizer (partPayload payload) maximum state) :
            estimateKiroPayload tokenizer (normalized (withHistory (partPayload payload) state.part)) ≤ maximum ↔
              ¬ Outgrows tokenizer maximum state := by
          obtain ⟨_, _, _, stands⟩ := (free.start tokenizer maximum).reaches lawful free.blank machine come
          rw [← stands.closed_fits free.blank machine closes.1, Nat.not_lt]
          rfl
        constructor
        · intro fits state come closes
          exact (small state come closes).1 (fits _ ((packAll_closed ended _).2 (.inr ⟨state, come, closes, rfl⟩)))
        · intro never part member
          rcases (packAll_closed ended part).1 member with none | ⟨state, come, closes, rfl⟩
          · exact absurd none List.not_mem_nil
          · exact (small state come closes).2 (never state come closes)
      rw [or_iff_right onward, ← fit_iff]
      rcases finish_cases tokenizer payload maximum 0 parts with ⟨fits, done⟩ | ⟨⟨part, member, large⟩, failed⟩
      · refine iff_of_true ⟨?_, ?_⟩ fits
        · rw [Except.bind, done]
          nofun
        · rw [Except.bind, done]
          rintro _ ⟨⟩
          exact packed_preserved lawful free machine reached ends fits
      · refine iff_of_false (fun meets => meets.1 ?_) fun fits => Nat.not_le_of_lt large (fits part member)
        rw [Except.bind, failed]

end Partition

section Sample

def fromTokens (tokens : List Nat) : ByteArray := ⟨(tokens.map UInt8.ofNat).toArray⟩

def bytes : Tokenizer where
  encodeOrdinary text := text.toByteArray.data.toList.map UInt8.toNat
  decode tokens :=
    if valid : (fromTokens tokens).IsValidUTF8 then .ok (String.fromUTF8 (fromTokens tokens) valid)
    else .error "invalid UTF-8"
  decodeBase64Text _ := none
  scaledSquareRoot := id

theorem bytes_decode :
    bytes.decode tokens = .ok text ↔ text.toByteArray = fromTokens tokens := by
  dsimp only [bytes]
  split
  case isTrue valid =>
    constructor
    · intro same
      rw [← Except.ok.inj same]
      rfl
    · intro same
      exact congrArg Except.ok (String.toByteArray_inj.1 same.symm)
  case isFalse invalid =>
    refine iff_of_false nofun fun same => invalid ?_
    rw [← same]
    exact text.isValidUTF8

theorem bytes_lawful : Lawful bytes where
  inverts text := by
    refine bytes_decode.2 (ByteArray.ext ?_)
    change text.toByteArray.data = ((text.toByteArray.data.toList.map UInt8.toNat).map UInt8.ofNat).toArray
    rw [List.map_map, show (UInt8.ofNat ∘ UInt8.toNat) = id from funext fun byte => UInt8.ofNat_toNat, List.map_id,
      Array.toArray_toList]
  concatenates front back before after first second := by
    rw [bytes_decode] at first second ⊢
    rw [String.toByteArray_append, first, second]
    apply ByteArray.ext
    simp [fromTokens]

def answersThenUser (letters : Nat) : List ConversationMessage :=
  let text := String.ofList (List.replicate letters 'a')
  let answer : KiroAssistantMessage := { content := text, cachePoint := none, toolUses := [] }
  [.assistant answer, .assistant answer, .user (plainUser (text ++ text) [])]

def answersThenUserPayload (letters : Nat) : KiroPayload :=
  { conversationState :=
      { agentContinuationId := none, agentTaskType := none, chatTriggerType := "MANUAL", conversationId := "c"
        currentMessage := { userInputMessage := plainUser "now" [] }
        history := (answersThenUser letters).map historyItem }
    profileArn := none, additionalModelRequestFields := none, protectedHistoryMessages := 0 }

theorem answersThenUser_free (letters : Nat) : ToolFree (answersThenUserPayload letters) (answersThenUser letters) where
  history := rfl
  plain message member := by
    simp only [answersThenUser, List.mem_cons, List.not_mem_nil, or_false] at member
    rcases member with rfl | rfl | rfl <;> rfl
  results := rfl
  tools := rfl

theorem partition_lossless_iff_answers : ∃ result, (∃ enough, ∀ rounds, enough ≤ rounds →
      partitionCompactionSummary bytes (answersThenUserPayload 200) 600 rounds = some result) ∧
    (Meets bytes 600 (answersThenUser 200) result ↔
      estimateKiroPayload bytes (normalized (answersThenUserPayload 200)) ≤ 600 ∨
      (∃ state error, Reaches bytes (partPayload (answersThenUserPayload 200)) 600
          (start bytes (answersThenUserPayload 200)) state ∧
        pack bytes (partPayload (answersThenUserPayload 200)) 600 state = .ends (.error error)) ∨
      ∀ state, Reaches bytes (partPayload (answersThenUserPayload 200)) 600
          (start bytes (answersThenUserPayload 200)) state →
        Closes bytes (partPayload (answersThenUserPayload 200)) 600 state → ¬ Outgrows bytes 600 state) :=
  partition_lossless_iff bytes_lawful (answersThenUser_free 200) 600

theorem failed_with {A : Type} {outcome : Option (Except String A)} {message : String}
    (failed : outcome.any (fun result => match result with
      | .ok _ => false
      | .error shown => shown = message) = true) : outcome = some (.error message) := by
  obtain _ | shown | parts := outcome
  · cases failed
  · rw [of_decide_eq_true failed]
  · cases failed

/-- Counted one by one, two answers fill a part exactly; the placeholder between them is longer than what the second
one was charged for. -/
theorem part_outgrown : Lawful bytes ∧ ToolFree (answersThenUserPayload 200) (answersThenUser 200) ∧
    ∃ rounds, partitionCompactionSummary bytes (answersThenUserPayload 200) 820 rounds =
      some (.error "normalized summary part exceeds its model window") :=
  ⟨bytes_lawful, answersThenUser_free 200, 10, failed_with (by decide +kernel)⟩

end Sample

end KiroProxy.SummaryPartition

import KiroProxy.Translate.Attachments

/-! What validation accepts is what the translator takes: the attachments of an accepted
request are usable, and every turn of the payload holds those of its messages. -/
namespace KiroProxy.Claude

def Attachment.block : Attachment → Value
  | .image block => block
  | .document block => block

def Inline (found : Attachment) : Prop :=
  found.block.pointerStr ["source", "type"] ∈ [some "base64", some "text", some "content"]

instance : DecidablePred Inline := fun _ => inferInstanceAs (Decidable (_ ∈ _))

variable {message : ClaudeMessage} {messages : List ClaudeMessage}

section Accepted

variable {crates : Crates} {checks : OtherChecks}

def Checked (crates : Crates) (checks : OtherChecks) : Attachment → Prop
  | .image block => ∃ field, validateClaudeImage crates checks block field = .ok ()
  | .document block => ∃ field, validateClaudeDocument crates checks block field = .ok ()

variable {field role : String} {index : Nat} {block source : Value}

theorem validateEach_ok {check : String → Value → Except ValidationError Unit} {blocks : List Value}
    (accepted : validateEach check field index blocks = .ok ()) :
    ∀ block ∈ blocks, ∃ place, check place block = .ok () := by
  induction blocks generalizing index with
  | nil => simp
  | cons block rest ih =>
    obtain ⟨_, first, later⟩ := Bytes.bind_ok.1 accepted
    intro other member
    obtain rfl | inside := List.mem_cons.1 member
    · exact ⟨_, first⟩
    · exact ih later other inside

theorem image_usable (checked : Checked crates checks (.image block)) (inline : Inline (.image block)) :
    Usable crates (.image block) := by
  obtain ⟨field, accepted⟩ := checked
  unfold Inline Attachment.block at inline
  rw [pointer_source] at inline
  cases held : block.get "source" with
  | none => simp [held] at inline
  | some source =>
    rw [held, Option.bind_some] at inline
    simp only [validateClaudeImage, held, Option.getD_some] at accepted
    split at accepted
    case isTrue url => simp [url] at inline
    case isFalse =>
      split at accepted
      case isTrue => cases accepted
      case isFalse base64 =>
        rw [not_not] at base64
        split at accepted
        case h_1 => cases accepted
        case h_2 =>
          split at accepted
          case h_1 => cases accepted
          case h_2 mediaType media =>
            split at accepted
            case h_1 => cases accepted
            case h_2 data given =>
              split at accepted
              case h_1 => cases accepted
              case h_2 decoded read =>
                have declared := (Option.filter_eq_some_iff.1 media).1
                exact ⟨_, by simp [claudeImage, held, base64, declared, given, read]; rfl⟩

theorem contentBlock_usable {item : Value} {bytes : Nat} {result : Nat × Bool}
    (accepted : validateContentBlock crates checks item field bytes = .ok result) :
    UsableItem item ∧ ∀ found ∈ blockAttachments item, Checked crates checks found := by
  unfold validateContentBlock at accepted
  split at accepted
  case h_1 kind =>
    split at accepted
    case h_1 => cases accepted
    case h_2 =>
      split at accepted
      case h_1 => cases accepted
      case h_2 text own => exact ⟨.inl ⟨kind, text, own⟩, by simp [blockAttachments_text kind]⟩
  case h_2 kind =>
    split at accepted
    case h_1 => cases accepted
    case h_2 =>
      obtain ⟨_, _, rest⟩ := Bytes.bind_ok.1 accepted
      obtain ⟨_, checked, _⟩ := Bytes.bind_ok.1 rest
      refine ⟨.inr kind, ?_⟩
      intro found member
      rw [blockAttachments_image kind, List.mem_singleton] at member
      subst member
      exact ⟨field, checked⟩
  case h_3 => cases accepted
  case h_4 => cases accepted

theorem contentBlocks_usable {bytes : Nat} {items : List Value} {holds result : Bool}
    (accepted : validateContentBlocks crates checks field index items bytes holds = .ok result) :
    ∀ item ∈ items, UsableItem item ∧ ∀ found ∈ blockAttachments item, Checked crates checks found := by
  induction items generalizing index bytes holds with
  | nil => simp
  | cons item items ih =>
    obtain ⟨⟨size, own⟩, first, rest⟩ := Bytes.bind_ok.1 accepted
    dsimp only at rest
    split at rest
    case isTrue => cases rest
    case isFalse =>
      intro other member
      obtain rfl | inside := List.mem_cons.1 member
      · exact contentBlock_usable first
      · exact ih rest other inside

theorem documentData_given {sourceType format : String}
    (accepted : validateDocumentData crates source sourceType format field = .ok ()) :
    ∃ data, source.getStr "data" = some data ∧ (sourceType = "base64" → (crates.decode data).isSome) := by
  unfold validateDocumentData at accepted
  split at accepted
  case h_1 => cases accepted
  case h_2 data given =>
    refine ⟨data, given, ?_⟩
    rintro rfl
    split at accepted
    case isTrue => cases accepted
    case isFalse =>
      split at accepted
      case h_1 => cases accepted
      case h_2 decoded read => simpa using Option.isSome_of_eq_some read

theorem documentSource_given {sourceType : String} (here : sourceType ≠ "url")
    (accepted : validateDocumentSource crates checks block source sourceType field = .ok ()) :
    (∃ format, claudeDocumentFormat block = some format) ∧
      ∃ data, source.getStr "data" = some data ∧ (sourceType = "base64" → (crates.decode data).isSome) := by
  unfold validateDocumentSource at accepted
  dsimp only at accepted
  split at accepted
  case h_1 => cases accepted
  case h_2 =>
    split at accepted
    case isTrue => cases accepted
    case isFalse =>
      split at accepted
      case h_1 => cases accepted
      case h_2 format formatted =>
        split at accepted
        case isTrue => cases accepted
        case isFalse => exact ⟨⟨format, formatted⟩, documentData_given accepted⟩

theorem contentSource_usable (accepted : validateContentDocumentSource crates checks source field = .ok ()) :
    (∃ text, source.get "content" = some (.string text)) ∨
      ∃ items, source.get "content" = some (.array items) ∧
        ∀ item ∈ items, UsableItem item ∧ ∀ found ∈ blockAttachments item, Checked crates checks found := by
  unfold validateContentDocumentSource at accepted
  split at accepted
  case h_1 => cases accepted
  case h_2 =>
    split at accepted
    case h_1 => cases accepted
    case h_2 text content => exact .inl ⟨text, content⟩
    case h_3 items content =>
      split at accepted
      case isTrue => cases accepted
      case isFalse =>
        obtain ⟨_, blocks, _⟩ := Bytes.bind_ok.1 accepted
        exact .inr ⟨items, content, contentBlocks_usable blocks⟩
    case h_4 => cases accepted

theorem document_source (accepted : validateClaudeDocument crates checks block field = .ok ()) :
    ∃ source, block.get "source" = some source ∧
      ((source.kind = some "content" ∧ validateContentDocumentSource crates checks source field = .ok ()) ∨
        ∃ sourceType, source.kind = some sourceType ∧ (sourceType = "base64" ∨ sourceType = "text" ∨ sourceType = "url") ∧
          validateDocumentSource crates checks block source sourceType field = .ok ()) := by
  unfold validateClaudeDocument at accepted
  split at accepted
  case isTrue => cases accepted
  case isFalse =>
    split at accepted
    case isTrue => cases accepted
    case isFalse =>
      split at accepted
      case isTrue => cases accepted
      case isFalse =>
        obtain ⟨_, _, sourced⟩ := Bytes.bind_ok.1 accepted
        split at sourced
        case h_1 => cases sourced
        case h_2 source object =>
          refine ⟨source, (Option.filter_eq_some_iff.1 object).1, ?_⟩
          split at sourced
          case h_1 kind => exact .inl ⟨kind, sourced⟩
          case h_2 kind => exact .inr ⟨_, kind, .inl rfl, sourced⟩
          case h_3 kind => exact .inr ⟨_, kind, .inr (.inl rfl), sourced⟩
          case h_4 kind => exact .inr ⟨_, kind, .inr (.inr rfl), sourced⟩
          case h_5 => cases sourced

theorem document_usable (checked : Checked crates checks (.document block)) (inline : Inline (.document block)) :
    Usable crates (.document block) := by
  obtain ⟨field, accepted⟩ := checked
  obtain ⟨source, held, ⟨kind, content⟩ | ⟨sourceType, kind, which, sourced⟩⟩ := document_source accepted
  · refine ⟨⟨"txt", by simp [claudeDocumentFormat, held, kind]⟩, source, held, .inr (.inr ⟨kind, ?_⟩)⟩
    obtain text | ⟨items, listed, usable⟩ := contentSource_usable content
    · exact .inl text
    · exact .inr ⟨items, listed, fun item member => (usable item member).1⟩
  · have here : sourceType ≠ "url" := by
      rintro rfl
      simp [Inline, Attachment.block, pointer_source, held, kind] at inline
    obtain ⟨formatted, data, given, decoded⟩ := documentSource_given here sourced
    refine ⟨formatted, source, held, ?_⟩
    obtain rfl | rfl | rfl := which
    · exact .inl ⟨kind, data, given, decoded rfl⟩
    · exact .inr (.inl ⟨kind, data, given⟩)
    · exact absurd rfl here

theorem insideDocument_checked (accepted : validateClaudeDocument crates checks block field = .ok ()) :
    ∀ found ∈ insideDocument block, Checked crates checks found := by
  obtain ⟨source, held, ⟨kind, content⟩ | ⟨sourceType, kind, which, -⟩⟩ := document_source accepted
  · have inner : insideDocument block = nestedAttachments (source.get "content") := by
      simp [insideDocument, pointer_source, pointer_content, held, kind]
    rw [inner]
    obtain ⟨text, string⟩ | ⟨items, listed, usable⟩ := contentSource_usable content
    · rw [string, nestedAttachments, Option.map_some, Option.getD_some, attachments_eq]
      exact fun found member => absurd member List.not_mem_nil
    · rw [listed, nestedAttachments, Option.map_some, Option.getD_some, attachments_eq]
      intro found member
      obtain ⟨item, inside, own⟩ := List.mem_flatMap.1 member
      exact (usable item inside).2 found own
  · have none : insideDocument block = [] := by
      obtain rfl | rfl | rfl := which <;> simp [insideDocument, pointer_source, held, kind]
    rw [none]
    exact fun found member => absurd member List.not_mem_nil

theorem block_cases {nested : Option (String → Value → Except ValidationError Unit)}
    (accepted : validateBlockWith crates checks nested role field block = .ok ()) :
    blockAttachments block = [] ∨ (role = "user" ∧
      ((block.kind = some "image" ∧ Checked crates checks (.image block)) ∨
        (block.kind = some "document" ∧ validateClaudeDocument crates checks block field = .ok ()) ∨
        (block.kind = some "tool_result" ∧
          ∃ inner, nested = some inner ∧ validateToolResult inner block field = .ok ()))) := by
  unfold validateBlockWith at accepted
  split at accepted
  case h_1 => cases accepted
  case h_2 kind => exact .inl (blockAttachments_text kind)
  case h_3 kind =>
    split at accepted
    case isTrue => cases accepted
    case isFalse user =>
      obtain ⟨_, _, checked⟩ := Bytes.bind_ok.1 accepted
      exact .inr ⟨by simpa using user, .inl ⟨kind, field, checked⟩⟩
  case h_4 kind =>
    split at accepted
    case isTrue => cases accepted
    case isFalse user => exact .inr ⟨by simpa using user, .inr (.inl ⟨kind, accepted⟩)⟩
  case h_5 kind image document text held =>
    by_cases result : kind = "tool_result"
    · subst result
      right
      simp only [String.reduceEq, if_false] at accepted
      split at accepted
      case h_1 => cases accepted
      case h_2 inner =>
        rw [if_pos trivial] at accepted
        split at accepted
        case isTrue => cases accepted
        case isFalse user => exact ⟨by simpa using user, .inr (.inr ⟨held, _, rfl, accepted⟩)⟩
    · left
      unfold blockAttachments
      split <;> simp_all

theorem toolResult_cases {inner : String → Value → Except ValidationError Unit}
    (accepted : validateToolResult inner block field = .ok ()) :
    nestedAttachments (block.get "content") = [] ∨ ∃ items, block.get "content" = some (.array items) ∧
      ∀ item ∈ items, ∃ place, inner place item = .ok () := by
  have string (text : String) : nestedAttachments (some (.string text)) = [] := by
    rw [nestedAttachments, Option.map_some, Option.getD_some, attachments_eq]
    rfl
  unfold validateToolResult at accepted
  split at accepted
  case isTrue => cases accepted
  case isFalse =>
    split at accepted
    case isTrue => cases accepted
    case isFalse =>
      split at accepted
      case h_1 none => exact .inl (by rw [none]; rfl)
      case h_2 text held => exact .inl (by rw [held, string])
      case h_3 items held => exact .inr ⟨items, held, validateEach_ok accepted⟩
      case h_4 => cases accepted

theorem document_checked (kind : block.kind = some "document")
    (accepted : validateClaudeDocument crates checks block field = .ok ()) :
    ∀ found ∈ blockAttachments block, Checked crates checks found := by
  have whole : blockAttachments block = .document block :: insideDocument block := by
    simp [blockAttachments, insideDocument, kind]
  rw [whole]
  intro found member
  obtain rfl | inside := List.mem_cons.1 member
  · exact ⟨field, accepted⟩
  · exact insideDocument_checked accepted found inside

theorem image_checked (kind : block.kind = some "image") (checked : Checked crates checks (.image block)) :
    ∀ found ∈ blockAttachments block, Checked crates checks found := by
  rw [blockAttachments_image kind]
  intro found member
  rwa [List.mem_singleton.1 member]

theorem nestedBlock_checked (accepted : validateNestedBlock crates checks field block = .ok ()) :
    ∀ found ∈ blockAttachments block, Checked crates checks found := by
  obtain empty | ⟨-, ⟨kind, checked⟩ | ⟨kind, document⟩ | ⟨-, inner, absent, -⟩⟩ := block_cases accepted
  · rw [empty]
    exact fun found member => absurd member List.not_mem_nil
  · exact image_checked kind checked
  · exact document_checked kind document
  · cases absent

theorem block_checked (accepted : validateClaudeBlock crates checks role field block = .ok ()) :
    ∀ found ∈ blockAttachments block, Checked crates checks found := by
  obtain empty | ⟨-, ⟨kind, checked⟩ | ⟨kind, document⟩ | ⟨kind, inner, same, result⟩⟩ := block_cases accepted
  · rw [empty]
    exact fun found member => absurd member List.not_mem_nil
  · exact image_checked kind checked
  · exact document_checked kind document
  · obtain rfl := Option.some.inj same
    have held : blockAttachments block = nestedAttachments (block.get "content") := by simp [blockAttachments, kind]
    rw [held]
    obtain empty | ⟨items, content, each⟩ := toolResult_cases result
    · rw [empty]
      exact fun found member => absurd member List.not_mem_nil
    · rw [content, nestedAttachments, Option.map_some, Option.getD_some, attachments_eq]
      intro found member
      obtain ⟨item, inside, own⟩ := List.mem_flatMap.1 member
      obtain ⟨place, passed⟩ := each item inside
      exact nestedBlock_checked passed found own

theorem block_of_others (other : role ≠ "user")
    (accepted : validateClaudeBlock crates checks role field block = .ok ()) : blockAttachments block = [] := by
  obtain empty | ⟨user, -⟩ := block_cases accepted
  · exact empty
  · exact absurd user other

/-- An accepted message: a text or blocks, with attachments of users only, all of them checked. -/
structure Sound (crates : Crates) (checks : OtherChecks) (message : ClaudeMessage) : Prop where
  shape : (∃ text, message.content = .string text) ∨ ∃ items, message.content = .array items
  checked : ∀ found ∈ attachments message.content, Checked crates checks found
  others : message.role ≠ "user" → attachments message.content = []

theorem content_sound (accepted : validateClaudeContent crates checks message.content message.role field = .ok ()) :
    Sound crates checks message := by
  unfold validateClaudeContent at accepted
  split at accepted
  case h_1 text held =>
    have none : attachments message.content = [] := by rw [held, attachments_eq]; rfl
    exact ⟨.inl ⟨text, held⟩, by simp [none], fun _ => none⟩
  case h_2 items held =>
    obtain ⟨_, each, _⟩ := Bytes.bind_ok.1 accepted
    have passed := validateEach_ok each
    have listed : attachments message.content = items.flatMap blockAttachments := by rw [held, attachments_eq]; rfl
    refine ⟨.inr ⟨items, held⟩, ?_, ?_⟩
    · rw [listed]
      intro found member
      obtain ⟨item, inside, own⟩ := List.mem_flatMap.1 member
      obtain ⟨place, ok⟩ := passed item inside
      exact block_checked ok found own
    · intro other
      rw [listed, List.flatMap_eq_nil_iff]
      intro item inside
      obtain ⟨place, ok⟩ := passed item inside
      exact block_of_others other ok
  case h_3 => cases accepted

theorem messages_checked (accepted : validateMessages crates checks index messages = .ok ()) :
    ∀ message ∈ messages, (∃ field, validateClaudeContent crates checks message.content message.role field = .ok ()) ∧
      message.role ∈ ["user", "assistant", "system"] := by
  induction messages generalizing index with
  | nil => simp
  | cons message rest ih =>
    unfold validateMessages at accepted
    split at accepted
    case isTrue => cases accepted
    case isFalse known =>
      obtain ⟨_, _, further⟩ := Bytes.bind_ok.1 accepted
      obtain ⟨_, content, later⟩ := Bytes.bind_ok.1 further
      intro other member
      obtain rfl | inside := List.mem_cons.1 member
      · refine ⟨⟨_, content⟩, ?_⟩
        rwa [Bool.not_eq_true', Bool.not_eq_false, List.contains_iff_mem] at known
      · exact ih later other inside

theorem messages_sound (accepted : validateMessages crates checks index messages = .ok ()) :
    ∀ message ∈ messages, Sound crates checks message ∧ message.role ∈ ["user", "assistant", "system"] := by
  intro message member
  obtain ⟨⟨field, content⟩, known⟩ := messages_checked accepted message member
  exact ⟨content_sound content, known⟩

theorem checked_usable {found : Attachment} (checked : Checked crates checks found) (inline : Inline found) :
    Usable crates found := by
  cases found with
  | image block => exact image_usable checked inline
  | document block => exact document_usable checked inline

end Accepted

section Messages

variable {crates : Crates} {options : TranslationOptions}

def messageAttachments (message : ClaudeMessage) : List Attachment := attachments message.content

structure Ready (crates : Crates) (message : ClaudeMessage) : Prop where
  shape : (∃ text, message.content = .string text) ∨ ∃ items, message.content = .array items
  usable : ∀ found ∈ messageAttachments message, Usable crates found
  others : message.role ≠ "user" → messageAttachments message = []

theorem attachments_array (items : List Value) : attachments (.array items) = items.flatMap blockAttachments := by
  rw [attachments_eq]
  rfl

theorem Ready.blocks (ready : Ready crates message) :
    (contentAsBlocks message.content).flatMap blockAttachments = messageAttachments message := by
  unfold messageAttachments
  obtain ⟨text, held⟩ | ⟨items, held⟩ := ready.shape
  · rw [held, attachments_eq, contentAsBlocks]
    rfl
  · rw [held, attachments_array, contentAsBlocks]

theorem mergeMessage_ready {acc : List ClaudeMessage} (before : ∀ other ∈ acc, Ready crates other)
    (ready : Ready crates message) :
    (∀ other ∈ mergeMessage acc message, Ready crates other) ∧
      (mergeMessage acc message).reverse.flatMap messageAttachments =
        acc.reverse.flatMap messageAttachments ++ messageAttachments message := by
  cases acc with
  | nil => exact ⟨by simpa [mergeMessage] using ready, by simp [mergeMessage]⟩
  | cons previous earlier =>
    simp only [mergeMessage]
    split
    case isTrue same =>
      have own := before previous List.mem_cons_self
      have joined : attachments (.array (contentAsBlocks previous.content ++ contentAsBlocks message.content)) =
          messageAttachments previous ++ messageAttachments message := by
        rw [attachments_array, List.flatMap_append, own.blocks, ready.blocks]
      constructor
      · intro other member
        obtain rfl | inside := List.mem_cons.1 member
        · refine ⟨.inr ⟨_, rfl⟩, ?_, ?_⟩
          · intro found held
            rw [messageAttachments, joined] at held
            obtain left | right := List.mem_append.1 held
            · exact own.usable found left
            · exact ready.usable found right
          · intro role
            rw [messageAttachments, joined, own.others role, ready.others (same ▸ role)]
            rfl
        · exact before other (List.mem_cons_of_mem previous inside)
      · simp only [List.reverse_cons, List.flatMap_append, List.flatMap_cons, List.flatMap_nil, List.append_nil,
          List.append_assoc]
        rw [messageAttachments, joined]
    case isFalse =>
      constructor
      · intro other member
        obtain rfl | inside := List.mem_cons.1 member
        · exact ready
        · exact before other inside
      · simp

theorem mergeMessages_ready (acc : List ClaudeMessage) (before : ∀ other ∈ acc, Ready crates other)
    (ready : ∀ message ∈ messages, Ready crates message) :
    (∀ other ∈ messages.foldl mergeMessage acc, Ready crates other) ∧
      (messages.foldl mergeMessage acc).reverse.flatMap messageAttachments =
        acc.reverse.flatMap messageAttachments ++ messages.flatMap messageAttachments := by
  induction messages generalizing acc with
  | nil => simpa using before
  | cons message rest ih =>
    obtain ⟨kept, added⟩ := mergeMessage_ready before (ready message List.mem_cons_self)
    obtain ⟨later, whole⟩ := ih _ kept fun other member => ready other (List.mem_cons_of_mem message member)
    refine ⟨later, ?_⟩
    rw [List.foldl_cons, whole, added, List.flatMap_cons, List.append_assoc]

theorem splitInstruction_ready {last : ClaudeMessage} (ready : Ready crates last) :
    (∀ other ∈ splitInstruction last, Ready crates other) ∧
      (splitInstruction last).flatMap messageAttachments = messageAttachments last := by
  have alone : (∀ other ∈ [last], Ready crates other) ∧ [last].flatMap messageAttachments = messageAttachments last := by
    simpa using ready
  unfold splitInstruction
  split
  case h_1 block user ends =>
    dsimp only
    split
    case isFalse => exact alone
    case isTrue splits =>
      have kind : block.kind = some "text" := by
        simp only [Bool.and_eq_true, beq_iff_eq] at splits
        exact splits.2.1
      have cut : last.content.blocks = last.content.blocks.dropLast ++ [block] := by
        obtain ⟨front, whole⟩ := List.getLast?_eq_some_iff.1 ends
        rw [whole, List.dropLast_concat]
      have first : attachments (.array last.content.blocks.dropLast) = messageAttachments last := by
        rw [messageAttachments, attachments_eq last.content, cut, List.flatMap_append, attachments_array]
        simp [blockAttachments_text kind]
      have second : attachments (.array [block]) = [] := by
        rw [attachments_array]
        simp [blockAttachments_text kind]
      constructor
      · intro other member
        simp only [List.mem_cons, List.not_mem_nil, or_false] at member
        obtain rfl | rfl := member
        · refine ⟨.inr ⟨_, rfl⟩, ?_, fun role => absurd user role⟩
          rw [messageAttachments, first]
          exact ready.usable
        · refine ⟨.inr ⟨_, rfl⟩, ?_, fun role => absurd user role⟩
          rw [messageAttachments, second]
          exact fun found held => absurd held List.not_mem_nil
      · simp only [List.flatMap_cons, List.flatMap_nil, List.append_nil]
        change attachments (.array last.content.blocks.dropLast) ++ attachments (.array [block]) = _
        rw [first, second, List.append_nil]
  case h_2 => exact alone

theorem separate_ready (ready : ∀ message ∈ messages, Ready crates message) :
    (∀ other ∈ separateCompactionInstruction messages, Ready crates other) ∧
      (separateCompactionInstruction messages).flatMap messageAttachments = messages.flatMap messageAttachments := by
  unfold separateCompactionInstruction
  split
  case h_1 last ends =>
    obtain ⟨front, rfl⟩ := List.getLast?_eq_some_iff.1 ends
    obtain ⟨parts, whole⟩ := splitInstruction_ready (ready last (by simp))
    rw [List.dropLast_concat]
    constructor
    · intro other member
      obtain inside | inside := List.mem_append.1 member
      · exact ready other (List.mem_append_left _ inside)
      · exact parts other inside
    · rw [List.flatMap_append, whole, List.flatMap_append]
      simp
  case h_2 => exact ⟨ready, rfl⟩

variable (options) in
theorem conversation_ready {request : ClaudeRequest}
    (ready : ∀ message ∈ request.messages, Ready crates message) :
    (∀ other ∈ conversation options request, Ready crates other) ∧
      (conversation options request).flatMap messageAttachments = request.messages.flatMap messageAttachments := by
  have plain : (request.messages.filter (·.role ≠ "system")).flatMap messageAttachments =
      request.messages.flatMap messageAttachments := by
    generalize request.messages = messages at ready
    induction messages with
    | nil => rfl
    | cons message rest ih =>
      have later := ih fun other member => ready other (List.mem_cons_of_mem message member)
      by_cases system : message.role = "system"
      · have none := (ready message List.mem_cons_self).others (by rw [system]; decide)
        rw [List.filter_cons_of_neg (by simpa using system), later, List.flatMap_cons, none, List.nil_append]
      · rw [List.filter_cons_of_pos (by simpa using system), List.flatMap_cons, later, List.flatMap_cons]
  obtain ⟨merged, whole⟩ := mergeMessages_ready [] (by simp)
    fun message member => ready message (List.mem_of_mem_filter (p := (·.role ≠ "system")) member)
  have normal : (∀ other ∈ normalizedNonSystemMessages request.messages, Ready crates other) ∧
      (normalizedNonSystemMessages request.messages).flatMap messageAttachments =
        request.messages.flatMap messageAttachments := by
    refine ⟨fun other member => merged other (List.mem_reverse.1 member), ?_⟩
    rw [normalizedNonSystemMessages, whole, plain]
    rfl
  unfold conversation
  dsimp only
  split
  · obtain ⟨kept, same⟩ := separate_ready normal.1
    exact ⟨kept, same.trans normal.2⟩
  · exact normal

theorem Holds.empty {turn : KiroHistoryMessage} (images : turnImages turn = []) (documents : turnDocuments turn = []) :
    Holds crates [] turn :=
  ⟨by rw [images]; rfl, by rw [documents]; exact .nil⟩

theorem Holds.congr {found : List Attachment} {first second : KiroHistoryMessage} (held : Holds crates found first)
    (images : turnImages second = turnImages first) (documents : turnDocuments second = turnDocuments first) :
    Holds crates found second := by
  constructor
  · rw [images]
    exact held.images
  · rw [images, documents]
    exact held.documents

variable (options) in
theorem user_holds (ready : Ready crates message) :
    Holds crates (messageAttachments message) (userTurn (userOf crates options message)) :=
  content_holds ready.usable rfl rfl

section Loop

variable {registry : ToolNameRegistry} {official : OfficialWebTools} {completed : List String} {tools : List KiroTool}

theorem step_user (role : message.role = "user") (history : List KiroHistoryMessage) (current : KiroUserInputMessage)
    (last : Bool) :
    step crates options registry official completed tools (history, current) message last =
      if last then (history, { userOf crates options message with
        userInputMessageContext := messageContext tools (extractToolResults message.content) })
      else (history ++ [userTurn (userOf crates options message)], current) := by
  simp only [step, role]

variable (crates options registry official completed tools) in
theorem step_other (role : message.role ≠ "user") (history : List KiroHistoryMessage) (current : KiroUserInputMessage)
    (last : Bool) :
    ∃ added, step crates options registry official completed tools (history, current) message last =
        (history ++ added, current) ∧
      ∀ turn ∈ added, turnImages turn = [] ∧ turnDocuments turn = [] := by
  unfold step
  dsimp only
  split
  case h_1 user => exact absurd user role
  case h_2 =>
    refine ⟨[assistantTurn _], rfl, ?_⟩
    intro turn member
    rw [List.mem_singleton.1 member]
    exact ⟨rfl, rfl⟩
  case h_3 => exact ⟨[], by rw [List.append_nil], by simp⟩

variable (crates) in
theorem empty_turns {added : List KiroHistoryMessage}
    (empty : ∀ turn ∈ added, turnImages turn = [] ∧ turnDocuments turn = []) :
    ∃ contents, contents.flatten = [] ∧ List.Forall₂ (Holds crates) contents added := by
  induction added with
  | nil => exact ⟨[], rfl, .nil⟩
  | cons turn rest ih =>
    obtain ⟨contents, flat, held⟩ := ih fun other member => empty other (List.mem_cons_of_mem turn member)
    obtain ⟨images, documents⟩ := empty turn List.mem_cons_self
    exact ⟨[] :: contents, by rw [List.flatten_cons, flat, List.append_nil], .cons (.empty images documents) held⟩

variable (options registry official completed tools) in
theorem loop_holds (messages : List ClaudeMessage) (ready : ∀ message ∈ messages, Ready crates message)
    (history : List KiroHistoryMessage) (current : KiroUserInputMessage) (images : current.images = [])
    (documents : current.documents = []) :
    ∃ contents added,
      (loop crates options registry official completed tools messages (history, current)).1 = history ++ added ∧
      contents.flatten = messages.flatMap messageAttachments ∧
      List.Forall₂ (Holds crates) contents (added ++
        [userTurn (loop crates options registry official completed tools messages (history, current)).2]) := by
  induction messages generalizing history current with
  | nil => exact ⟨[[]], [], by simp [loop], rfl, .cons (.empty images documents) .nil⟩
  | cons message rest ih =>
    have own := ready message List.mem_cons_self
    have later := ih fun other member => ready other (List.mem_cons_of_mem message member)
    rw [loop, List.flatMap_cons]
    by_cases role : message.role = "user"
    · rw [step_user role]
      cases rest with
      | nil =>
        simp only [List.isEmpty_nil, if_true, loop]
        refine ⟨[messageAttachments message], [], by simp, by simp, .cons ?_ .nil⟩
        exact (user_holds options own).congr
          (by rw [turnImages_userTurn, turnImages_userTurn]) (by rw [turnDocuments_userTurn, turnDocuments_userTurn])
      | cons next rest =>
        simp only [List.isEmpty_cons, Bool.false_eq_true, if_false]
        obtain ⟨contents, added, grown, flat, held⟩ := later (history ++ [userTurn (userOf crates options message)])
          current images documents
        refine ⟨messageAttachments message :: contents, userTurn (userOf crates options message) :: added, ?_, ?_,
          .cons (user_holds options own) held⟩
        · rw [grown, List.append_assoc, List.singleton_append]
        · rw [List.flatten_cons, flat]
    · obtain ⟨turns, stepped, empty⟩ := step_other crates options registry official completed tools role history
        current rest.isEmpty
      obtain ⟨front, none, first⟩ := empty_turns crates empty
      obtain ⟨contents, added, grown, flat, held⟩ := later (history ++ turns) current images documents
      rw [stepped, own.others role]
      refine ⟨front ++ contents, turns ++ added, ?_, ?_, ?_⟩
      · rw [grown, List.append_assoc]
      · rw [List.flatten_append, none, flat]
      · rw [List.append_assoc]
        exact List.rel_append first held

end Loop

theorem withEnv_attachments (env : Option KiroEnvState) (user : KiroUserInputMessage) :
    (withEnv env user).images = user.images ∧ (withEnv env user).documents = user.documents := by
  cases env <;> exact ⟨rfl, rfl⟩

theorem finishCurrent_attachments (options : TranslationOptions) (tools : List KiroTool) (request : ClaudeRequest) (user : KiroUserInputMessage) :
    (finishCurrent options tools request user).images = user.images ∧
      (finishCurrent options tools request user).documents = user.documents := by
  unfold finishCurrent
  dsimp only
  generalize parseEnvState (clientSystem request) = env
  split
  · split
    · exact withEnv_attachments env { user with userInputMessageContext := messageContext tools [] }
    · exact withEnv_attachments env user
  · split
    · exact withEnv_attachments env { user with userInputMessageContext := messageContext tools [] }
    · exact withEnv_attachments env user

end Messages

section Turns

variable (crates : Crates) (options : TranslationOptions) (registry : ToolNameRegistry) (request : ClaudeRequest)

def sentTools : List KiroTool := ((claudeLoadedTools request).map (toolEntry crates options registry)).flatMap (·.1)

def sentSystem : String :=
  systemPrompt crates options registry ((claudeLoadedTools request).map (toolEntry crates options registry)) request

def looped : List KiroHistoryMessage × KiroUserInputMessage :=
  loop crates options registry (officialWebTools request) (completedServerToolIds request)
    (sentTools crates options registry request) (conversation options request) ([], emptyCurrent options)

theorem claudeToKiro_turns (draws : Draws)
    (registered : ToolNameRegistry.new crates.sha256 (catalogue request) = some registry) :
    ∃ payload, claudeToKiro crates options draws request = some payload ∧
      payload.conversationState.currentMessage.userInputMessage = finishCurrent options
        (sentTools crates options registry request) request (looped crates options registry request).2 ∧
      turns payload = protectedPair options (sentSystem crates options registry request) (systemCachePoint options request) ++
        (sanitizeHistory options (looped crates options registry request).1 ++
          [userTurn (finishCurrent options (sentTools crates options registry request) request
            (looped crates options registry request).2)]) := by
  refine ⟨_, by rw [claudeToKiro, registered]; rfl, rfl, ?_⟩
  rw [← List.append_assoc]
  rfl

end Turns

def requestAttachments (request : ClaudeRequest) : List Attachment := request.messages.flatMap messageAttachments

section Payload

variable {crates : Crates}

theorem protectedPair_empty (options : TranslationOptions) (system : String) (mark : Option KiroCachePoint) :
    ∀ turn ∈ protectedPair options system mark, turnImages turn = [] ∧ turnDocuments turn = [] := by
  unfold protectedPair
  split
  · simp
  · intro turn member
    simp only [List.mem_cons, List.not_mem_nil, or_false] at member
    obtain rfl | rfl := member
    · exact ⟨rfl, rfl⟩
    · exact ⟨rfl, rfl⟩

theorem sanitizeHistory_empty (options : TranslationOptions) (history : List KiroHistoryMessage) :
    ∃ front, sanitizeHistory options history = front ++ history ∧
      ∀ turn ∈ front, turnImages turn = [] ∧ turnDocuments turn = [] := by
  unfold sanitizeHistory
  split
  · split
    · refine ⟨[userTurn _], rfl, ?_⟩
      intro turn member
      rw [List.mem_singleton.1 member]
      exact ⟨rfl, rfl⟩
    · exact ⟨[], rfl, by simp⟩
  · exact ⟨[], rfl, by simp⟩

variable {contents : List (List Attachment)} {sent : List KiroHistoryMessage}

theorem holds_behind {front : List KiroHistoryMessage}
    (empty : ∀ turn ∈ front, turnImages turn = [] ∧ turnDocuments turn = [])
    (held : List.Forall₂ (Holds crates) contents sent) :
    ∃ all, all.flatten = contents.flatten ∧ List.Forall₂ (Holds crates) all (front ++ sent) := by
  obtain ⟨first, none, before⟩ := empty_turns crates empty
  exact ⟨first ++ contents, by rw [List.flatten_append, none, List.nil_append], List.rel_append before held⟩

theorem holds_last {added : List KiroHistoryMessage} {first second : KiroUserInputMessage}
    (images : second.images = first.images) (documents : second.documents = first.documents)
    (held : List.Forall₂ (Holds crates) contents (added ++ [userTurn first])) :
    List.Forall₂ (Holds crates) contents (added ++ [userTurn second]) := by
  induction added generalizing contents with
  | nil =>
    cases held with
    | cons own rest => exact .cons (own.congr images documents) rest
  | cons turn added ih =>
    cases held with
    | cons own rest => exact .cons own (ih rest)

theorem images_of_holds (held : List.Forall₂ (Holds crates) contents sent) :
    (sent.flatMap turnImages).map some = (imageBlocks contents.flatten).map (claudeImage crates) := by
  induction held with
  | nil => rfl
  | cons first rest ih =>
    rw [List.flatMap_cons, List.map_append, List.flatten_cons, imageBlocks_append, List.map_append, first.images, ih]

theorem documents_of_shown {images : List KiroImage} {before : Nat} {found : List Attachment}
    {documents : List KiroDocument} (shown : Shown crates images before found documents) :
    List.Forall₂ (fun block document => ∃ index, (claudeDocument crates block index).1 = some document)
      (documentBlocks found) documents := by
  induction shown with
  | nil => exact .nil
  | image later ih => exact ih
  | document here later ih => exact .cons ⟨_, here.own⟩ ih

theorem documents_of_holds (held : List.Forall₂ (Holds crates) contents sent) :
    List.Forall₂ (fun block document => ∃ index, (claudeDocument crates block index).1 = some document)
      (documentBlocks contents.flatten) (sent.flatMap turnDocuments) := by
  induction held with
  | nil => exact .nil
  | cons first rest ih =>
    rw [List.flatten_cons, documentBlocks, List.filterMap_append, List.flatMap_cons]
    exact List.rel_append (documents_of_shown first.documents) ih

/-- The attachments of an accepted request whose sources are inline: the images and the
documents of the payload are those of the request in order, and each turn holds those of its
messages with the markers of its content documents at their images. -/
theorem attachments_kept (crates : Crates) (checks : OtherChecks) (options : TranslationOptions) (draws : Draws)
    (request : ClaudeRequest) (enough : ToolNameRegistry.EnoughDigests crates.sha256 (catalogue request))
    (accepted : validateClaude crates checks request = .ok ())
    (inline : ∀ found ∈ requestAttachments request, Inline found) :
    ∃ payload, claudeToKiro crates options draws request = some payload ∧
      ((turns payload).flatMap turnImages).map some =
        (imageBlocks (requestAttachments request)).map (claudeImage crates) ∧
      List.Forall₂ (fun block document => ∃ index, (claudeDocument crates block index).1 = some document)
        (documentBlocks (requestAttachments request)) ((turns payload).flatMap turnDocuments) ∧
      ∃ contents, contents.flatten = requestAttachments request ∧
        List.Forall₂ (Holds crates) contents (turns payload) := by
  obtain ⟨_, _, checked⟩ := Bytes.bind_ok.1 accepted
  obtain ⟨_, passed, _⟩ := Bytes.bind_ok.1 checked
  have ready : ∀ message ∈ request.messages, Ready crates message := by
    intro message member
    obtain ⟨sound, -⟩ := messages_sound passed message member
    refine ⟨sound.shape, fun found held => checked_usable (sound.checked found held) ?_, sound.others⟩
    exact inline found (List.mem_flatMap.2 ⟨message, member, held⟩)
  obtain ⟨registry, registered, -⟩ := ToolNameRegistry.new_registers crates.sha256 (catalogue request) enough
  obtain ⟨conversation_ready, same⟩ := conversation_ready options ready
  obtain ⟨payload, translated, -, sent⟩ := claudeToKiro_turns crates options registry request draws registered
  obtain ⟨contents, added, history, flat, held⟩ := loop_holds options registry (officialWebTools request)
    (completedServerToolIds request) (sentTools crates options registry request) (conversation options request)
    conversation_ready [] (emptyCurrent options) rfl rfl
  rw [List.nil_append] at history
  have finished := finishCurrent_attachments options (sentTools crates options registry request) request
    (looped crates options registry request).2
  obtain ⟨front, begun, begins_empty⟩ := sanitizeHistory_empty options added
  obtain ⟨after_begin, flat_begin, held_begin⟩ := holds_behind begins_empty
    (holds_last finished.1 finished.2 held)
  obtain ⟨contents, flat_all, held_all⟩ := holds_behind (protectedPair_empty options _ _) held_begin
  have whole : contents.flatten = requestAttachments request := by
    rw [flat_all, flat_begin, flat, same]
    rfl
  have every : List.Forall₂ (Holds crates) contents (turns payload) := by
    rw [sent, looped, history, begun, List.append_assoc]
    exact held_all
  refine ⟨payload, translated, ?_, ?_, contents, whole, every⟩
  · rw [images_of_holds every, whole]
  · rw [← whole]
    exact documents_of_holds every

def sampleCrates : Crates :=
  { sha256 := fun _ => Vector.replicate 32 0
    decode := fun text => if text = "/9j/" then some [0xff, 0xd8, 0xff] else none
    encode := fun bytes => if bytes = Bytes.utf8 "See:\n\n[Message image 2]" then "U2VlOgoKW01lc3NhZ2UgaW1hZ2UgMl0=" else ""
    fromStr := fun _ => none
    toStringPretty := fun _ => "[]" }

def noOtherChecks : OtherChecks :=
  { before := fun _ => .ok (), message := fun _ _ => .ok (), assistantBlock := fun _ _ => .ok ()
    url := fun _ _ => .ok (), after := fun _ => .ok () }

def samplePicture : Value := .object [("source", .object
  [("data", .string "/9j/"), ("media_type", .string "image/jpeg"), ("type", .string "base64")]),
  ("type", .string "image")]

def sampleReport : Value := .object [("source", .object
  [("content", .array [.object [("text", .string "See:"), ("type", .string "text")], samplePicture]),
   ("type", .string "content")]), ("type", .string "document")]

/-- A call, and its result with a picture and then a report that shows another one. -/
def sampleRequest : ClaudeRequest :=
  { messages := [
      { role := "user", content := .string "Look." },
      { role := "assistant", content := .array [.object
        [("id", .string "c1"), ("input", .object []), ("name", .string "look"), ("type", .string "tool_use")]] },
      { role := "user", content := .array [.object
        [("content", .array [samplePicture, sampleReport]), ("tool_use_id", .string "c1"),
         ("type", .string "tool_result")]] }]
    tools := [{ name := "look" }] }

theorem attachments_kept_report :
    ∃ payload, claudeToKiro sampleCrates { modelId := "claude-sonnet-4.5", origin := "AI_EDITOR" }
        { continuationId := "a", conversationId := "b", modelFields := none } sampleRequest = some payload ∧
      ((turns payload).flatMap turnImages).map some =
        [some { format := "jpeg", source := { bytes := "/9j/" } }, some { format := "jpeg", source := { bytes := "/9j/" } }] := by
  obtain ⟨payload, translated, images, -⟩ := attachments_kept sampleCrates noOtherChecks
    { modelId := "claude-sonnet-4.5", origin := "AI_EDITOR" }
    { continuationId := "a", conversationId := "b", modelFields := none } sampleRequest
    (OpenAi.enough_of_one sampleCrates.sha256 "look") (by decide +kernel) (by decide +kernel)
  refine ⟨payload, translated, ?_⟩
  rw [images]
  decide +kernel

end Payload

end KiroProxy.Claude

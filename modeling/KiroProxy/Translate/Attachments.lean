import KiroProxy.Translate.Validate
import KiroProxy.Translate.OpenAiConserve

/-! No attachment of an accepted Messages request is lost or renumbered. The images and the
documents of a content are read by two traversals; both follow one list, its attachments in
document order, in which a content document stands before the images it holds. -/
namespace KiroProxy.Claude

inductive Attachment where
  | image (block : Value)
  | document (block : Value)

/-- The attachments of a content in document order, those of tool results and of content
documents among them. -/
def attachments (content : Value) : List Attachment :=
  content.blocks.attach.flatMap fun ⟨block, inside⟩ =>
    match block.kind with
    | some "image" => [.image block]
    | some "tool_result" => match nested : block.get "content" with
      | some inner =>
        have := (Value.sizeOf_get nested).trans (Value.sizeOf_block inside)
        attachments inner
      | none => []
    | some "document" => .document block :: if block.pointerStr ["source", "type"] == some "content" then
        match nested : block.pointer ["source", "content"] with
        | some inner =>
          have := (Value.sizeOf_pointer nested).trans (Value.sizeOf_block inside)
          attachments inner
        | none => []
      else []
    | _ => []
termination_by sizeOf content

def Attachment.image? : Attachment → Option Value
  | .image block => some block
  | .document _ => none

def Attachment.document? : Attachment → Option Value
  | .image _ => none
  | .document block => some block

def imageBlocks (found : List Attachment) : List Value := found.filterMap Attachment.image?

def documentBlocks (found : List Attachment) : List Value := found.filterMap Attachment.document?

/-- The parts of a content document: a text stands for itself, an image for the marker with
its number among the images of the message. -/
inductive Marked (crates : Crates) (images : List KiroImage) : Nat → List Value → List String → Prop
  | nil {before : Nat} : Marked crates images before [] []
  | text {before : Nat} {item : Value} {text : String} {items : List Value} {parts : List String}
      (kind : item.kind = some "text") (own : item.getStr "text" = some text)
      (rest : Marked crates images before items parts) : Marked crates images before (item :: items) (text :: parts)
  | image {before : Nat} {item : Value} {image : KiroImage} {items : List Value} {parts : List String}
      (kind : item.kind = some "image") (own : claudeImage crates item = some image)
      (there : images[before]? = some image) (rest : Marked crates images (before + 1) items parts) :
      Marked crates images before (item :: items) (imageMarker (before + 1) :: parts)

/-- A document of a message with `before` images ahead of it. -/
structure DocumentAt (crates : Crates) (images : List KiroImage) (before : Nat) (block : Value) (document : KiroDocument) :
    Prop where
  own : (claudeDocument crates block before).1 = some document
  marked : ∀ items, block.pointerStr ["source", "type"] = some "content" →
    block.pointer ["source", "content"] = some (.array items) →
    ∃ parts, document.source.bytes = crates.encode (Bytes.utf8 ("\n\n".intercalate parts)) ∧
      Marked crates images before items parts

/-- The documents of a message against its attachments, after `before` images. -/
inductive Shown (crates : Crates) (images : List KiroImage) : Nat → List Attachment → List KiroDocument → Prop
  | nil {before : Nat} : Shown crates images before [] []
  | image {before : Nat} {block : Value} {rest : List Attachment} {documents : List KiroDocument}
      (later : Shown crates images (before + 1) rest documents) :
      Shown crates images before (.image block :: rest) documents
  | document {before : Nat} {block : Value} {document : KiroDocument} {rest : List Attachment}
      {documents : List KiroDocument} (here : DocumentAt crates images before block document)
      (later : Shown crates images before rest documents) :
      Shown crates images before (.document block :: rest) (document :: documents)

variable {α : Type}

section Unfold

theorem flatMap_attach {β : Type} (xs : List α) (f : α → List β) (g : { x // x ∈ xs } → List β)
    (same : ∀ x, g x = f x.1) : xs.attach.flatMap g = xs.flatMap f := by
  rw [funext same, ← List.flatMap_map, List.attach_map_subtype_val]

def nestedAttachments (inner : Option Value) : List Attachment := (inner.map attachments).getD []

def blockAttachments (block : Value) : List Attachment :=
  match block.kind with
  | some "image" => [.image block]
  | some "tool_result" => nestedAttachments (block.get "content")
  | some "document" => .document block :: if block.pointerStr ["source", "type"] == some "content" then
      nestedAttachments (block.pointer ["source", "content"]) else []
  | _ => []

theorem attachments_eq (content : Value) : attachments content = content.blocks.flatMap blockAttachments := by
  rw [attachments]
  apply flatMap_attach
  rintro ⟨block, inside⟩
  simp only [blockAttachments, nestedAttachments]
  split
  · rfl
  · split <;> simp_all
  · split
    · split <;> simp_all
    · rfl
  · rfl

def nestedImages (crates : Crates) (inner : Option Value) : List KiroImage :=
  (inner.map (extractImages crates)).getD []

def blockImages (crates : Crates) (block : Value) : List KiroImage :=
  match block.kind with
  | some "image" => (claudeImage crates block).toList
  | some "tool_result" => nestedImages crates (block.get "content")
  | some "document" => if block.pointerStr ["source", "type"] == some "content" then
      nestedImages crates (block.pointer ["source", "content"]) else []
  | _ => []

theorem extractImages_eq (crates : Crates) (content : Value) :
    extractImages crates content = content.blocks.flatMap (blockImages crates) := by
  rw [extractImages]
  apply flatMap_attach
  rintro ⟨block, inside⟩
  simp only [blockImages, nestedImages]
  split
  · simp_all
  · split <;> simp_all
  · split
    · split <;> simp_all
    · simp_all
  · simp_all

def documentStep (crates : Crates) (found : List KiroDocument × Nat) (block : Value) : List KiroDocument × Nat :=
  match block.kind with
  | some "image" => (found.1, found.2 + 1)
  | some "document" =>
    (found.1 ++ (claudeDocument crates block found.2).1.toList, (claudeDocument crates block found.2).2)
  | some "tool_result" => match block.get "content" with
    | some inner => collectClaudeDocuments crates inner found
    | none => found
  | _ => found

theorem collectClaudeDocuments_eq (crates : Crates) (content : Value) (found : List KiroDocument × Nat) :
    collectClaudeDocuments crates content found = content.blocks.foldl (documentStep crates) found := by
  rw [collectClaudeDocuments]
  refine Eq.trans ?_ (List.foldl_attach (f := documentStep crates))
  congr 1
  funext ⟨documents, index⟩ ⟨block, inside⟩
  simp only [documentStep]
  split
  · simp_all
  · simp_all
  · split <;> simp_all
  · simp_all

end Unfold

section Traversals

variable {crates : Crates}

@[simp] theorem imageBlocks_image (block : Value) (rest : List Attachment) :
    imageBlocks (.image block :: rest) = block :: imageBlocks rest := rfl

@[simp] theorem imageBlocks_document (block : Value) (rest : List Attachment) :
    imageBlocks (.document block :: rest) = imageBlocks rest := rfl

@[simp] theorem imageBlocks_append (front back : List Attachment) :
    imageBlocks (front ++ back) = imageBlocks front ++ imageBlocks back := List.filterMap_append

@[simp] theorem imageBlocks_flatMap (xs : List α) (f : α → List Attachment) :
    imageBlocks (xs.flatMap f) = xs.flatMap fun x => imageBlocks (f x) := by
  induction xs with
  | nil => rfl
  | cons x xs ih => rw [List.flatMap_cons, imageBlocks_append, ih, List.flatMap_cons]

theorem extractImages_blocks (crates : Crates) (content : Value) :
    extractImages crates content = (imageBlocks (attachments content)).filterMap (claudeImage crates) := by
  rw [extractImages_eq, attachments_eq, imageBlocks_flatMap, List.filterMap_flatMap]
  refine List.flatMap_congr fun block inside => ?_
  -- The content inside a block is smaller, and there the two traversals agree.
  have nested (inner : Option Value) (smaller : ∀ v ∈ inner, sizeOf v < sizeOf content) :
      nestedImages crates inner = (imageBlocks (nestedAttachments inner)).filterMap (claudeImage crates) := by
    cases inner with
    | none => rfl
    | some inner =>
      have := smaller inner rfl
      exact extractImages_blocks crates inner
  unfold blockImages blockAttachments
  split
  · cases held : claudeImage crates block <;> simp [imageBlocks, Attachment.image?, held]
  · exact nested _ fun v held => (Value.sizeOf_get held).trans (Value.sizeOf_block inside)
  · split
    · exact nested _ fun v held => (Value.sizeOf_pointer held).trans (Value.sizeOf_block inside)
    · rfl
  · rfl
termination_by sizeOf content

def Segment (crates : Crates) (images : List KiroImage) (before : Nat) (blocks : List Value) : Prop :=
  ∀ k block, blocks[k]? = some block →
    ∃ image, claudeImage crates block = some image ∧ images[before + k]? = some image

variable {images : List KiroImage} {before : Nat} {block : Value}

theorem Segment.left {front back : List Value} (whole : Segment crates images before (front ++ back)) :
    Segment crates images before front := by
  intro k block there
  have bound := (List.getElem?_eq_some_iff.1 there).1
  exact whole k block (by rw [List.getElem?_append_left bound, there])

theorem Segment.right {front back : List Value} (whole : Segment crates images before (front ++ back)) :
    Segment crates images (before + front.length) back := by
  intro k block there
  obtain ⟨image, usable, held⟩ := whole (front.length + k) block (by
    rw [List.getElem?_append_right (by omega), Nat.add_sub_cancel_left, there])
  exact ⟨image, usable, by rw [Nat.add_assoc, held]⟩

theorem Shown.append {front back : List Attachment} {first second : List KiroDocument}
    (left : Shown crates images before front first)
    (right : Shown crates images (before + (imageBlocks front).length) back second) :
    Shown crates images before (front ++ back) (first ++ second) := by
  induction left with
  | nil => simpa [imageBlocks] using right
  | image later ih =>
    refine .image (ih ?_)
    rwa [imageBlocks_image, List.length_cons, Nat.add_comm _ 1, ← Nat.add_assoc] at right
  | document here later ih => exact .document here (ih right)

def UsableItem (item : Value) : Prop :=
  (item.kind = some "text" ∧ ∃ text, item.getStr "text" = some text) ∨ item.kind = some "image"

def UsableSource (crates : Crates) (source : Value) : Prop :=
  (source.kind = some "base64" ∧ ∃ data, source.getStr "data" = some data ∧ (crates.decode data).isSome) ∨
  (source.kind = some "text" ∧ ∃ data, source.getStr "data" = some data) ∨
  (source.kind = some "content" ∧ ((∃ text, source.get "content" = some (.string text)) ∨
    ∃ items, source.get "content" = some (.array items) ∧ ∀ item ∈ items, UsableItem item))

def Usable (crates : Crates) : Attachment → Prop
  | .image block => ∃ image, claudeImage crates block = some image
  | .document block => (∃ format, claudeDocumentFormat block = some format) ∧
      ∃ source, block.get "source" = some source ∧ UsableSource crates source

theorem blockAttachments_image (kind : block.kind = some "image") :
    blockAttachments block = [.image block] := by
  simp [blockAttachments, kind]

theorem blockAttachments_text (kind : block.kind = some "text") : blockAttachments block = [] := by
  simp [blockAttachments, kind]

theorem customDocumentParts_marked {items : List Value} (usable : ∀ item ∈ items, UsableItem item) (before : Nat)
    (segment : Segment crates images before (imageBlocks (items.flatMap blockAttachments))) :
    ∃ parts, customDocumentParts items before =
        (parts, before + (imageBlocks (items.flatMap blockAttachments)).length) ∧
      Marked crates images before items parts := by
  induction items generalizing before with
  | nil => exact ⟨[], rfl, .nil⟩
  | cons item items ih =>
    have later := ih fun other member => usable other (List.mem_cons_of_mem item member)
    obtain ⟨kind, text, own⟩ | kind := usable item List.mem_cons_self
    · have none := blockAttachments_text kind
      rw [List.flatMap_cons, none, List.nil_append] at segment ⊢
      obtain ⟨parts, read, marked⟩ := later before segment
      refine ⟨text :: parts, ?_, .text kind own marked⟩
      simp [customDocumentParts, kind, own, read]
    · have one := blockAttachments_image kind
      rw [List.flatMap_cons, one, imageBlocks_append] at segment ⊢
      obtain ⟨image, held, there⟩ := segment.left 0 item rfl
      obtain ⟨parts, read, marked⟩ := later (before + 1) segment.right
      refine ⟨imageMarker (before + 1) :: parts, ?_, .image kind held there marked⟩
      simp only [customDocumentParts, kind, read]
      simp [imageBlocks, Attachment.image?, Nat.add_assoc, Nat.add_comm 1]

theorem pointer_source (block : Value) :
    block.pointerStr ["source", "type"] = (block.get "source").bind Value.kind := by
  cases held : block.get "source" with
  | none => simp [Value.pointerStr, Value.pointer, held]
  | some source =>
    cases inner : source.get "type" <;> simp [Value.pointerStr, Value.pointer, held, Value.kind, Value.getStr, inner]

theorem pointer_content (block : Value) :
    block.pointer ["source", "content"] = (block.get "source").bind (·.get "content") := by
  cases held : block.get "source" with
  | none => simp [Value.pointer, held]
  | some source => cases inner : source.get "content" <;> simp [Value.pointer, held, inner]

def insideDocument (block : Value) : List Attachment :=
  if block.pointerStr ["source", "type"] == some "content" then
    nestedAttachments (block.pointer ["source", "content"]) else []

theorem Shown.of_images {found : List Attachment} (all : ∀ one ∈ found, ∃ block, one = .image block) (before : Nat) :
    Shown crates images before found [] := by
  induction found generalizing before with
  | nil => exact .nil
  | cons one rest ih =>
    obtain ⟨block, rfl⟩ := all one List.mem_cons_self
    exact .image (ih (fun other member => all other (List.mem_cons_of_mem _ member)) (before + 1))

theorem images_of_items {items : List Value} (usable : ∀ item ∈ items, UsableItem item) :
    ∀ one ∈ items.flatMap blockAttachments, ∃ block, one = .image block := by
  intro one member
  obtain ⟨item, inside, held⟩ := List.mem_flatMap.1 member
  obtain ⟨kind, -⟩ | kind := usable item inside
  · rw [blockAttachments_text kind] at held
    cases held
  · rw [blockAttachments_image kind] at held
    exact ⟨item, List.mem_singleton.1 held⟩

theorem claudeDocument_usable (usable : Usable crates (.document block)) (before : Nat)
    (segment : Segment crates images before (imageBlocks (insideDocument block))) :
    ∃ document, claudeDocument crates block before =
        (some document, before + (imageBlocks (insideDocument block)).length) ∧
      DocumentAt crates images before block document ∧
      ∀ one ∈ insideDocument block, ∃ inner, one = .image inner := by
  obtain ⟨⟨format, formatted⟩, source, held, kinds⟩ := usable
  have sourced : block.pointerStr ["source", "type"] = source.kind := by rw [pointer_source, held, Option.bind_some]
  -- All but the bytes of a document is read off the block.
  have built (bytes : String) (last : Nat) (read : documentBytes crates source before = (some bytes, last)) :
      ∃ document, claudeDocument crates block before = (some document, last) ∧ document.source.bytes = bytes := by
    refine ⟨_, by simp only [claudeDocument, held, read, formatted, Option.bind_eq_bind, Option.bind_some]; rfl, rfl⟩
  obtain ⟨kind, data, given, decoded⟩ | ⟨kind, data, given⟩ | ⟨kind, whole⟩ := kinds
  · have none : insideDocument block = [] := by simp [insideDocument, sourced, kind]
    obtain ⟨document, translated, -⟩ := built data before (by simp [documentBytes, kind, given, decoded])
    refine ⟨document, by rw [translated, none]; rfl, ⟨by rw [translated], ?_⟩, by simp [none]⟩
    intro items content
    rw [sourced, kind] at content
    exact absurd content (by decide)
  · have none : insideDocument block = [] := by simp [insideDocument, sourced, kind]
    obtain ⟨document, translated, -⟩ := built _ before (by simp only [documentBytes, kind, given]; rfl)
    refine ⟨document, by rw [translated, none]; rfl, ⟨by rw [translated], ?_⟩, by simp [none]⟩
    intro items content
    rw [sourced, kind] at content
    exact absurd content (by decide)
  · have inner : insideDocument block = nestedAttachments (source.get "content") := by
      simp [insideDocument, sourced, kind, pointer_content, held]
    obtain ⟨text, content⟩ | ⟨items, content, parts_usable⟩ := whole
    · have none : insideDocument block = [] := by
        rw [inner, content, nestedAttachments, Option.map_some, Option.getD_some, attachments_eq]
        rfl
      obtain ⟨document, translated, -⟩ := built (crates.encode (Bytes.utf8 text)) before (by
        simp only [documentBytes, kind, content, customDocumentText])
      refine ⟨document, by rw [translated, none]; rfl, ⟨by rw [translated], ?_⟩, by simp [none]⟩
      intro items _ array
      rw [pointer_content, held, Option.bind_some, content] at array
      cases array
    · have listed : insideDocument block = items.flatMap blockAttachments := by
        rw [inner, content, nestedAttachments, Option.map_some, Option.getD_some, attachments_eq]
        rfl
      rw [listed] at segment ⊢
      obtain ⟨parts, read, marked⟩ := customDocumentParts_marked parts_usable before segment
      obtain ⟨document, translated, bytes⟩ := built (crates.encode (Bytes.utf8 ("\n\n".intercalate parts))) _ (by
        simp only [documentBytes, kind, content, customDocumentText, read]
        rfl)
      refine ⟨document, translated, ⟨by rw [translated], ?_⟩, images_of_items parts_usable⟩
      intro others _ array
      rw [pointer_content, held, Option.bind_some, content] at array
      obtain rfl : items = others := by simpa using array
      exact ⟨parts, bytes, marked⟩

def Follows (crates : Crates) (images : List KiroImage) (content : Value) : Prop :=
  (∀ found ∈ attachments content, Usable crates found) → ∀ (documents : List KiroDocument) (before : Nat),
    Segment crates images before (imageBlocks (attachments content)) →
    ∃ new, collectClaudeDocuments crates content (documents, before) =
        (documents ++ new, before + (imageBlocks (attachments content)).length) ∧
      Shown crates images before (attachments content) new

theorem documentStep_shown (inner : ∀ v, block.get "content" = some v → Follows crates images v)
    (usable : ∀ found ∈ blockAttachments block, Usable crates found) (documents : List KiroDocument) (before : Nat)
    (segment : Segment crates images before (imageBlocks (blockAttachments block))) :
    ∃ new, documentStep crates (documents, before) block =
        (documents ++ new, before + (imageBlocks (blockAttachments block)).length) ∧
      Shown crates images before (blockAttachments block) new := by
  unfold documentStep blockAttachments at *
  split at usable
  case h_1 kind =>
    simp only [kind] at segment ⊢
    exact ⟨[], by rw [List.append_nil]; rfl, .image .nil⟩
  case h_2 kind =>
    simp only [kind] at segment ⊢
    cases held : block.get "content" with
    | none => exact ⟨[], by rw [List.append_nil]; rfl, .nil⟩
    | some v =>
      rw [held] at usable segment
      exact inner v held usable documents before segment
  case h_3 kind =>
    simp only [kind] at segment ⊢
    have here : Usable crates (.document block) := usable _ List.mem_cons_self
    obtain ⟨document, translated, own, inside⟩ := claudeDocument_usable here before segment
    refine ⟨[document], ?_, .document own (Shown.of_images inside before)⟩
    rw [translated]
    rfl
  case h_4 other_image other_result other_document =>
    refine ⟨[], ?_, .nil⟩
    rw [List.append_nil]
    split <;> simp_all [imageBlocks]

theorem documentSteps_shown {blocks : List Value}
    (inner : ∀ block ∈ blocks, ∀ v, block.get "content" = some v → Follows crates images v)
    (usable : ∀ found ∈ blocks.flatMap blockAttachments, Usable crates found) (documents : List KiroDocument)
    (before : Nat) (segment : Segment crates images before (imageBlocks (blocks.flatMap blockAttachments))) :
    ∃ new, blocks.foldl (documentStep crates) (documents, before) =
        (documents ++ new, before + (imageBlocks (blocks.flatMap blockAttachments)).length) ∧
      Shown crates images before (blocks.flatMap blockAttachments) new := by
  induction blocks generalizing documents before with
  | nil => exact ⟨[], by rw [List.append_nil]; rfl, .nil⟩
  | cons block blocks ih =>
    rw [List.flatMap_cons] at usable segment ⊢
    rw [imageBlocks_append] at segment ⊢
    obtain ⟨first, stepped, shown⟩ := documentStep_shown (inner block List.mem_cons_self)
      (fun found member => usable found (List.mem_append_left _ member)) documents before segment.left
    obtain ⟨second, rest, later⟩ := ih (fun other member => inner other (List.mem_cons_of_mem block member))
      (fun found member => usable found (List.mem_append_right _ member)) (documents ++ first) _ segment.right
    refine ⟨first ++ second, ?_, shown.append later⟩
    rw [List.foldl_cons, stepped, rest, List.append_assoc, List.length_append, Nat.add_assoc]

theorem collect_follows (images : List KiroImage) (content : Value) : Follows crates images content := by
  intro usable documents before segment
  rw [collectClaudeDocuments_eq]
  rw [attachments_eq] at usable segment ⊢
  refine documentSteps_shown (fun block inside v held => ?_) usable documents before segment
  have := (Value.sizeOf_get held).trans (Value.sizeOf_block inside)
  exact collect_follows images v
termination_by sizeOf content

/-- What a message holds of its attachments: every image in order, every document with its
markers. -/
structure Holds (crates : Crates) (found : List Attachment) (turn : KiroHistoryMessage) : Prop where
  images : (turnImages turn).map some = (imageBlocks found).map (claudeImage crates)
  documents : Shown crates (turnImages turn) 0 found (turnDocuments turn)

theorem map_some_filterMap {β : Type} {f : α → Option β} {xs : List α} (all : ∀ x ∈ xs, ∃ y, f x = some y) :
    (xs.filterMap f).map some = xs.map f := by
  induction xs with
  | nil => rfl
  | cons x xs ih =>
    obtain ⟨y, held⟩ := all x List.mem_cons_self
    rw [List.filterMap_cons_some held, List.map_cons, List.map_cons, held,
      ih fun z member => all z (List.mem_cons_of_mem x member)]

theorem Segment.of_map {blocks : List Value} (all : images.map some = blocks.map (claudeImage crates)) :
    Segment crates images 0 blocks := by
  intro k block there
  have both := congrArg (·[k]?) all
  simp only [List.getElem?_map, there, Option.map_some] at both
  obtain ⟨image, held, usable⟩ := Option.map_eq_some_iff.1 both
  exact ⟨image, usable.symm, by rw [Nat.zero_add, held]⟩

theorem content_holds {content : Value} (usable : ∀ found ∈ attachments content, Usable crates found)
    {turn : KiroHistoryMessage} (images : turnImages turn = extractImages crates content)
    (documents : turnDocuments turn = extractDocuments crates content) :
    Holds crates (attachments content) turn := by
  have every : (turnImages turn).map some = (imageBlocks (attachments content)).map (claudeImage crates) := by
    rw [images, extractImages_blocks]
    refine map_some_filterMap fun block member => ?_
    obtain ⟨found, inside, is⟩ := List.mem_filterMap.1 member
    cases found with
    | image held =>
      obtain rfl := Option.some.inj is
      exact usable _ inside
    | document held => cases is
  obtain ⟨new, collected, shown⟩ := collect_follows (turnImages turn) content usable [] 0 (Segment.of_map every)
  refine ⟨every, ?_⟩
  rw [documents, extractDocuments, collected]
  exact shown

end Traversals

end KiroProxy.Claude

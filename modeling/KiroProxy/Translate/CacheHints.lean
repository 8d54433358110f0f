import KiroProxy.Translate.Attachments

/-! Requests without their cache hints. A hint is a `cache_control` on the request, on a tool,
on a message or on a block of its content, also of the content that a block carries; the
inputs of calls and the schemas of tools are the client's own data and stay as they are. -/
namespace KiroProxy

namespace Value

def withoutField (value : Value) (key : String) : Value :=
  match value with
  | .object fields => .object (fields.filter fun field => field.1 ≠ key)
  | other => other

def put (value : Value) (key : String) (inner : Value) : Value :=
  match value with
  | .object fields => .object (fields.map fun field => if field.1 = key then (key, inner) else field)
  | other => other

theorem get_withoutField (value : Value) (removed key : String) :
    (value.withoutField removed).get key = if key = removed then none else value.get key := by
  cases value with
  | object fields =>
    simp only [withoutField, get]
    induction fields with
    | nil => simp
    | cons field rest ih =>
      by_cases gone : field.1 = removed
      · rw [List.filter_cons_of_neg (by simpa using gone), ih, List.lookup_cons, gone]
        split
        case isTrue => rfl
        case isFalse other => rw [beq_eq_false_iff_ne.2 other]
      · rw [List.filter_cons_of_pos (by simpa using gone), List.lookup_cons, List.lookup_cons, ih]
        by_cases here : key = field.1
        · subst here
          simp [gone]
        · rw [beq_eq_false_iff_ne.2 here]
  | _ => simp [withoutField, get]

theorem get_put (value inner : Value) (changed key : String) :
    (value.put changed inner).get key = if key = changed then (value.get key).map fun _ => inner else value.get key := by
  cases value with
  | object fields =>
    simp only [put, get]
    induction fields with
    | nil => simp
    | cons field rest ih =>
      rw [List.map_cons, List.lookup_cons, List.lookup_cons, ih]
      by_cases here : field.1 = changed
      · by_cases same : key = changed
        · simp [here, same]
        · simp [here, beq_eq_false_iff_ne.2 same]
      · by_cases same : key = changed
        · subst same
          simp [here, beq_eq_false_iff_ne.2 (Ne.symm here)]
        · simp [here, same]
  | _ => simp [put, get]

@[simp] theorem isObject_withoutField (value : Value) (key : String) :
    (value.withoutField key).isObject = value.isObject := by
  cases value <;> rfl

@[simp] theorem isObject_put (value inner : Value) (key : String) : (value.put key inner).isObject = value.isObject := by
  cases value <;> rfl

end Value

mutual

def unhinted (content : Value) : Value :=
  match content with
  | .array items => .array (items.attach.map fun ⟨block, inside⟩ =>
      have : sizeOf block < sizeOf (Value.array items) := Value.sizeOf_block inside
      unhintedBlock block)
  | other => unhintedBlock other
termination_by (sizeOf content, 1)

def unhintedBlock (block : Value) : Value :=
  let bare := block.withoutField "cache_control"
  match block.kind with
  | some "tool_result" | some "search_result" => match found : block.get "content" with
    | some inner =>
      have := Value.sizeOf_get found
      bare.put "content" (unhinted inner)
    | none => bare
  | some "document" => if block.pointerStr ["source", "type"] == some "content" then
      match found : block.pointer ["source", "content"] with
      | some inner =>
        have := Value.sizeOf_pointer found
        bare.put "source" (((block.get "source").getD .null).put "content" (unhinted inner))
      | none => bare
    else bare
  | _ => bare
termination_by (sizeOf block, 0)

end

/-! ### A block without its hints -/

section Block

variable {block : Value}

def Carries (block : Value) : Prop := block.kind = some "tool_result" ∨ block.kind = some "search_result"

def OfBlocks (block : Value) : Prop :=
  block.kind = some "document" ∧ block.pointerStr ["source", "type"] = some "content"

theorem unhintedBlock_carries (carries : Carries block) :
    unhintedBlock block = match block.get "content" with
      | some inner => (block.withoutField "cache_control").put "content" (unhinted inner)
      | none => block.withoutField "cache_control" := by
  rw [unhintedBlock]
  rcases carries with kind | kind
  · simp only [kind]
    split <;> simp_all
  · simp only [kind]
    split <;> simp_all

theorem unhintedBlock_ofBlocks (made : OfBlocks block) :
    unhintedBlock block = match block.pointer ["source", "content"] with
      | some inner => (block.withoutField "cache_control").put "source"
          (((block.get "source").getD .null).put "content" (unhinted inner))
      | none => block.withoutField "cache_control" := by
  rw [unhintedBlock, made.1]
  simp only [made.2, beq_self_eq_true, if_true]
  split <;> simp_all

theorem unhintedBlock_plain (single : ¬ Carries block) (whole : ¬ OfBlocks block) :
    unhintedBlock block = block.withoutField "cache_control" := by
  rw [unhintedBlock]
  dsimp only
  split
  case h_1 kind => exact absurd (.inl kind) single
  case h_2 kind => exact absurd (.inr kind) single
  case h_3 kind =>
    rw [if_neg]
    exact fun same => whole ⟨kind, by simpa using same⟩
  case h_4 => rfl

theorem get_unhintedBlock (key : String) (content : key ≠ "content") (source : key ≠ "source") :
    (unhintedBlock block).get key = if key = "cache_control" then none else block.get key := by
  by_cases carries : Carries block
  · rw [unhintedBlock_carries carries]
    split
    · rw [Value.get_put, if_neg content, Value.get_withoutField]
    · rw [Value.get_withoutField]
  · by_cases made : OfBlocks block
    · rw [unhintedBlock_ofBlocks made]
      split
      · rw [Value.get_put, if_neg source, Value.get_withoutField]
      · rw [Value.get_withoutField]
    · rw [unhintedBlock_plain carries made, Value.get_withoutField]

@[simp] theorem hint_unhintedBlock : (unhintedBlock block).get "cache_control" = none :=
  get_unhintedBlock "cache_control" (by decide) (by decide)

theorem getStr_unhintedBlock {key : String} (content : key ≠ "content") (source : key ≠ "source")
    (hint : key ≠ "cache_control") : (unhintedBlock block).getStr key = block.getStr key := by
  rw [Value.getStr, get_unhintedBlock key content source, if_neg hint, Value.getStr]

@[simp] theorem kind_unhintedBlock : (unhintedBlock block).kind = block.kind :=
  getStr_unhintedBlock (by decide) (by decide) (by decide)

theorem content_of_carries (carries : Carries block) :
    (unhintedBlock block).get "content" = (block.get "content").map unhinted := by
  rw [unhintedBlock_carries carries]
  cases found : block.get "content" with
  | none => simp [Value.get_withoutField, found]
  | some inner => simp [Value.get_put, Value.get_withoutField, found]

theorem content_of_single (single : ¬ Carries block) : (unhintedBlock block).get "content" = block.get "content" := by
  by_cases made : OfBlocks block
  · rw [unhintedBlock_ofBlocks made]
    split
    · simp [Value.get_put, Value.get_withoutField]
    · simp [Value.get_withoutField]
  · simp [unhintedBlock_plain single made, Value.get_withoutField]

theorem source_of_whole (whole : ¬ OfBlocks block) : (unhintedBlock block).get "source" = block.get "source" := by
  by_cases carries : Carries block
  · rw [unhintedBlock_carries carries]
    split
    · simp [Value.get_put, Value.get_withoutField]
    · simp [Value.get_withoutField]
  · simp [unhintedBlock_plain carries whole, Value.get_withoutField]

theorem source_of_blocks (made : OfBlocks block) {source : Value} (held : block.get "source" = some source) :
    ∃ bare, (unhintedBlock block).get "source" = some bare ∧ bare.isObject = source.isObject ∧
      (∀ key, key ≠ "content" → bare.get key = source.get key) ∧
      bare.get "content" = (source.get "content").map unhinted := by
  rw [unhintedBlock_ofBlocks made]
  have path : block.pointer ["source", "content"] = source.get "content" := by
    simp [Value.pointer, held]
  rw [path]
  cases found : source.get "content" with
  | none =>
    refine ⟨source, ?_, rfl, fun _ _ => rfl, found⟩
    simp [Value.get_withoutField, held]
  | some inner =>
    refine ⟨source.put "content" (unhinted inner), ?_, by simp, ?_, ?_⟩
    · simp [Value.get_put, Value.get_withoutField, held]
    · intro key other
      rw [Value.get_put, if_neg other]
    · simp [Value.get_put, found]

@[simp] theorem isObject_unhintedBlock : (unhintedBlock block).isObject = block.isObject := by
  by_cases carries : Carries block
  · rw [unhintedBlock_carries carries]
    split <;> simp only [Value.isObject_put, Value.isObject_withoutField]
  · by_cases made : OfBlocks block
    · rw [unhintedBlock_ofBlocks made]
      split <;> simp only [Value.isObject_put, Value.isObject_withoutField]
    · rw [unhintedBlock_plain carries made, Value.isObject_withoutField]

end Block

@[simp] theorem blocks_unhinted (content : Value) : (unhinted content).blocks = content.blocks.map unhintedBlock := by
  cases content with
  | array items =>
    rw [unhinted]
    simp [Value.blocks, Value.asArray]
  | object fields =>
    have object : (unhintedBlock (.object fields)).isObject = true := isObject_unhintedBlock
    rw [unhinted]
    · cases shape : unhintedBlock (.object fields) <;> simp_all [Value.blocks, Value.asArray, Value.isObject]
    · simp
  | _ => simp [unhinted, unhintedBlock, Value.kind, Value.getStr, Value.get, Value.withoutField, Value.blocks, Value.asArray]

@[simp] theorem unhinted_string (text : String) : unhinted (.string text) = .string text := by
  simp [unhinted, unhintedBlock, Value.kind, Value.getStr, Value.get, Value.withoutField]

@[simp] theorem unhinted_array (items : List Value) : unhinted (.array items) = .array (items.map unhintedBlock) := by
  rw [unhinted]
  simp

@[simp] theorem isObject_unhinted (content : Value) : (unhinted content).isObject = content.isObject := by
  cases content with
  | array items => simp [Value.isObject]
  | _ =>
    rw [unhinted]
    · exact isObject_unhintedBlock
    · simp

theorem unhinted_object {content : Value} (object : content.isObject = true) :
    ∃ fields, unhinted content = .object fields := by
  rw [← isObject_unhinted] at object
  cases shape : unhinted content with
  | object fields => exact ⟨fields, rfl⟩
  | _ => simp [shape, Value.isObject] at object

/-! ### What is read stays the same -/

theorem filterMap_unhinted {α : Type} {f : Value → Option α} (same : ∀ block, f (unhintedBlock block) = f block)
    (blocks : List Value) : (blocks.map unhintedBlock).filterMap f = blocks.filterMap f := by
  rw [List.filterMap_map]
  exact congrArg (fun g => blocks.filterMap g) (funext same)

theorem flatMap_unhinted {α : Type} {f : Value → List α} (same : ∀ block, f (unhintedBlock block) = f block)
    (blocks : List Value) : (blocks.map unhintedBlock).flatMap f = blocks.flatMap f := by
  rw [List.flatMap_map]
  exact congrArg (fun g => blocks.flatMap g) (funext same)

theorem not_ofBlocks {block : Value} (kind : block.kind ≠ some "document") : ¬ OfBlocks block := fun made => kind made.1

@[simp] theorem searchResultText_unhinted (block : Value) (kind : block.kind = some "search_result") :
    searchResultText (unhintedBlock block) = searchResultText block := by
  have text : ∀ part : Value, ((unhintedBlock part).getStr "text").map Value.string = (part.getStr "text").map .string :=
    fun part => by rw [getStr_unhintedBlock (by decide) (by decide) (by decide)]
  have parts : ((((block.get "content").map unhinted).map Value.blocks).getD []).filterMap
      (fun part => (part.getStr "text").map Value.string) =
        (((block.get "content").map Value.blocks).getD []).filterMap fun part => (part.getStr "text").map Value.string := by
    cases block.get "content" with
    | none => rfl
    | some inner =>
      simp only [Option.map_some, Option.getD_some, blocks_unhinted]
      exact filterMap_unhinted text _
  unfold searchResultText
  dsimp only
  rw [content_of_carries (.inr kind), parts, source_of_whole (not_ofBlocks (by simp [kind])),
    get_unhintedBlock "title" (by decide) (by decide)]
  rfl

@[simp] theorem blockText_unhinted (block : Value) : blockText (unhintedBlock block) = blockText block := by
  have field : ∀ key, key ≠ "content" → key ≠ "source" → key ≠ "cache_control" →
      (unhintedBlock block).get key = block.get key := by
    intro key content source hint
    rw [get_unhintedBlock key content source, if_neg hint]
  have plain : block.kind ≠ some "tool_result" → block.kind ≠ some "search_result" →
      (((unhintedBlock block).get "text").or ((unhintedBlock block).get "thinking")).or
        ((unhintedBlock block).get "content") = ((block.get "text").or (block.get "thinking")).or (block.get "content") := by
    intro first second
    rw [field "text" (by decide) (by decide) (by decide), field "thinking" (by decide) (by decide) (by decide),
      content_of_single (by rintro (kind | kind) <;> contradiction)]
  unfold blockText
  rw [kind_unhintedBlock]
  split
  case h_1 kind => rw [plain (by simp [kind]) (by simp [kind])]
  case h_2 kind => rw [plain (by simp [kind]) (by simp [kind])]
  case h_3 kind => rw [plain (by simp [kind]) (by simp [kind])]
  case h_4 => rw [getStr_unhintedBlock (by decide) (by decide) (by decide)]
  case h_5 kind => rw [searchResultText_unhinted block kind]
  case h_6 => rfl

@[simp] theorem contentText_unhinted (content : Value) : contentText (unhinted content) = contentText content := by
  cases content with
  | string text => simp
  | array items =>
    rw [unhinted_array, contentText, contentText, filterMap_unhinted blockText_unhinted]
  | object fields =>
    obtain ⟨others, same⟩ := unhinted_object (rfl : (Value.object fields).isObject = true)
    rw [same]
    rfl
  | _ => simp [unhinted, unhintedBlock, Value.kind, Value.getStr, Value.get, Value.withoutField]

@[simp] theorem systemText_unhinted (system : Option Value) : systemText (system.map unhinted) = systemText system := by
  cases system with
  | none => rfl
  | some system =>
    cases system with
    | string text => simp
    | array items =>
      rw [Option.map_some, unhinted_array, systemText, systemText,
        filterMap_unhinted fun block => getStr_unhintedBlock (by decide) (by decide) (by decide)]
    | object fields =>
      obtain ⟨others, same⟩ := unhinted_object (rfl : (Value.object fields).isObject = true)
      rw [Option.map_some, same]
      rfl
    | _ => simp [unhinted, unhintedBlock, Value.kind, Value.getStr, Value.get, Value.withoutField]

/-! Content inside of blocks, by induction on its size. -/

theorem source_pointer {block : Value} {key : String} (other : key ≠ "content") :
    (unhintedBlock block).pointer ["source", key] = block.pointer ["source", key] := by
  by_cases made : OfBlocks block
  · cases held : block.get "source" with
    | none =>
      have path : block.pointer ["source", "content"] = none := by simp [Value.pointer, held]
      rw [unhintedBlock_ofBlocks made, path]
      simp [Value.pointer, Value.get_withoutField]
    | some source =>
      obtain ⟨bare, found, -, fields, -⟩ := source_of_blocks made held
      simp [Value.pointer, found, held, fields key other]
  · simp [Value.pointer, source_of_whole made]

theorem source_pointerStr {block : Value} {key : String} (other : key ≠ "content") :
    (unhintedBlock block).pointerStr ["source", key] = block.pointerStr ["source", key] := by
  rw [Value.pointerStr, source_pointer other, Value.pointerStr]

theorem source_content {block : Value} (made : OfBlocks block) :
    (unhintedBlock block).pointer ["source", "content"] = (block.pointer ["source", "content"]).map unhinted := by
  cases held : block.get "source" with
  | none =>
    have path : block.pointer ["source", "content"] = none := by simp [Value.pointer, held]
    rw [unhintedBlock_ofBlocks made, path]
    simp [Value.pointer, Value.get_withoutField, held]
  | some source =>
    obtain ⟨bare, found, -, -, content⟩ := source_of_blocks made held
    cases inner : source.get "content" <;> simp [Value.pointer, found, held, content, inner]

theorem inside_content {content block inner : Value} (member : block ∈ content.blocks)
    (found : block.get "content" = some inner) : sizeOf inner < sizeOf content :=
  (Value.sizeOf_get found).trans (Value.sizeOf_block member)

theorem inside_source {content block inner : Value} (member : block ∈ content.blocks)
    (found : block.pointer ["source", "content"] = some inner) : sizeOf inner < sizeOf content :=
  (Value.sizeOf_pointer found).trans (Value.sizeOf_block member)

section Traversals

variable (crates : Crates)

theorem claudeImage_unhinted {block : Value} (kind : block.kind = some "image") :
    claudeImage crates (unhintedBlock block) = claudeImage crates block := by
  rw [claudeImage, source_of_whole (not_ofBlocks (by simp [kind])), claudeImage]

theorem blockImages_unhinted {block : Value}
    (contents : ∀ inner, block.get "content" = some inner → extractImages crates (unhinted inner) = extractImages crates inner)
    (sources : ∀ inner, block.pointer ["source", "content"] = some inner →
      extractImages crates (unhinted inner) = extractImages crates inner) :
    Claude.blockImages crates (unhintedBlock block) = Claude.blockImages crates block := by
  unfold Claude.blockImages
  rw [kind_unhintedBlock]
  split
  case h_1 kind => rw [claudeImage_unhinted crates kind]
  case h_2 kind =>
    rw [content_of_carries (.inl kind)]
    cases found : block.get "content" with
    | none => rfl
    | some inner => simp [Claude.nestedImages, contents inner found]
  case h_3 kind =>
    rw [source_pointerStr (by decide)]
    by_cases typed : block.pointerStr ["source", "type"] = some "content"
    · rw [source_content ⟨kind, typed⟩]
      cases found : block.pointer ["source", "content"] with
      | none => rfl
      | some inner => simp [Claude.nestedImages, sources inner found]
    · simp [typed]
  case h_4 => rfl

@[simp] theorem extractImages_unhinted (content : Value) :
    extractImages crates (unhinted content) = extractImages crates content := by
  rw [Claude.extractImages_eq, Claude.extractImages_eq, blocks_unhinted, List.flatMap_map]
  refine List.flatMap_congr fun block member => blockImages_unhinted crates ?_ ?_
  · intro inner found
    have := inside_content member found
    exact extractImages_unhinted inner
  · intro inner found
    have := inside_source member found
    exact extractImages_unhinted inner
termination_by sizeOf content

theorem customDocumentParts_unhinted (items : List Value) (index : Nat) :
    customDocumentParts (items.map unhintedBlock) index = customDocumentParts items index := by
  induction items generalizing index with
  | nil => rfl
  | cons block rest ih =>
    rw [List.map_cons, customDocumentParts, customDocumentParts, kind_unhintedBlock]
    split
    · rw [ih, getStr_unhintedBlock (by decide) (by decide) (by decide)]
    · rw [ih]
    · rw [ih]

theorem customDocumentText_unhinted (content : Value) (index : Nat) :
    customDocumentText (unhinted content) index = customDocumentText content index := by
  cases content with
  | string text => simp
  | array items => rw [unhinted_array, customDocumentText, customDocumentText, customDocumentParts_unhinted]
  | object fields =>
    obtain ⟨others, same⟩ := unhinted_object (rfl : (Value.object fields).isObject = true)
    rw [same]
    rfl
  | _ => simp [unhinted, unhintedBlock, Value.kind, Value.getStr, Value.get, Value.withoutField]

theorem names_unhinted (block : Value) :
    ["name", "title"].filterMap (unhintedBlock block).getStr = ["name", "title"].filterMap block.getStr := by
  have name : (unhintedBlock block).getStr "name" = block.getStr "name" :=
    getStr_unhintedBlock (by decide) (by decide) (by decide)
  have title : (unhintedBlock block).getStr "title" = block.getStr "title" :=
    getStr_unhintedBlock (by decide) (by decide) (by decide)
  rw [List.filterMap_cons, List.filterMap_cons, name, title, List.filterMap_cons, List.filterMap_cons]
  rfl

theorem claudeDocumentLabel_unhinted (block : Value) :
    claudeDocumentLabel (unhintedBlock block) = claudeDocumentLabel block := by
  rw [claudeDocumentLabel, names_unhinted, claudeDocumentLabel]

theorem source_fields (block : Value) : (((unhintedBlock block).get "source").map fun source =>
      (source.kind, source.getStr "media_type", source.getStr "data")) =
    (block.get "source").map fun source => (source.kind, source.getStr "media_type", source.getStr "data") := by
  by_cases made : OfBlocks block
  · cases held : block.get "source" with
    | none => simp [OfBlocks, Value.pointerStr, Value.pointer, held] at made
    | some source =>
      obtain ⟨bare, found, -, fields, -⟩ := source_of_blocks made held
      simp [found, Value.kind, Value.getStr, fields]
  · rw [source_of_whole made]

theorem claudeDocumentFormat_unhinted (block : Value) :
    claudeDocumentFormat (unhintedBlock block) = claudeDocumentFormat block := by
  have same := source_fields block
  unfold claudeDocumentFormat
  rw [names_unhinted]
  cases held : block.get "source" with
  | none =>
    rw [held] at same
    rw [Option.map_eq_none_iff.1 same]
  | some source =>
    rw [held, Option.map_some] at same
    obtain ⟨bare, found, fields⟩ := Option.map_eq_some_iff.1 same
    simp only [Prod.mk.injEq] at fields
    simp [found, fields.1, fields.2.1]

theorem documentBytes_unhinted {block source bare : Value} (held : block.get "source" = some source)
    (found : (unhintedBlock block).get "source" = some bare) (index : Nat) :
    documentBytes crates bare index = documentBytes crates source index := by
  by_cases made : OfBlocks block
  · obtain ⟨bare', found', -, fields, content⟩ := source_of_blocks made held
    obtain rfl := Option.some.inj (found.symm.trans found')
    have typed : bare.kind = source.kind := by simp [Value.kind, Value.getStr, fields]
    unfold documentBytes
    rw [typed]
    split
    · simp [Value.getStr, fields]
    · simp [Value.getStr, fields]
    · rw [content]
      cases source.get "content" with
      | none => rfl
      | some inner => simp [customDocumentText_unhinted]
    · rfl
  · rw [source_of_whole made, held, Option.some.injEq] at found
    rw [found]

theorem claudeDocument_unhinted (block : Value) (index : Nat) :
    claudeDocument crates (unhintedBlock block) index = claudeDocument crates block index := by
  have same := source_fields block
  unfold claudeDocument
  cases held : block.get "source" with
  | none =>
    rw [held] at same
    rw [Option.map_eq_none_iff.1 same]
  | some source =>
    rw [held, Option.map_some] at same
    obtain ⟨bare, found, -⟩ := Option.map_eq_some_iff.1 same
    have citations : (unhintedBlock block).pointer ["citations", "enabled"] = block.pointer ["citations", "enabled"] := by
      simp [Value.pointer, get_unhintedBlock]
    simp only [found, documentBytes_unhinted crates held found, claudeDocumentFormat_unhinted,
      claudeDocumentLabel_unhinted, citations]

theorem collect_unhinted (content : Value) (found : List KiroDocument × Nat) :
    collectClaudeDocuments crates (unhinted content) found = collectClaudeDocuments crates content found := by
  rw [Claude.collectClaudeDocuments_eq, Claude.collectClaudeDocuments_eq, blocks_unhinted, List.foldl_map]
  refine List.foldl_ext _ _ found fun state block member => ?_
  unfold Claude.documentStep
  rw [kind_unhintedBlock]
  split
  · rfl
  · rw [claudeDocument_unhinted]
  case h_3 kind =>
    rw [content_of_carries (.inl kind)]
    cases inner : block.get "content" with
    | none => rfl
    | some inside =>
      have := inside_content member inner
      exact collect_unhinted inside state
  · rfl
termination_by sizeOf content

@[simp] theorem extractDocuments_unhinted (content : Value) :
    extractDocuments crates (unhinted content) = extractDocuments crates content := by
  rw [extractDocuments, collect_unhinted, extractDocuments]

theorem openaiImage_unhinted (block : Value) : openaiImage crates (unhintedBlock block) = openaiImage crates block := by
  have url : (unhintedBlock block).pointerStr ["image_url", "url"] = block.pointerStr ["image_url", "url"] := by
    simp [Value.pointerStr, Value.pointer, get_unhintedBlock]
  rw [openaiImage, kind_unhintedBlock, url, openaiImage]

@[simp] theorem extractOpenaiImages_unhinted (content : Value) :
    extractOpenaiImages crates (unhinted content) = extractOpenaiImages crates content := by
  rw [extractOpenaiImages, blocks_unhinted, filterMap_unhinted (openaiImage_unhinted crates), extractOpenaiImages]

end Traversals

/-! The other traversals, each read off the blocks of a content. -/

def blockContexts (block : Value) : List Value :=
  match block.kind with
  | some "document" => match (block.getStr "context").filter fun context => !blank context with
    | some context => [.object [("context", .string context), ("document_name", .string
        (neutralDocumentName (claudeDocumentLabel block) ((claudeDocumentFormat block).getD "txt")))]]
    | none => []
  | some "tool_result" => ((block.get "content").map documentContexts).getD []
  | _ => []

theorem documentContexts_eq (content : Value) : documentContexts content = content.blocks.flatMap blockContexts := by
  rw [documentContexts]
  apply Claude.flatMap_attach
  rintro ⟨block, inside⟩
  simp only [blockContexts]
  split
  case h_1 kind => cases (block.getStr "context").filter fun context => !blank context <;> simp [kind]
  · split <;> simp_all
  · simp_all

theorem documentContexts_unhinted (content : Value) : documentContexts (unhinted content) = documentContexts content := by
  rw [documentContexts_eq, documentContexts_eq, blocks_unhinted, List.flatMap_map]
  refine List.flatMap_congr fun block member => ?_
  unfold blockContexts
  rw [kind_unhintedBlock]
  split
  · have context : (unhintedBlock block).getStr "context" = block.getStr "context" :=
      getStr_unhintedBlock (by decide) (by decide) (by decide)
    rw [context, claudeDocumentLabel_unhinted, claudeDocumentFormat_unhinted]
  case h_2 kind =>
    rw [content_of_carries (.inl kind)]
    cases inner : block.get "content" with
    | none => rfl
    | some inside =>
      have := inside_content member inner
      simp [documentContexts_unhinted inside]
  · rfl
termination_by sizeOf content

@[simp] theorem documentContextText_unhinted (content : Value) :
    documentContextText (unhinted content) = documentContextText content := by
  rw [documentContextText, documentContexts_unhinted, documentContextText]

def blockShowsImage (block : Value) : Bool :=
  match block.kind with
  | some "image" => true
  | some "tool_result" => ((block.get "content").map contentContainsClaudeImage).getD false
  | some "document" => block.pointerStr ["source", "type"] == some "content" &&
      ((block.pointer ["source", "content"]).map contentContainsClaudeImage).getD false
  | _ => false

theorem contentContainsClaudeImage_eq (content : Value) :
    contentContainsClaudeImage content = content.blocks.any blockShowsImage := by
  rw [contentContainsClaudeImage]
  conv_rhs => rw [← List.attach_map_subtype_val content.blocks, List.any_map]
  congr 1
  funext ⟨block, inside⟩
  simp only [Function.comp, blockShowsImage]
  split
  · simp_all
  · split <;> simp_all
  · split
    · split <;> simp_all
    · simp_all
  · simp_all

theorem contentContainsClaudeImage_unhinted (content : Value) :
    contentContainsClaudeImage (unhinted content) = contentContainsClaudeImage content := by
  have each : (content.blocks.map unhintedBlock).map blockShowsImage = content.blocks.map blockShowsImage := by
    rw [List.map_map]
    refine List.map_congr_left fun block member => ?_
    unfold Function.comp blockShowsImage
    rw [kind_unhintedBlock]
    split
    · rfl
    case h_2 kind =>
      rw [content_of_carries (.inl kind)]
      cases inner : block.get "content" with
      | none => rfl
      | some inside =>
        have := inside_content member inner
        simp [contentContainsClaudeImage_unhinted inside]
    case h_3 kind =>
      rw [source_pointerStr (by decide)]
      by_cases typed : block.pointerStr ["source", "type"] = some "content"
      · rw [source_content ⟨kind, typed⟩]
        cases inner : block.pointer ["source", "content"] with
        | none => rfl
        | some inside =>
          have := inside_source member inner
          simp [contentContainsClaudeImage_unhinted inside]
      · rw [beq_eq_false_iff_ne.2 typed, Bool.false_and, Bool.false_and]
    · rfl
  have shown : ∀ blocks : List Value, blocks.any blockShowsImage = (blocks.map blockShowsImage).any id := by
    intro blocks
    rw [List.any_map]
    rfl
  rw [contentContainsClaudeImage_eq, contentContainsClaudeImage_eq, blocks_unhinted, shown, each, ← shown]
termination_by sizeOf content

theorem toolResult_unhinted {block : Value} (kind : block.kind = some "tool_result") :
    toolResult (unhintedBlock block) = toolResult block := by
  have id : (unhintedBlock block).getStr "tool_use_id" = block.getStr "tool_use_id" :=
    getStr_unhintedBlock (by decide) (by decide) (by decide)
  have failed : (unhintedBlock block).get "is_error" = block.get "is_error" := get_unhintedBlock _ (by decide) (by decide)
  have documents : ((((block.get "content").map unhinted).map Value.blocks).getD []).any
      (fun block => block.kind == some "document") =
        (((block.get "content").map Value.blocks).getD []).any fun block => block.kind == some "document" := by
    cases block.get "content" with
    | none => rfl
    | some inner => simp [List.any_map, Function.comp_def]
  have images : (((block.get "content").map unhinted).map contentContainsClaudeImage).getD false =
      ((block.get "content").map contentContainsClaudeImage).getD false := by
    cases block.get "content" with
    | none => rfl
    | some inner => simp [contentContainsClaudeImage_unhinted]
  have text : (((block.get "content").map unhinted).map contentText).getD "" =
      ((block.get "content").map contentText).getD "" := by
    cases block.get "content" with
    | none => rfl
    | some inner => simp
  unfold toolResult
  dsimp only
  rw [id, failed, content_of_carries (.inl kind), documents, images, text]

@[simp] theorem extractToolResults_unhinted (content : Value) :
    extractToolResults (unhinted content) = extractToolResults content := by
  rw [extractToolResults, extractToolResults, blocks_unhinted]
  induction content.blocks with
  | nil => rfl
  | cons block rest ih =>
    rw [List.map_cons]
    by_cases result : block.kind = some "tool_result"
    · rw [List.filter_cons_of_pos (by simp [result]), List.filter_cons_of_pos (by simp [result]), List.filterMap_cons,
        List.filterMap_cons, toolResult_unhinted result, ih]
    · rw [List.filter_cons_of_neg (by simp [result]), List.filter_cons_of_neg (by simp [result]), ih]

def nestedCachePoint (block : Value) : Option KiroCachePoint :=
  match block.kind with
  | some "tool_result" | some "search_result" => (block.get "content").bind contentCachePoint
  | some "document" => if block.pointerStr ["source", "type"] == some "content" then
      (block.pointer ["source", "content"]).bind contentCachePoint else none
  | _ => none

theorem blockCachePoint_eq (block : Value) :
    blockCachePoint block = mergedCachePoint (nestedCachePoint block) (kiroCachePoint (block.get "cache_control")) := by
  rw [blockCachePoint]
  dsimp only
  congr 1
  unfold nestedCachePoint
  split
  · split <;> simp_all
  · split <;> simp_all
  · split
    · split <;> simp_all
    · simp_all
  · simp_all

theorem contentCachePoint_eq (content : Value) :
    contentCachePoint content = if content.isObject then kiroCachePoint (content.get "cache_control")
      else (content.blocks.filterMap blockCachePoint).getLast? := by
  rw [contentCachePoint]
  split
  · rfl
  · congr 1
    conv_rhs => rw [← List.attach_map_subtype_val content.blocks, List.filterMap_map]
    rfl

@[simp] theorem contentCachePoint_unhinted (content : Value) : contentCachePoint (unhinted content) = none := by
  rw [contentCachePoint_eq]
  split
  case isTrue object =>
    rw [isObject_unhinted] at object
    cases content with
    | object fields =>
      rw [unhinted]
      · rw [hint_unhintedBlock]
        rfl
      · simp
    | _ => simp [Value.isObject] at object
  case isFalse =>
    rw [blocks_unhinted, List.filterMap_map]
    have every : content.blocks.filterMap (blockCachePoint ∘ unhintedBlock) = [] := by
      refine List.filterMap_eq_nil_iff.2 fun block member => ?_
      have nested : nestedCachePoint (unhintedBlock block) = none := by
        unfold nestedCachePoint
        rw [kind_unhintedBlock]
        split
        case h_1 kind =>
          rw [content_of_carries (.inl kind)]
          cases inner : block.get "content" with
          | none => rfl
          | some inside =>
            have := inside_content member inner
            exact contentCachePoint_unhinted inside
        case h_2 kind =>
          rw [content_of_carries (.inr kind)]
          cases inner : block.get "content" with
          | none => rfl
          | some inside =>
            have := inside_content member inner
            exact contentCachePoint_unhinted inside
        case h_3 kind =>
          rw [source_pointerStr (by decide)]
          by_cases typed : block.pointerStr ["source", "type"] = some "content"
          · rw [source_content ⟨kind, typed⟩]
            cases inner : block.pointer ["source", "content"] with
            | none => simp
            | some inside =>
              have := inside_source member inner
              simp [contentCachePoint_unhinted inside]
          · simp [typed]
        · rfl
      rw [Function.comp, blockCachePoint_eq, nested, hint_unhintedBlock]
      rfl
    rw [every]
    rfl
termination_by sizeOf content

end KiroProxy

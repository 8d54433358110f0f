import KiroProxy.Http.RemoteAttachments
import KiroProxy.Translate.CacheHints

/-! Hydration of a request at all its targets at once: the targets are at places that do not meet, so that the downloads
can be put in place in any order. -/
namespace KiroProxy.Http.Hydration

open Value

abbrev Path := List (List Char)

def contentPath : Path := ["content".toList]

def sourceContentPath : Path := ["source".toList, "content".toList]

/-- The content inside a block in which attachments are looked for, under its path. -/
def nestedContent (block : Value) : Option (Path × Value) :=
  if block.kind = some "tool_result" then (block.get "content").map (contentPath, ·)
  else if block.kind = some "document" ∧ block.pointerStr ["source", "type"] = some "content" then
    (block.pointer ["source", "content"]).map (sourceContentPath, ·)
  else none

theorem sizeOf_nestedContent {block inner : Value} {path : Path} (nested : nestedContent block = some (path, inner)) :
    sizeOf inner < sizeOf block := by
  unfold nestedContent at nested
  split at nested
  · obtain ⟨content, held, same⟩ := Option.map_eq_some_iff.1 nested
    cases same
    exact sizeOf_get held
  · split at nested
    · obtain ⟨content, held, same⟩ := Option.map_eq_some_iff.1 nested
      cases same
      exact sizeOf_pointer held
    · cases nested

def isTarget (block : Value) : Bool := isRemote block && (block.pointerStr ["source", "url"]).isSome

def targets (content : Value) : List (Path × Value) :=
  content.blocks.attach.zipIdx.flatMap fun (⟨block, inside⟩, index) =>
    if isTarget block then [([indexToken index], block)]
    else match found : nestedContent block with
      | some (path, inner) =>
        have := (sizeOf_nestedContent found).trans (sizeOf_block inside)
        (targets inner).map fun (rest, target) => (indexToken index :: (path ++ rest), target)
      | none => []
termination_by sizeOf content

def fill (state : Path → Value) (content : Value) : Value :=
  match content with
  | .array items => .array (items.attach.mapIdx fun index ⟨block, inside⟩ =>
      if isTarget block then state [indexToken index]
      else match found : nestedContent block with
        | some (path, inner) =>
          have : sizeOf inner < 1 + sizeOf items :=
            Nat.lt_add_left 1 ((sizeOf_nestedContent found).trans (List.sizeOf_lt_of_mem inside))
          replaceAt path (fill (fun rest => state (indexToken index :: (path ++ rest))) inner) block
        | none => block)
  | other => other
termination_by sizeOf content

/-! ### One block -/

def blockTargets (block : Value) : List (Path × Value) :=
  if isTarget block then [([], block)]
  else match nestedContent block with
    | some (path, inner) => (targets inner).map fun (rest, target) => (path ++ rest, target)
    | none => []

def fillBlock (state : Path → Value) (block : Value) : Value :=
  if isTarget block then state []
  else match nestedContent block with
    | some (path, inner) => replaceAt path (fill (fun rest => state (path ++ rest)) inner) block
    | none => block

theorem zipIdx_attach {α : Type} (xs : List α) : xs.zipIdx = xs.attach.zipIdx.map (Prod.map Subtype.val id) := by
  rw [← List.zipIdx_map, List.attach_map_subtype_val]

theorem targets_eq (content : Value) : targets content = content.blocks.zipIdx.flatMap fun (block, index) =>
    (blockTargets block).map fun (path, target) => (indexToken index :: path, target) := by
  rw [targets, zipIdx_attach content.blocks, List.flatMap_map]
  refine List.flatMap_congr fun ⟨⟨block, inside⟩, index⟩ _ => ?_
  simp only [blockTargets, Prod.map, id]
  split
  case isTrue => rfl
  case isFalse =>
    split
    case h_1 path inner found => rw [found, List.map_map]; rfl
    case h_2 none => rw [none, List.map_nil]

theorem fill_array (state : Path → Value) (items : List Value) : fill state (.array items) =
    .array (items.mapIdx fun index block => fillBlock (fun path => state (indexToken index :: path)) block) := by
  rw [fill, List.mapIdx_eq_zipIdx_map, List.mapIdx_eq_zipIdx_map, zipIdx_attach items, List.map_map]
  refine congrArg Value.array (List.map_congr_left fun ⟨⟨block, inside⟩, index⟩ _ => ?_)
  simp only [fillBlock, Function.comp, Prod.map, id]
  split
  case isTrue => rfl
  case isFalse =>
    split
    case h_1 path inner found => rw [found]
    case h_2 none => rw [none]

/-! ### The content inside a block -/

section Nested

variable {block inner : Value} {path : Path}

inductive Nested (block : Value) : Path → Value → Prop
  | result {inner : Value} (kind : block.kind = some "tool_result") (held : block.get "content" = some inner) :
      Nested block contentPath inner
  | document {inner source : Value} (kind : block.kind = some "document") (held : block.get "source" = some source)
      (type : source.getStr "type" = some "content") (content : source.get "content" = some inner) :
      Nested block sourceContentPath inner

theorem pointerStr_source (block : Value) :
    block.pointerStr ["source", "type"] = (block.get "source").bind fun source => source.getStr "type" := by
  cases held : block.get "source" with
  | none => simp [pointerStr, pointer, held]
  | some source => cases type : source.get "type" <;> simp [pointerStr, pointer, held, type, getStr]

theorem nestedContent_iff : nestedContent block = some (path, inner) ↔ Nested block path inner := by
  constructor
  · intro nested
    unfold nestedContent at nested
    split at nested
    case isTrue kind =>
      obtain ⟨content, held, same⟩ := Option.map_eq_some_iff.1 nested
      cases same
      exact .result kind held
    case isFalse =>
      split at nested
      case isTrue document =>
        obtain ⟨content, held, same⟩ := Option.map_eq_some_iff.1 nested
        cases same
        obtain ⟨kind, type⟩ := document
        rw [pointerStr_source] at type
        obtain ⟨source, given, type⟩ := Option.bind_eq_some_iff.1 type
        refine .document kind given type ?_
        rw [pointer, given, Option.bind_some, pointer] at held
        obtain ⟨found, there, same⟩ := Option.bind_eq_some_iff.1 held
        cases same
        exact there
      case isFalse => cases nested
  · rintro (⟨kind, held⟩ | ⟨kind, held, type, content⟩)
    · rw [nestedContent, if_pos kind, held, Option.map_some]
    · have other : block.kind ≠ some "tool_result" := by
        rw [kind]
        decide
      rw [nestedContent, if_neg other, if_pos ⟨kind, by rw [pointerStr_source, held, Option.bind_some, type]⟩]
      simp [pointer, held, content]

theorem Nested.not_remote (nested : Nested block path inner) : isRemote block = false := by
  cases nested with
  | result kind held => simp [isRemote, kind]
  | document kind held type content => simp [isRemote, kind, pointerStr_source, held, type]

theorem Nested.not_target (nested : Nested block path inner) : isTarget block = false := by
  rw [isTarget, nested.not_remote, Bool.false_and]

theorem name_content : parseIndex "content".toList = none := by decide

theorem name_source : parseIndex "source".toList = none := by decide

theorem Nested.follow (nested : Nested block path inner) : follow path block = some inner := by
  cases nested with
  | result kind held =>
    rw [contentPath, follow_cons]
    exact ⟨inner, (descend_name name_content block).trans held, rfl⟩
  | document kind held type content =>
    rw [sourceContentPath, follow_cons]
    refine ⟨_, (descend_name name_source block).trans held, ?_⟩
    rw [follow_cons]
    exact ⟨inner, (descend_name name_content _).trans content, rfl⟩

theorem Nested.replace (nested : Nested block path inner) (other : Value) : Nested (replaceAt path other block) path other := by
  have made := updateAt_const nested.follow other
  cases nested with
  | result kind held =>
    have fields := get_updateChild name_content made
    refine .result ?_ ?_
    · rw [← kind, Value.kind, getStr, fields, if_neg (by decide)]
      rfl
    · rw [fields, if_pos rfl, held]
      rfl
  | document kind held type content =>
    have fields := get_updateChild name_source made
    have inside : Value.follow contentPath _ = some inner :=
      follow_cons.2 ⟨inner, (descend_name name_content _).trans content, rfl⟩
    have source_made := updateAt_const inside other
    have source := fields "source"
    rw [if_pos rfl, held, Option.bind_some] at source
    have source_fields := get_updateChild name_content source_made
    refine .document ?_ (source.trans source_made) ?_ ?_
    · rw [← kind, Value.kind, getStr, fields, if_neg (by decide)]
      rfl
    · rw [← type, getStr, source_fields, if_neg (by decide)]
      rfl
    · rw [source_fields, if_pos rfl, content]
      rfl

theorem block_split (block : Value) : isTarget block = true ∨ (∃ path inner, Nested block path inner) ∨
    isTarget block = false ∧ nestedContent block = none := by
  cases target : isTarget block with
  | true => exact .inl rfl
  | false =>
    cases found : nestedContent block with
    | none => exact .inr (.inr ⟨rfl, rfl⟩)
    | some nested => exact .inr (.inl ⟨nested.1, nested.2, nestedContent_iff.1 found⟩)

end Nested

/-- What targets and filling have in common holds of every content if it holds where nothing is fetched, of a fetched
block, and of a block or a content by what is inside. -/
theorem content_induction {P : List (Path × Value) → ((Path → Value) → Value) → Value → Prop}
    (array : ∀ items, (∀ block ∈ items, P (blockTargets block) (fillBlock · block) block) →
      P (targets (.array items)) (fill · (.array items)) (.array items))
    (plain : ∀ value, P [] (fun _ => value) value)
    (target : ∀ block, isTarget block = true → P [([], block)] (fun state => state []) block)
    (nested : ∀ block path inner, Nested block path inner → P (targets inner) (fill · inner) inner →
      P ((targets inner).map fun (rest, target) => (path ++ rest, target))
        (fun state => replaceAt path (fill (fun rest => state (path ++ rest)) inner) block) block)
    (content : Value) : P (targets content) (fill · content) content := by
  induction size : sizeOf content using Nat.strong_induction_on generalizing content with
  | _ size_ ih =>
    subst size
    have no_blocks {other : Value} (none : other.blocks = []) (unfilled : ∀ state, fill state other = other) :
        P (targets other) (fill · other) other := by
      rw [targets_eq, none, funext unfilled]
      exact plain other
    cases content with
    | array items =>
      refine array items fun block inside => ?_
      obtain is_target | ⟨path, inner, inner_of⟩ | ⟨no_target, none⟩ := block_split block
      · unfold blockTargets fillBlock
        simp only [is_target, if_true]
        exact target block is_target
      · unfold blockTargets fillBlock
        simp only [inner_of.not_target, Bool.false_eq_true, if_false, nestedContent_iff.2 inner_of]
        refine nested block path inner inner_of (ih _ ?_ inner rfl)
        exact (sizeOf_nestedContent (nestedContent_iff.2 inner_of)).trans (sizeOf_block (show block ∈ (Value.array items).blocks from inside))
      · unfold blockTargets fillBlock
        simp only [no_target, Bool.false_eq_true, if_false, none]
        exact plain block
    | _ => exact no_blocks rfl fun state => by rw [fill]; simp

theorem mem_targets {items : List Value} {path : Path} {target : Value} :
    (path, target) ∈ targets (.array items) ↔ ∃ index block rest, items[index]? = some block ∧
      (rest, target) ∈ blockTargets block ∧ path = indexToken index :: rest := by
  rw [targets_eq, List.mem_flatMap]
  constructor
  · rintro ⟨⟨block, index⟩, placed, member⟩
    obtain ⟨⟨rest, found⟩, inside, same⟩ := List.mem_map.1 member
    cases same
    exact ⟨index, block, rest, List.mem_zipIdx_iff_getElem?.1 placed, inside, rfl⟩
  · rintro ⟨index, block, rest, held, inside, rfl⟩
    exact ⟨(block, index), List.mem_zipIdx_iff_getElem?.2 held, List.mem_map.2 ⟨(rest, target), inside, rfl⟩⟩

theorem mem_under {path whole : Path} {target : Value} {found : List (Path × Value)} :
    (whole, target) ∈ found.map (fun (rest, target) => (path ++ rest, target)) ↔
      ∃ rest, (rest, target) ∈ found ∧ whole = path ++ rest := by
  rw [List.mem_map]
  constructor
  · rintro ⟨⟨rest, held⟩, member, same⟩
    cases same
    exact ⟨rest, member, rfl⟩
  · rintro ⟨rest, member, rfl⟩
    exact ⟨(rest, target), member, rfl⟩

theorem fill_congr (content : Value) : ∀ first second : Path → Value,
    (∀ path target, (path, target) ∈ targets content → first path = second path) → fill first content = fill second content := by
  refine content_induction (P := fun found filled _ => ∀ first second : Path → Value,
    (∀ path target, (path, target) ∈ found → first path = second path) → filled first = filled second) ?_ ?_ ?_ ?_ content
  · intro items ih first second same
    dsimp only
    rw [fill_array, fill_array]
    refine congrArg Value.array (List.mapIdx_eq_mapIdx_iff.2 fun index inside => ?_)
    refine ih _ (List.getElem_mem inside) _ _ fun path target member => ?_
    exact same _ target (mem_targets.2 ⟨index, _, path, List.getElem?_eq_getElem inside, member, rfl⟩)
  · intro value first second _
    rfl
  · intro block _ first second same
    exact same [] block (List.mem_singleton_self _)
  · intro block path inner _ ih first second same
    dsimp only
    congr 1
    exact ih _ _ fun rest target member => same _ target (mem_under.2 ⟨rest, member, rfl⟩)

theorem fill_self (content : Value) : ∀ state : Path → Value,
    (∀ path target, (path, target) ∈ targets content → state path = target) → fill state content = content := by
  refine content_induction (P := fun found filled own => ∀ state : Path → Value,
    (∀ path target, (path, target) ∈ found → state path = target) → filled state = own) ?_ ?_ ?_ ?_ content
  · intro items ih state own
    dsimp only
    rw [fill_array]
    refine congrArg Value.array (List.ext_getElem (List.length_mapIdx ..) fun index _ inside => ?_)
    rw [List.getElem_mapIdx]
    refine ih _ (List.getElem_mem inside) _ fun path target member => ?_
    exact own _ target (mem_targets.2 ⟨index, _, path, List.getElem?_eq_getElem inside, member, rfl⟩)
  · intro value state _
    rfl
  · intro block _ state own
    exact own [] block (List.mem_singleton_self _)
  · intro block path inner inner_of ih state own
    have same : fill (fun rest => state (path ++ rest)) inner = inner :=
      ih _ fun rest target member => own _ target (mem_under.2 ⟨rest, member, rfl⟩)
    dsimp only
    rw [same]
    exact replaceAt_self inner_of.follow

theorem follow_target (content : Value) : ∀ path target, (path, target) ∈ targets content →
    follow path content = some target ∧ isTarget target = true := by
  refine content_induction (P := fun found _ own => ∀ path target, (path, target) ∈ found →
    follow path own = some target ∧ isTarget target = true) ?_ ?_ ?_ ?_ content
  · intro items ih path target member
    obtain ⟨index, block, rest, held, inside, rfl⟩ := mem_targets.1 member
    obtain ⟨led, is_target⟩ := ih block (List.mem_of_getElem? held) _ _ inside
    refine ⟨follow_cons.2 ⟨block, ?_, led⟩, is_target⟩
    rw [descend, parseIndex_indexToken, Option.bind_some, held]
  · intro value path target member
    cases member
  · intro block is_target path target member
    cases List.mem_singleton.1 member
    exact ⟨rfl, is_target⟩
  · intro block path inner inner_of ih whole target member
    obtain ⟨rest, inside, rfl⟩ := mem_under.1 member
    obtain ⟨led, is_target⟩ := ih _ _ inside
    refine ⟨?_, is_target⟩
    rw [follow, List.foldlM_append]
    exact Option.bind_eq_some_iff.2 ⟨inner, inner_of.follow, led⟩

theorem update_fill (content : Value) : ∀ (state : Path → Value) (change : Value → Option Value) path target,
    (path, target) ∈ targets content → updateAt path change (fill state content) =
      (change (state path)).map fun block => fill (Function.update state path block) content := by
  refine content_induction (P := fun found filled _ => ∀ (state : Path → Value) (change : Value → Option Value) path target,
    (path, target) ∈ found → updateAt path change (filled state) =
      (change (state path)).map fun block => filled (Function.update state path block)) ?_ ?_ ?_ ?_ content
  · intro items ih state change path target member
    obtain ⟨index, block, rest, held, inside, rfl⟩ := mem_targets.1 member
    have own := ih block (List.mem_of_getElem? held) (fun path => state (indexToken index :: path)) change rest target inside
    dsimp only at own ⊢
    rw [fill_array, updateAt]
    simp only [updateChild, parseIndex_indexToken, Option.bind_some, List.getElem?_mapIdx, held, Option.map_some, own,
      Option.map_map]
    refine congrArg (Option.map · _) (funext fun changed => ?_)
    rw [Function.comp_apply, fill_array]
    refine congrArg Value.array (List.ext_getElem? fun other => ?_)
    rw [List.getElem?_set, List.getElem?_mapIdx, List.getElem?_mapIdx]
    by_cases same : index = other
    · subst same
      have short : index < items.length := (List.getElem?_eq_some_iff.1 held).1
      rw [if_pos rfl, List.length_mapIdx, if_pos short, held, Option.map_some]
      have inner : (fun path => Function.update state (indexToken index :: rest) changed (indexToken index :: path)) =
          Function.update (fun path => state (indexToken index :: path)) rest changed :=
        Function.update_comp_eq_of_injective state (List.cons_injective) rest changed
      rw [inner]
    · have elsewhere : (fun path => Function.update state (indexToken index :: rest) changed (indexToken other :: path)) =
          fun path => state (indexToken other :: path) := by
        funext path
        refine Function.update_of_ne (fun meets => same ?_) ..
        exact (indexToken_inj (List.cons.inj meets).1).symm
      rw [if_neg same, elsewhere]
  · intro value state change path target member
    cases member
  · intro block _ state change path target member
    cases List.mem_singleton.1 member
    simp only [updateAt, Function.update_self, Option.map_id']
  · intro block path inner inner_of ih state change whole target member
    obtain ⟨rest, inside, rfl⟩ := mem_under.1 member
    have own := ih (fun rest => state (path ++ rest)) change rest target inside
    dsimp only at own ⊢
    rw [updateAt_append, updateAt_replaceAt inner_of.follow, own, Option.map_map]
    have inner_state (changed : Value) : (fun r => Function.update state (path ++ rest) changed (path ++ r)) =
        Function.update (fun r => state (path ++ r)) rest changed :=
      Function.update_comp_eq_of_injective state (List.append_right_injective path) rest changed
    simp only [inner_state]
    rfl

theorem Nested.blockTargets {block inner : Value} {path : Path} (nested : Nested block path inner) :
    blockTargets block = (targets inner).map fun (rest, target) => (path ++ rest, target) := by
  rw [Hydration.blockTargets, if_neg (by rw [nested.not_target]; decide), nestedContent_iff.2 nested]

theorem follow_fill (content : Value) : ∀ (state : Path → Value) path target, (path, target) ∈ targets content →
    follow path (fill state content) = some (state path) := by
  refine content_induction (P := fun found filled _ => ∀ (state : Path → Value) path target, (path, target) ∈ found →
    follow path (filled state) = some (state path)) ?_ ?_ ?_ ?_ content
  · intro items ih state path target member
    obtain ⟨index, block, rest, held, inside, rfl⟩ := mem_targets.1 member
    have own := ih block (List.mem_of_getElem? held) (fun path => state (indexToken index :: path)) rest target inside
    dsimp only
    rw [fill_array, follow_cons]
    refine ⟨_, ?_, own⟩
    rw [descend, parseIndex_indexToken, Option.bind_some, List.getElem?_mapIdx, held, Option.map_some]
  · intro value state path target member
    cases member
  · intro block _ state path target member
    cases List.mem_singleton.1 member
    rfl
  · intro block path inner nested ih state whole target member
    obtain ⟨rest, inside, rfl⟩ := mem_under.1 member
    dsimp only
    rw [follow, List.foldlM_append]
    exact Option.bind_eq_some_iff.2 ⟨_, (nested.replace _).follow, ih (fun rest => state (path ++ rest)) rest target inside⟩

theorem targets_fill (content : Value) (state : Path → Value)
    (bare : ∀ path target, (path, target) ∈ targets content → blockTargets (state path) = []) :
    targets (fill state content) = [] := by
  induction size : sizeOf content using Nat.strong_induction_on generalizing content state with
  | _ size_ ih =>
    subst size
    have no_blocks {other : Value} (none : other.blocks = []) (unfilled : fill state other = other) :
        targets (fill state other) = [] := by
      rw [unfilled, targets_eq, none]
      rfl
    cases content with
    | array items =>
      rw [fill_array, targets_eq, List.flatMap_eq_nil_iff]
      rintro ⟨filled, index⟩ placed
      have held : (items.mapIdx fun index block => fillBlock (fun path => state (indexToken index :: path)) block)[index]? =
          some filled := List.mem_zipIdx_iff_getElem?.1 placed
      rw [List.getElem?_mapIdx] at held
      obtain ⟨block, here, rfl⟩ := Option.map_eq_some_iff.1 held
      have own (path : Path) (target : Value) (member : (path, target) ∈ blockTargets block) :
          blockTargets (state (indexToken index :: path)) = [] :=
        bare _ target (mem_targets.2 ⟨index, block, path, here, member, rfl⟩)
      rw [List.map_eq_nil_iff]
      obtain is_target | ⟨path, inner, nested⟩ | ⟨no_target, none⟩ := block_split block
      · rw [fillBlock, if_pos is_target]
        exact own [] block (by rw [blockTargets, if_pos is_target]; exact List.mem_singleton_self _)
      · rw [fillBlock, if_neg (by rw [nested.not_target]; decide), nestedContent_iff.2 nested]
        rw [(nested.replace _).blockTargets, List.map_eq_nil_iff]
        refine ih _ ?_ inner _ (fun rest target member => ?_) rfl
        · exact (sizeOf_nestedContent (nestedContent_iff.2 nested)).trans
            (sizeOf_block (show block ∈ (Value.array items).blocks from List.mem_of_getElem? here))
        · exact own _ target (by rw [nested.blockTargets]; exact mem_under.2 ⟨rest, member, rfl⟩)
      · rw [fillBlock, if_neg (by rw [no_target]; decide), none]
        rw [blockTargets, if_neg (by rw [no_target]; decide), none]
    | _ => exact no_blocks rfl (by rw [fill]; simp)

theorem targets_distinct (content : Value) : ((targets content).map (·.1)).Nodup := by
  refine content_induction (P := fun found _ _ => (found.map (·.1)).Nodup) ?_ ?_ ?_ ?_ content
  · intro items ih
    rw [targets_eq, List.map_flatMap, List.nodup_flatMap]
    constructor
    · rintro ⟨block, index⟩ placed
      have own := ih block (List.mem_of_getElem? (List.mem_zipIdx_iff_getElem?.1 placed))
      have here := own.map (List.cons_injective (a := indexToken index))
      rw [List.map_map] at here ⊢
      exact here
    · refine (List.pairwise_map.1 (List.nodup_zipIdx_map_snd items)).imp ?_
      rintro ⟨first, i⟩ ⟨second, j⟩ apart path in_first in_second
      obtain ⟨_, here, rfl⟩ := List.mem_map.1 in_first
      obtain ⟨_, there, same⟩ := List.mem_map.1 in_second
      obtain ⟨⟨_, _⟩, _, rfl⟩ := List.mem_map.1 here
      obtain ⟨⟨_, _⟩, _, rfl⟩ := List.mem_map.1 there
      exact apart (indexToken_inj (List.cons.inj same).1.symm)
  · intro value
    exact List.nodup_nil
  · intro block _
    exact List.nodup_singleton _
  · intro block path inner _ ih
    rw [List.map_map]
    have under : (fun entry : Path × Value => entry.1) ∘ (fun (rest, target) => (path ++ rest, target)) =
        (path ++ ·) ∘ fun entry : Path × Value => entry.1 := rfl
    rw [under, ← List.map_map]
    exact ih.map (List.append_right_injective path)

/-! ### What is collected -/

section Collected

variable {content : Value} {path : Path} {target : Value}

theorem Nested.plain {block inner : Value} (nested : Nested block path inner) : ∀ token ∈ path, PlainToken token := by
  cases nested with
  | result =>
    unfold contentPath PlainToken
    decide
  | document =>
    unfold sourceContentPath PlainToken
    decide

theorem targets_plain (content : Value) : ∀ path target, (path, target) ∈ targets content → ∀ token ∈ path, PlainToken token := by
  refine content_induction (P := fun found _ _ => ∀ path target, (path, target) ∈ found → ∀ token ∈ path, PlainToken token)
    ?_ ?_ ?_ ?_ content
  · intro items ih path target member
    obtain ⟨index, block, rest, held, inside, rfl⟩ := mem_targets.1 member
    exact List.forall_mem_cons.2 ⟨indexToken_plain index, ih block (List.mem_of_getElem? held) rest target inside⟩
  · intro value path target member
    cases member
  · intro block _ path target member
    cases List.mem_singleton.1 member
    simp
  · intro block path inner nested ih whole target member
    obtain ⟨rest, inside, rfl⟩ := mem_under.1 member
    intro token within
    rcases List.mem_append.1 within with front | back
    · exact nested.plain token front
    · exact ih rest target inside token back

def targetUrl (target : Value) : String := (target.pointerStr ["source", "url"]).getD ""

def entry (messageIndex : Nat) (pointer : String) (found : Path × Value) : ClaudeRemoteAttachment :=
  { messageIndex, blockPointer := pointer ++ pointerText found.1, kind := remoteKind found.2, url := targetUrl found.2 }

def collectBlock (messageIndex : Nat) (blockPointer : String) (block : Value) : List ClaudeRemoteAttachment :=
  if isRemote block then
    match block.pointerStr ["source", "url"] with
    | some url => [{ messageIndex, blockPointer, kind := remoteKind block, url }]
    | none => []
  else match nestedContent block with
    | some (path, inner) => collectClaudeRemoteAttachments inner messageIndex (blockPointer ++ pointerText path)
    | none => []

theorem collect_eq (content : Value) (messageIndex : Nat) (pointer : String) :
    collectClaudeRemoteAttachments content messageIndex pointer = content.blocks.zipIdx.flatMap fun (block, index) =>
      collectBlock messageIndex (pointer ++ "/" ++ toString index) block := by
  rw [collectClaudeRemoteAttachments, zipIdx_attach content.blocks, List.flatMap_map]
  refine List.flatMap_congr fun ⟨⟨block, inside⟩, index⟩ _ => ?_
  simp only [collectBlock, Prod.map, id]
  split
  case isTrue => rfl
  case isFalse =>
    have content_text : pointerText contentPath = "/content" := by decide
    have source_text : pointerText sourceContentPath = "/source/content" := by decide
    unfold nestedContent
    split
    case h_1 kind =>
      rw [if_pos kind]
      split
      case h_1 nested found =>
        rw [found, Option.map_some]
        dsimp only
        rw [content_text]
      case h_2 none => rw [none, Option.map_none]
    case h_2 kind =>
      have other : block.kind ≠ some "tool_result" := by
        rw [kind]
        decide
      rw [if_neg other]
      by_cases content : block.pointerStr ["source", "type"] = some "content"
      · rw [if_pos content, if_pos ⟨kind, content⟩]
        split
        case h_1 nested found =>
          rw [found, Option.map_some]
          dsimp only
          rw [source_text]
        case h_2 none => rw [none, Option.map_none]
      · rw [if_neg content, if_neg fun both => content both.2]
    case h_3 result document =>
      rw [if_neg fun kind => result kind, if_neg fun both => document both.1]

theorem collectBlock_targets {block : Value} (messageIndex : Nat) (blockPointer : String)
    (inside : ∀ path inner, nestedContent block = some (path, inner) → ∀ pointer,
      collectClaudeRemoteAttachments inner messageIndex pointer = (targets inner).map (entry messageIndex pointer)) :
    collectBlock messageIndex blockPointer block = (blockTargets block).map (entry messageIndex blockPointer) := by
  unfold collectBlock blockTargets
  cases remote : isRemote block with
  | true =>
    have no_content : nestedContent block = none := by
      cases found : nestedContent block with
      | none => rfl
      | some nested => simp [(nestedContent_iff.1 found).not_remote] at remote
    cases url : block.pointerStr ["source", "url"] with
    | none => simp [isTarget, remote, url, no_content]
    | some url_ => simp [isTarget, remote, url, entry, targetUrl, pointerText]
  | false =>
    cases found : nestedContent block with
    | none => simp [isTarget, remote]
    | some nested =>
      obtain ⟨path, inner⟩ := nested
      simp only [isTarget, remote, Bool.false_and, Bool.false_eq_true, if_false]
      rw [inside path inner found, List.map_map]
      refine List.map_congr_left fun target _ => ?_
      simp only [entry, Function.comp, pointerText_append, String.append_assoc]

theorem collect_targets (content : Value) (messageIndex : Nat) (pointer : String) :
    collectClaudeRemoteAttachments content messageIndex pointer = (targets content).map (entry messageIndex pointer) := by
  induction size : sizeOf content using Nat.strong_induction_on generalizing content pointer with
  | _ size_ ih =>
    subst size
    rw [collect_eq, targets_eq, List.map_flatMap]
    refine List.flatMap_congr fun ⟨block, index⟩ placed => ?_
    have inside := sizeOf_block (List.mem_of_getElem? (List.mem_zipIdx_iff_getElem?.1 placed))
    dsimp only
    rw [collectBlock_targets messageIndex _ fun path inner nested pointer =>
      ih _ ((sizeOf_nestedContent nested).trans inside) inner pointer rfl, List.map_map]
    refine List.map_congr_left fun ⟨path, target⟩ _ => ?_
    simp only [entry, Function.comp, pointerText, indexToken, String.ofList_toList, String.append_assoc]

end Collected

/-! ### What is written -/

section Written

variable {key : String} {inner value updated : Value}

theorem filter_updateField {f : Value → Option Value} {fields changed : List (String × Value)}
    (done : updateField key f fields = some changed) :
    changed.filter (fun field => field.1 ≠ key) = fields.filter (fun field => field.1 ≠ key) := by
  induction fields generalizing changed with
  | nil => cases done
  | cons field rest ih =>
    obtain ⟨name, old⟩ := field
    rw [updateField] at done
    split at done
    case isTrue here =>
      obtain ⟨_, _, rfl⟩ := Option.map_eq_some_iff.1 done
      rw [List.filter_cons_of_neg (by simpa using here), List.filter_cons_of_neg (by simpa using here)]
    case isFalse apart =>
      obtain ⟨later, made, rfl⟩ := Option.map_eq_some_iff.1 done
      rw [List.filter_cons_of_pos (by simpa using apart), List.filter_cons_of_pos (by simpa using apart), ih made]

theorem filter_setField (key : String) (inner : Value) (fields : List (String × Value)) :
    (Responses.setField key inner fields).filter (fun field => field.1 ≠ key) = fields.filter (fun field => field.1 ≠ key) := by
  unfold Responses.setField
  induction fields with
  | nil => simp [SortedMap.alter]
  | cons field rest ih =>
    obtain ⟨name, old⟩ := field
    rw [SortedMap.alter]
    split
    · rw [List.filter_cons_of_neg (by simp)]
    · split
      case isTrue here =>
        rw [List.filter_cons_of_neg (by simpa using here.symm), List.filter_cons_of_neg (by simpa using here.symm)]
      case isFalse apart =>
        rw [List.filter_cons_of_pos (by simpa using Ne.symm apart), List.filter_cons_of_pos (by simpa using Ne.symm apart), ih]

theorem withoutField_assign (object : value.isObject = true) (done : value.assign key inner = some updated) :
    updated.withoutField key = value.withoutField key ∧ updated.isObject = true := by
  cases value with
  | object fields =>
    obtain rfl := Option.some.inj done
    refine ⟨?_, rfl⟩
    simp only [withoutField]
    cases there : updateField key (fun _ => some inner) fields with
    | none => rw [Option.getD_none, filter_setField]
    | some changed => rw [Option.getD_some, filter_updateField there]
  | _ => cases object

theorem assign_some (object : value.isObject = true) (key : String) (inner : Value) :
    ∃ updated, value.assign key inner = some updated := by
  cases value with
  | object fields => exact ⟨_, rfl⟩
  | _ => cases object

theorem withoutField_comm (value : Value) (first second : String) :
    (value.withoutField first).withoutField second = (value.withoutField second).withoutField first := by
  cases value with
  | object fields =>
    simp only [withoutField, List.filter_filter]
    congr 2
    funext field
    exact Bool.and_comm ..
  | _ => rfl

def eraseAttachment (untitled : Bool) (block : Value) : Value :=
  if untitled then (block.withoutField "source").withoutField "title" else block.withoutField "source"

theorem isObject_of_target {block : Value} (target : isTarget block = true) : block.isObject = true := by
  cases block with
  | object fields => rfl
  | _ => simp [isTarget, isRemote, Value.kind, getStr, Value.get] at target

theorem target_kind {block : Value} (target : isTarget block = true) :
    block.kind = some "image" ∨ block.kind = some "document" := by
  simp only [isTarget, isRemote, Bool.and_eq_true, Bool.or_eq_true, beq_iff_eq] at target
  exact target.1.1

variable (crates : Crates)

theorem blockTargets_inline {block : Value} (fetched : RemoteAttachment) (kind : block.kind = some "image" ∨ block.kind = some "document")
    (source : block.get "source" = some (attachmentSource crates fetched)) : blockTargets block = [] := by
  have type : block.pointerStr ["source", "type"] = some "base64" := by
    rw [pointerStr_source, source]
    rfl
  have plain : nestedContent block = none := by
    have other : block.kind ≠ some "tool_result" := by rcases kind with kind | kind <;> rw [kind] <;> decide
    rw [nestedContent, if_neg other, if_neg fun both => absurd (type.symm.trans both.2) (by decide)]
  have no_target : isTarget block = false := by simp [isTarget, isRemote, type]
  rw [blockTargets, if_neg (by rw [no_target]; decide), plain]

theorem hydrateBlock_written (kind : RemoteAttachmentKind) (fetched : RemoteAttachment) {block : Value} (target : isTarget block = true) :
    ∃ written, hydrateBlock crates kind fetched block = some written ∧ blockTargets written = [] ∧
      eraseAttachment (isUntitled kind block) written = eraseAttachment (isUntitled kind block) block := by
  have object := isObject_of_target target
  obtain ⟨sourced, made⟩ := assign_some object "source" (attachmentSource crates fetched)
  have fields := get_assign made
  obtain ⟨same, still_object⟩ := withoutField_assign object made
  have sourced_kind : sourced.kind = block.kind := by rw [Value.kind, getStr, fields, if_neg (by decide)]; rfl
  have untitled : isUntitled kind sourced = isUntitled kind block := by
    rw [isUntitled, fields, fields, if_neg (by decide), if_neg (by decide), isUntitled]
  cases given : isUntitled kind block with
  | false =>
    refine ⟨sourced, ?_, ?_, ?_⟩
    · simp [hydrateBlock, made, untitled, given]
    · exact blockTargets_inline crates fetched (by rw [sourced_kind]; exact target_kind target) (fields "source")
    · exact same
  | true =>
    obtain ⟨titled, named⟩ := assign_some still_object "title" (.string (attachmentTitle fetched))
    have titled_fields := get_assign named
    refine ⟨titled, ?_, ?_, ?_⟩
    · simp [hydrateBlock, made, untitled, given, named]
    · refine blockTargets_inline crates fetched ?_ ?_
      · have titled_kind : titled.kind = sourced.kind := by
          rw [Value.kind, getStr, titled_fields, if_neg (by decide)]
          rfl
        rw [titled_kind, sourced_kind]
        exact target_kind target
      · rw [titled_fields, if_neg (by decide)]
        exact fields "source"
    · rw [eraseAttachment, if_pos rfl, eraseAttachment, if_pos rfl, withoutField_comm,
        (withoutField_assign still_object named).1, withoutField_comm, same]

end Written

/-! ### Requests -/

abbrev Place := Nat × Path

section Requests

variable {request : ClaudeRequest}

def requestTargets (request : ClaudeRequest) : List (Place × Value) :=
  request.messages.zipIdx.flatMap fun (message, index) =>
    (targets message.content).map fun (path, target) => ((index, path), target)

def fillRequest (state : Place → Value) (request : ClaudeRequest) : ClaudeRequest := { request with
  messages := request.messages.mapIdx fun index message =>
    { message with content := fill (fun path => state (index, path)) message.content } }

def requestEntry (found : Place × Value) : ClaudeRemoteAttachment := entry found.1.1 "" (found.1.2, found.2)

variable {place : Place}

theorem mem_requestTargets {target : Value} : (place, target) ∈ requestTargets request ↔
    ∃ message, request.messages[place.1]? = some message ∧ (place.2, target) ∈ targets message.content := by
  rw [requestTargets, List.mem_flatMap]
  constructor
  · rintro ⟨⟨message, index⟩, placed, member⟩
    obtain ⟨⟨path, found⟩, inside, same⟩ := List.mem_map.1 member
    cases same
    exact ⟨message, List.mem_zipIdx_iff_getElem?.1 placed, inside⟩
  · rintro ⟨message, held, inside⟩
    exact ⟨(message, place.1), List.mem_zipIdx_iff_getElem?.2 held, List.mem_map.2 ⟨(place.2, target), inside, rfl⟩⟩

theorem remoteAttachments_eq (request : ClaudeRequest) :
    remoteAttachments request = (requestTargets request).map requestEntry := by
  rw [remoteAttachments, requestTargets, List.map_flatMap]
  refine List.flatMap_congr fun ⟨message, index⟩ _ => ?_
  rw [List.map_map]
  exact collect_targets message.content index ""

theorem places_distinct (request : ClaudeRequest) : ((requestTargets request).map (·.1)).Nodup := by
  rw [requestTargets, List.map_flatMap, List.nodup_flatMap]
  constructor
  · rintro ⟨message, index⟩ _
    have own := (targets_distinct message.content).map (Prod.mk_right_injective index)
    rw [List.map_map] at own ⊢
    exact own
  · refine (List.pairwise_map.1 (List.nodup_zipIdx_map_snd request.messages)).imp ?_
    rintro ⟨first, i⟩ ⟨second, j⟩ apart place in_first in_second
    obtain ⟨_, here, rfl⟩ := List.mem_map.1 in_first
    obtain ⟨_, there, same⟩ := List.mem_map.1 in_second
    obtain ⟨⟨_, _⟩, _, rfl⟩ := List.mem_map.1 here
    obtain ⟨⟨_, _⟩, _, rfl⟩ := List.mem_map.1 there
    exact apart (congrArg Prod.fst same).symm

theorem entry_text (found : Place × Value) : (requestEntry found).blockPointer = pointerText found.1.2 :=
  String.empty_append

theorem pointers_distinct (request : ClaudeRequest) :
    ((remoteAttachments request).map fun target => (target.messageIndex, target.blockPointer)).Nodup := by
  rw [remoteAttachments_eq, List.map_map]
  refine (List.nodup_map_iff_inj_on ((places_distinct request).of_map _)).2 ?_
  rintro ⟨place, target⟩ first ⟨other, second⟩ later same
  obtain ⟨_, _, inside⟩ := mem_requestTargets.1 first
  obtain ⟨_, _, other_inside⟩ := mem_requestTargets.1 later
  simp only [Function.comp, entry_text, Prod.mk.injEq] at same
  have path := pointerText_inj (targets_plain _ _ _ inside) (targets_plain _ _ _ other_inside) same.2
  have same_place : place = other := Prod.ext same.1 path
  exact List.inj_on_of_nodup_map (places_distinct request) first later same_place

theorem fillRequest_congr {first second : Place → Value}
    (same : ∀ place target, (place, target) ∈ requestTargets request → first place = second place) :
    fillRequest first request = fillRequest second request := by
  unfold fillRequest
  congr 1
  refine List.mapIdx_eq_mapIdx_iff.2 fun index inside => ?_
  congr 1
  refine fill_congr _ _ _ fun path target member => ?_
  exact same _ target (mem_requestTargets.2 ⟨_, List.getElem?_eq_getElem inside, member⟩)

theorem fillRequest_self {state : Place → Value}
    (own : ∀ place target, (place, target) ∈ requestTargets request → state place = target) :
    fillRequest state request = request := by
  have messages : (fillRequest state request).messages = request.messages := by
    refine List.ext_getElem (List.length_mapIdx ..) fun index _ inside => ?_
    simp only [fillRequest, List.getElem_mapIdx]
    have same : fill (fun path => state (index, path)) request.messages[index].content = request.messages[index].content :=
      fill_self _ _ fun path target member =>
        own _ target (mem_requestTargets.2 ⟨_, List.getElem?_eq_getElem inside, member⟩)
    rw [same]
  exact congrArg (fun messages => { request with messages }) messages

theorem changeBlock_fill (state : Place → Value) (change : Value → Option Value) {target : Value}
    (member : (place, target) ∈ requestTargets request) :
    changeBlock change (requestEntry (place, target)) (fillRequest state request) =
      (change (state place)).map fun block => fillRequest (Function.update state place block) request := by
  obtain ⟨index, path⟩ := place
  obtain ⟨message, held, inside⟩ := mem_requestTargets.1 member
  dsimp only at held inside
  have pointed : (fill (fun path => state (index, path)) message.content).pointerMut
      (requestEntry ((index, path), target)).blockPointer change =
      (change (state (index, path))).map fun block =>
        fill (Function.update (fun path => state (index, path)) path block) message.content := by
    rw [entry_text, pointerMut_text (targets_plain _ _ _ inside)]
    exact update_fill _ _ _ _ _ inside
  have here : (fillRequest state request).messages[(requestEntry ((index, path), target)).messageIndex]? =
      some { message with content := fill (fun path => state (index, path)) message.content } := by
    rw [fillRequest, List.getElem?_mapIdx]
    exact congrArg _ held
  rw [changeBlock, here]
  dsimp only [Option.bind_eq_bind, Option.bind_some]
  rw [pointed]
  cases change (state (index, path)) with
  | none => rfl
  | some block =>
    have replaced : (fillRequest state request).messages.set index { message with
          content := fill (Function.update (fun path => state (index, path)) path block) message.content } =
        (fillRequest (Function.update state (index, path) block) request).messages := by
      refine List.ext_getElem? fun other => ?_
      simp only [fillRequest, List.getElem?_set, List.getElem?_mapIdx, List.length_mapIdx]
      by_cases same : index = other
      · subst same
        have short : index < request.messages.length := (List.getElem?_eq_some_iff.1 held).1
        have inner : (fun rest => Function.update state (index, path) block (index, rest)) =
            Function.update (fun rest => state (index, rest)) path block :=
          Function.update_comp_eq_of_injective state (Prod.mk_right_injective index) path block
        rw [if_pos rfl, if_pos short, held, Option.map_some, inner]
      · have elsewhere : (fun rest => Function.update state (index, path) block (other, rest)) =
            fun rest => state (other, rest) := by
          funext rest
          exact Function.update_of_ne (fun meets => same (congrArg Prod.fst meets).symm) ..
        rw [if_neg same, elsewhere]
    exact congrArg (fun messages => some { request with messages }) replaced

variable (request) in
theorem changes_fill {change : Place × Value → Value → Option Value} (result : Place × Value → Value)
    {items : List (Place × Value)} (state : Place → Value) (listed : ∀ x ∈ items, x ∈ requestTargets request)
    (distinct : (items.map (·.1)).Nodup) (changes : ∀ x ∈ items, change x (state x.1) = some (result x)) :
    ∃ final : Place → Value, items.foldlM (fun edited x => changeBlock (change x) (requestEntry x) edited)
        (fillRequest state request) = some (fillRequest final request) ∧
      (∀ x ∈ items, final x.1 = result x) ∧ ∀ other, other ∉ items.map (·.1) → final other = state other := by
  induction items generalizing state with
  | nil => exact ⟨state, rfl, by simp, fun _ _ => rfl⟩
  | cons x rest ih =>
    obtain ⟨own, later⟩ := List.forall_mem_cons.1 changes
    obtain ⟨own_listed, later_listed⟩ := List.forall_mem_cons.1 listed
    rw [List.map_cons, List.nodup_cons] at distinct
    have apart (y : Place × Value) (member : y ∈ rest) : y.1 ≠ x.1 :=
      fun same => distinct.1 (same ▸ List.mem_map_of_mem member)
    obtain ⟨final, folded, written, kept⟩ := ih (Function.update state x.1 (result x)) later_listed distinct.2
      fun y member => by rw [Function.update_of_ne (apart y member)]; exact later y member
    refine ⟨final, ?_, List.forall_mem_cons.2 ⟨?_, written⟩, ?_⟩
    · rw [List.foldlM_cons, changeBlock_fill state _ own_listed, own]
      exact folded
    · rw [kept x.1 distinct.1, Function.update_self]
    · intro other outside
      rw [List.map_cons, List.mem_cons, not_or] at outside
      rw [kept other outside.2, Function.update_of_ne outside.1]

theorem changes_all (change : Place × Value → Value → Option Value) (result : Place → Value)
    {items : List (Place × Value)} (state : Place → Value) (every : items.Perm (requestTargets request))
    (changes : ∀ x ∈ requestTargets request, change x (state x.1) = some (result x.1)) :
    items.foldlM (fun edited x => changeBlock (change x) (requestEntry x) edited) (fillRequest state request) =
      some (fillRequest result request) := by
  obtain ⟨final, folded, written, -⟩ := changes_fill request (fun x => result x.1) state
    (fun x member => every.mem_iff.1 member) ((every.map _).nodup_iff.2 (places_distinct request))
    (fun x member => changes x (every.mem_iff.1 member))
  have same : fillRequest final request = fillRequest result request :=
    fillRequest_congr fun place target member => written (place, target) (every.mem_iff.2 member)
  rw [folded, same]

theorem perm_of_map {α β : Type} (f : α → β) {images : List β} {items : List α} (every : images.Perm (items.map f)) :
    ∃ ordered : List α, ordered.Perm items ∧ images = ordered.map f := by
  induction images generalizing items with
  | nil => exact ⟨[], by rw [List.map_eq_nil_iff.1 every.nil_eq.symm], rfl⟩
  | cons image rest ih =>
    obtain ⟨item, inside, rfl⟩ := List.mem_map.1 (every.mem_iff.1 List.mem_cons_self)
    obtain ⟨front, back, rfl⟩ := List.append_of_mem inside
    have moved : (front ++ item :: back).Perm (item :: (front ++ back)) := List.perm_middle
    obtain ⟨ordered, same, rfl⟩ := ih ((every.trans (moved.map f)).cons_inv)
    exact ⟨item :: ordered, (same.cons item).trans moved.symm, rfl⟩

def ownBlock (request : ClaudeRequest) (place : Place) : Value :=
  (((requestTargets request).find? fun found => found.1 = place).map (·.2)).getD .null

theorem ownBlock_eq {target : Value} (member : (place, target) ∈ requestTargets request) :
    ownBlock request place = target := by
  have there : ((requestTargets request).find? fun found => found.1 = place).isSome :=
    List.find?_isSome.2 ⟨(place, target), member, by simp⟩
  obtain ⟨found, here⟩ := Option.isSome_iff_exists.1 there
  have same : found.1 = place := by simpa using List.find?_some here
  have own : found = (place, target) :=
    List.inj_on_of_nodup_map (places_distinct request) (List.mem_of_find?_eq_some here) member same
  rw [ownBlock, here, own, Option.map_some, Option.getD_some]

def addressed (request : ClaudeRequest) (target : ClaudeRemoteAttachment) : Option Value :=
  request.messages[target.messageIndex]?.bind fun message => message.content.resolve target.blockPointer

theorem addressed_fill (state : Place → Value) {target : Value} (member : (place, target) ∈ requestTargets request) :
    addressed (fillRequest state request) (requestEntry (place, target)) = some (state place) := by
  obtain ⟨message, held, inside⟩ := mem_requestTargets.1 member
  have here : (fillRequest state request).messages[(requestEntry (place, target)).messageIndex]? =
      some { message with content := fill (fun path => state (place.1, path)) message.content } := by
    rw [fillRequest, List.getElem?_mapIdx]
    exact congrArg _ held
  rw [addressed, here, Option.bind_some, entry_text, resolve_text (targets_plain _ _ _ inside)]
  exact follow_fill _ _ _ _ inside

theorem addressed_own {found : Place × Value} (member : found ∈ requestTargets request) :
    addressed request (requestEntry found) = some found.2 := by
  obtain ⟨place, target⟩ := found
  have here := addressed_fill (ownBlock request) member
  rw [fillRequest_self fun place target member => ownBlock_eq member, ownBlock_eq member] at here
  exact here

/-- An edited request without the sources of the blocks that the targets lead to, and without the titles of those
documents among them that had no title and no name. -/
def eraseAttachments (request edited : ClaudeRequest) : Option ClaudeRequest :=
  (remoteAttachments request).foldlM (fun edited target =>
    let untitled := ((addressed request target).map (isUntitled target.kind)).getD false
    changeBlock (fun block => some (eraseAttachment untitled block)) target edited) edited

def hydratedBlock (crates : Crates) (files : ClaudeRemoteAttachment → RemoteAttachment) (request : ClaudeRequest) (place : Place) :
    Value :=
  let target := requestEntry (place, ownBlock request place)
  (hydrateBlock crates target.kind (files target) (ownBlock request place)).getD .null

variable (crates : Crates) (files : ClaudeRemoteAttachment → RemoteAttachment)

theorem hydratedBlock_written {found : Place × Value} (member : found ∈ requestTargets request) :
    hydrateBlock crates (requestEntry found).kind (files (requestEntry found)) found.2 =
        some (hydratedBlock crates files request found.1) ∧
      blockTargets (hydratedBlock crates files request found.1) = [] ∧
      eraseAttachment (isUntitled (requestEntry found).kind found.2) (hydratedBlock crates files request found.1) =
        eraseAttachment (isUntitled (requestEntry found).kind found.2) found.2 := by
  obtain ⟨place, target⟩ := found
  obtain ⟨message, -, inside⟩ := mem_requestTargets.1 member
  obtain ⟨written, made, bare, same⟩ := hydrateBlock_written crates (requestEntry (place, target)).kind
    (files (requestEntry (place, target))) (follow_target _ _ _ inside).2
  have block : hydratedBlock crates files request place = written := by
    simp only [hydratedBlock, ownBlock_eq member, made, Option.getD_some]
  dsimp only
  rw [block]
  exact ⟨made, bare, same⟩

theorem own_request (request : ClaudeRequest) : fillRequest (ownBlock request) request = request :=
  fillRequest_self fun _ _ member => ownBlock_eq member

theorem hydrate_any_order {fetched : List (ClaudeRemoteAttachment × RemoteAttachment)}
    (every : fetched.Perm ((remoteAttachments request).map fun target => (target, files target))) :
    hydrateClaudeAttachments crates fetched request = some (fillRequest (hydratedBlock crates files request) request) := by
  rw [remoteAttachments_eq, List.map_map] at every
  obtain ⟨ordered, same, rfl⟩ := perm_of_map _ every
  have all := changes_all (fun x => hydrateBlock crates (requestEntry x).kind (files (requestEntry x)))
    (hydratedBlock crates files request) (ownBlock request) same fun x member => by
      rw [ownBlock_eq member]
      exact (hydratedBlock_written crates files member).1
  rw [own_request] at all
  rw [hydrateClaudeAttachments, List.foldlM_map]
  exact all

theorem nothing_left : remoteAttachments (fillRequest (hydratedBlock crates files request) request) = [] := by
  rw [remoteAttachments_eq, List.map_eq_nil_iff, requestTargets, List.flatMap_eq_nil_iff]
  rintro ⟨message, index⟩ placed
  have held := List.mem_zipIdx_iff_getElem?.1 placed
  dsimp only at held
  rw [fillRequest, List.getElem?_mapIdx] at held
  obtain ⟨original, here, rfl⟩ := Option.map_eq_some_iff.1 held
  dsimp only
  rw [targets_fill, List.map_nil]
  intro path target inside
  have listed : ((index, path), target) ∈ requestTargets request := mem_requestTargets.2 ⟨original, here, inside⟩
  exact (hydratedBlock_written crates files listed).2.1

variable (request) in
theorem erased (state : Place → Value) : eraseAttachments request (fillRequest state request) =
    some (fillRequest (fun place => eraseAttachment (isUntitled (requestEntry (place, ownBlock request place)).kind
      (ownBlock request place)) (state place)) request) := by
  rw [eraseAttachments, remoteAttachments_eq, List.foldlM_map]
  refine changes_all _ _ state (.refl _) fun x member => ?_
  rw [addressed_own member, Option.map_some, Option.getD_some, ownBlock_eq member]

end Requests

/-- Attachments can be put in place in whatever order their downloads end. The targets are different places with the
collected URLs, each gets its own file, no URL is left to fetch, and nothing else is changed. -/
theorem hydration_of_any_order (crates : Crates) (request : ClaudeRequest) (files : ClaudeRemoteAttachment → RemoteAttachment) :
    ((remoteAttachments request).map fun target => (target.messageIndex, target.blockPointer)).Nodup ∧
      (∀ target ∈ remoteAttachments request, ∃ block, addressed request target = some block ∧
        isRemote block = true ∧ remoteKind block = target.kind ∧
        block.pointerStr ["source", "url"] = some target.url) ∧
      ∃ hydrated,
        (∀ fetched, fetched.Perm ((remoteAttachments request).map fun target => (target, files target)) →
          hydrateClaudeAttachments crates fetched request = some hydrated) ∧
        (∀ target ∈ remoteAttachments request, addressed hydrated target =
          (addressed request target).bind (hydrateBlock crates target.kind (files target))) ∧
        remoteAttachments hydrated = [] ∧
        ∃ rest, eraseAttachments request request = some rest ∧ eraseAttachments request hydrated = some rest := by
  refine ⟨pointers_distinct request, ?_, fillRequest (hydratedBlock crates files request) request, ?_, ?_, ?_, ?_⟩
  · intro target listed
    rw [remoteAttachments_eq] at listed
    obtain ⟨⟨place, block⟩, member, rfl⟩ := List.mem_map.1 listed
    obtain ⟨message, -, inside⟩ := mem_requestTargets.1 member
    have is_target := (follow_target _ _ _ inside).2
    rw [isTarget, Bool.and_eq_true] at is_target
    obtain ⟨url, given⟩ := Option.isSome_iff_exists.1 is_target.2
    refine ⟨block, addressed_own member, is_target.1, rfl, ?_⟩
    rw [given]
    exact congrArg some (by rw [requestEntry, entry, targetUrl, given, Option.getD_some])
  · exact fun fetched every => hydrate_any_order crates files every
  · intro target listed
    rw [remoteAttachments_eq] at listed
    obtain ⟨found, member, rfl⟩ := List.mem_map.1 listed
    rw [addressed_own member, Option.bind_some, (hydratedBlock_written crates files member).1]
    exact addressed_fill _ member
  · exact nothing_left crates files
  · have untouched := erased request (ownBlock request)
    rw [own_request] at untouched
    refine ⟨_, untouched, ?_⟩
    rw [erased, fillRequest_congr]
    intro place target member
    have same := (hydratedBlock_written crates files member).2.2
    rw [ownBlock_eq member]
    exact same

/-- A picture, and a result with a report by URL behind a content document that shows another picture. -/
def linkedRequest : ClaudeRequest :=
  let linked := fun (kind url : String) => Value.object
    [("source", .object [("type", .string "url"), ("url", .string url)]), ("type", .string kind)]
  { messages := [{ role := "user", content := .array [linked "image" "https://example.com/first.png",
      .object [("content", .array [
        .object [("source", .object [("content", .array [linked "image" "https://example.com/third.png"]),
          ("type", .string "content")]), ("type", .string "document")],
        linked "document" "https://example.com/report.pdf"]),
        ("tool_use_id", .string "tool_1"), ("type", .string "tool_result")]] }] }

def sampleFile : RemoteAttachment := { bytes := [0, 0, 0], mediaType := "image/png", pathSegments := none }

theorem hydration_of_any_order_linked :
    (remoteAttachments linkedRequest).map (·.blockPointer) = ["/0", "/1/content/0/source/content/0", "/1/content/1"] ∧
      ∃ hydrated, hydrateClaudeAttachments OpenAi.sampleCrates
        (((remoteAttachments linkedRequest).map fun target => (target, sampleFile)).reverse) linkedRequest = some hydrated ∧
        remoteAttachments hydrated = [] := by
  obtain ⟨-, -, hydrated, any_order, -, none_left, -⟩ := hydration_of_any_order OpenAi.sampleCrates linkedRequest
    fun _ => sampleFile
  exact ⟨by decide +kernel, hydrated, any_order _ (List.reverse_perm _), none_left⟩

end KiroProxy.Http.Hydration

import KiroProxy.Translate.CacheControls
import KiroProxy.Translate.CacheOff
import Mathlib.Algebra.Order.BigOperators.Group.List
import Mathlib.Algebra.Order.Group.Nat

/-! How many cache points a payload has, against the markers that the validator counted. -/
namespace KiroProxy.Claude

def marker (control : Option Value) : Nat := (kiroCachePoint control).toList.length

@[simp] theorem marker_none : marker none = 0 := rfl

theorem marker_le_one (control : Option Value) : marker control ≤ 1 := by
  unfold marker
  cases kiroCachePoint control <;> simp

mutual

def contentMarks (content : Value) : Nat :=
  match content with
  | .array blocks => blocksMarks blocks
  | other => marker (other.get "cache_control")
termination_by sizeOf content

def blocksMarks (blocks : List Value) : Nat :=
  match blocks with
  | [] => 0
  | block :: rest =>
    (match found : nestedContent block with
      | some (_, inner) =>
        have := sizeOf_nestedContent found
        contentMarks inner
      | none => 0) + marker (block.get "cache_control") + blocksMarks rest
termination_by sizeOf blocks

end

@[simp] theorem contentMarks_array (blocks : List Value) : contentMarks (.array blocks) = blocksMarks blocks := by
  rw [contentMarks]

@[simp] theorem contentMarks_string (text : String) : contentMarks (.string text) = 0 := by
  rw [contentMarks]
  · rfl
  · simp

def nestedMarks (block : Value) : Nat := ((nestedContent block).map fun found => contentMarks found.2).getD 0

@[simp] theorem blocksMarks_nil : blocksMarks [] = 0 := by rw [blocksMarks]

theorem blocksMarks_cons (block : Value) (rest : List Value) :
    blocksMarks (block :: rest) = nestedMarks block + marker (block.get "cache_control") + blocksMarks rest := by
  rw [blocksMarks, nestedMarks]
  congr 2
  split <;> simp_all

theorem blocksMarks_append (front back : List Value) :
    blocksMarks (front ++ back) = blocksMarks front + blocksMarks back := by
  induction front with
  | nil => simp
  | cons block rest ih =>
    rw [List.cons_append, blocksMarks_cons, blocksMarks_cons, ih]
    omega

inductive Shaped : Value → Prop
  | of {content : Value} (plain : content.isObject = false)
      (inside : ∀ block ∈ content.blocks, ∀ path inner, nestedContent block = some (path, inner) → Shaped inner) :
      Shaped content

/-! ### What the validator counts -/

def offers (content : Value) : Bool :=
  match content with
  | .string text => text != ""
  | .array blocks => blocks.any eligible
  | _ => false

theorem cacheControlTtl_ok {value : Option Value} {field : String} {ttl : Option CacheTtl}
    (accepted : cacheControlTtl value field = .ok ttl) :
    ttl.toList.length = marker value ∧ (kiroCachePoint value).isSome = ttl.isSome := by
  unfold cacheControlTtl at accepted
  split at accepted
  case h_1 absent =>
    obtain rfl := Except.ok.inj accepted
    have bare : kiroCachePoint value = none := by
      cases value with
      | none => rfl
      | some control => cases control <;> simp [Value.isNull] at absent; rfl
    simp [marker, bare]
  case h_2 control held =>
    obtain ⟨rfl, -⟩ := Option.filter_eq_some_iff.1 held
    split at accepted
    · cases accepted
    · split at accepted
      · cases accepted
      · rename_i kind typed
        obtain ⟨typed, -⟩ := Option.filter_eq_some_iff.1 typed
        split at accepted
        · cases accepted
        · rename_i same
          have ephemeral : kiroCachePoint (some control) = some {} := by
            simp [kiroCachePoint, typed, Decidable.not_not.1 same]
          split at accepted <;> cases accepted <;> simp [marker, ephemeral]

/-- What a visit leaves: the markers so far, and whether there is a place for the automatic one. -/
structure Counted (before after : CacheControls) (marks : Nat) (offered : Bool) : Prop where
  breakpoints : after.breakpoints.length = before.breakpoints.length + marks
  target : after.lastTarget.isSome = (before.lastTarget.isSome || offered)

theorem Counted.refl (controls : CacheControls) : Counted controls controls 0 false := ⟨rfl, by simp⟩

theorem Counted.trans {first second third : CacheControls} {marks others : Nat} {offered later : Bool}
    (one : Counted first second marks offered) (two : Counted second third others later) :
    Counted first third (marks + others) (offered || later) :=
  ⟨by rw [two.breakpoints, one.breakpoints, Nat.add_assoc], by rw [two.target, one.target, Bool.or_assoc]⟩

theorem visit_counted {controls next : CacheControls} {value : Option Value} {field : String} {eligible : Bool}
    (accepted : controls.visit value field eligible = .ok next) :
    Counted controls next (marker value) eligible := by
  obtain ⟨ttl, valid, same⟩ := Bytes.bind_ok.1 accepted
  obtain rfl := Except.ok.inj same
  constructor
  · simp [(cacheControlTtl_ok valid).1]
  · cases eligible <;> simp

theorem visitBlock_counted {controls next : CacheControls} {block : Value} {place : String} {topLevel : Bool}
    (accepted : controls.visitBlock block place topLevel = .ok next) :
    Counted controls next (marker (block.get "cache_control")) (topLevel && eligible block) ∧
      (cannotCache block = true → marker (block.get "cache_control") = 0) := by
  unfold CacheControls.visitBlock at accepted
  dsimp only at accepted
  split at accepted
  case isTrue =>
    obtain ⟨_, _, impossible⟩ := Bytes.bind_ok.1 accepted
    cases impossible
  case isFalse free =>
    refine ⟨visit_counted accepted, fun uncacheable => ?_⟩
    rw [uncacheable, Bool.true_and] at free
    generalize block.get "cache_control" = control at free
    cases control with
    | none => rfl
    | some control =>
      cases control with
      | null => rfl
      | _ => simp [Value.isNull] at free

theorem blocks_counted {controls next : CacheControls} {blocks : List Value} {field : String} {index : Nat}
    {topLevel : Bool}
    (nested : ∀ block ∈ blocks, ∀ path inner, nestedContent block = some (path, inner) →
      ∀ before after field, CacheControls.content before inner field false = .ok after →
        Counted before after (contentMarks inner) false)
    (accepted : controls.visitBlocks blocks field index topLevel = .ok next) :
    Counted controls next (blocksMarks blocks) (topLevel && blocks.any eligible) := by
  induction blocks generalizing controls index with
  | nil =>
    rw [CacheControls.visitBlocks] at accepted
    obtain rfl := Except.ok.inj accepted
    simpa using Counted.refl controls
  | cons block rest ih =>
    rw [CacheControls.visitBlocks] at accepted
    have entered : ∃ within, Counted controls within (nestedMarks block) false ∧
        (within.visitBlock block (field ++ "." ++ toString index) topLevel >>= fun controls =>
          controls.visitBlocks rest field (index + 1) topLevel) = .ok next := by
      split at accepted
      case h_1 path inner found =>
        obtain ⟨within, looked, further⟩ := Bytes.bind_ok.1 accepted
        refine ⟨within, ?_, further⟩
        rw [nestedMarks, found]
        exact nested block List.mem_cons_self path inner found _ _ _ looked
      case h_2 absent =>
        refine ⟨controls, ?_, accepted⟩
        rw [nestedMarks, absent]
        exact .refl controls
    obtain ⟨within, first, further⟩ := entered
    obtain ⟨own, visited, later⟩ := Bytes.bind_ok.1 further
    have remaining := ih (fun other member => nested other (List.mem_cons_of_mem _ member)) later
    have whole := (first.trans (visitBlock_counted visited).1).trans remaining
    rwa [Bool.false_or, ← Bool.and_or_distrib_left, ← List.any_cons, ← blocksMarks_cons] at whole

theorem content_counted {controls next : CacheControls} {value : Value} {field : String} {topLevel : Bool}
    (shaped : Shaped value) (accepted : controls.content value field topLevel = .ok next) :
    Counted controls next (contentMarks value) (topLevel && offers value) := by
  induction shaped generalizing controls next field topLevel with
  | @of value plain _ inside =>
    cases value with
    | string text =>
      rw [CacheControls.content] at accepted
      rw [contentMarks_string]
      split at accepted
      case isTrue offered =>
        have counted := visit_counted accepted
        have place : (topLevel && offers (.string text)) = true := by simpa [offers] using offered
        rwa [place]
      case isFalse free =>
        obtain rfl := Except.ok.inj accepted
        have nothing : (topLevel && offers (.string text)) = false := by simpa [offers] using free
        rw [nothing]
        exact .refl controls
    | array blocks =>
      rw [CacheControls.content] at accepted
      rw [contentMarks_array]
      refine blocks_counted (fun block member path inner found before after field looked => ?_) accepted
      simpa using inside block member path inner found looked
    | object fields => cases plain
    | null | bool | number =>
      simp only [CacheControls.content] at accepted
      obtain rfl := Except.ok.inj accepted
      simpa [offers, contentMarks, Value.get] using Counted.refl controls

theorem blocks_uncacheable {controls next : CacheControls} {blocks : List Value} {field : String} {index : Nat}
    {topLevel : Bool} (accepted : controls.visitBlocks blocks field index topLevel = .ok next) :
    ∀ block ∈ blocks, cannotCache block = true → marker (block.get "cache_control") = 0 := by
  induction blocks generalizing controls index with
  | nil => simp
  | cons block rest ih =>
    rw [CacheControls.visitBlocks] at accepted
    have entered : ∃ within, (CacheControls.visitBlock within block (field ++ "." ++ toString index) topLevel >>=
        fun controls => controls.visitBlocks rest field (index + 1) topLevel) = .ok next := by
      split at accepted
      · obtain ⟨within, _, further⟩ := Bytes.bind_ok.1 accepted
        exact ⟨within, further⟩
      · exact ⟨controls, accepted⟩
    obtain ⟨within, further⟩ := entered
    obtain ⟨own, visited, later⟩ := Bytes.bind_ok.1 further
    intro other member
    obtain rfl | inside := List.mem_cons.1 member
    · exact (visitBlock_counted visited).2
    · exact ih later other inside

theorem visitTools_counted {controls next : CacheControls} {index : Nat} {tools : List ClaudeTool}
    (accepted : visitTools controls index tools = .ok next) :
    Counted controls next (tools.map fun tool => marker tool.cacheControl).sum (tools.any fun tool => !tool.deferLoading) := by
  induction tools generalizing controls index with
  | nil =>
    obtain rfl := Except.ok.inj accepted
    exact .refl controls
  | cons tool rest ih =>
    obtain ⟨own, visited, later⟩ := Bytes.bind_ok.1 accepted
    simpa using (visit_counted visited).trans (ih later)

def messageMarks (message : ClaudeMessage) : Nat := contentMarks message.content + marker message.cacheControl

theorem visitMessages_counted {controls next : CacheControls} {index : Nat} {messages : List ClaudeMessage}
    (shaped : ∀ message ∈ messages, Shaped message.content)
    (accepted : visitMessages controls index messages = .ok next) :
    Counted controls next (messages.map messageMarks).sum (messages.any fun message => offers message.content) := by
  induction messages generalizing controls index with
  | nil =>
    obtain rfl := Except.ok.inj accepted
    exact .refl controls
  | cons message rest ih =>
    obtain ⟨within, content, further⟩ := Bytes.bind_ok.1 accepted
    obtain ⟨own, visited, later⟩ := Bytes.bind_ok.1 further
    have remaining := ih (fun other member => shaped other (List.mem_cons_of_mem _ member)) later
    have whole := ((content_counted (shaped message List.mem_cons_self) content).trans (visit_counted visited)).trans remaining
    simpa [messageMarks] using whole

def requestMarks (request : ClaudeRequest) : Nat :=
  (request.tools.map fun tool => marker tool.cacheControl).sum + (request.system.map contentMarks).getD 0 +
    (request.messages.map messageMarks).sum

def offersTarget (request : ClaudeRequest) : Bool :=
  request.tools.any (fun tool => !tool.deferLoading) || (request.system.map offers).getD false ||
    request.messages.any fun message => offers message.content

theorem visitRequest_counted {controls : CacheControls} {request : ClaudeRequest}
    (system : ∀ system, request.system = some system → Shaped system)
    (messages : ∀ message ∈ request.messages, Shaped message.content)
    (accepted : visitRequest request = .ok controls) :
    Counted {} controls (requestMarks request) (offersTarget request) := by
  obtain ⟨tooled, tools, further⟩ := Bytes.bind_ok.1 accepted
  cases held : request.system with
  | none =>
    rw [held] at further
    simpa [requestMarks, offersTarget, held] using (visitTools_counted tools).trans (visitMessages_counted messages further)
  | some content =>
    rw [held] at further
    obtain ⟨prompted, prompt, later⟩ := Bytes.bind_ok.1 further
    simpa [requestMarks, offersTarget, held] using
      ((visitTools_counted tools).trans (content_counted (system content held) prompt)).trans
        (visitMessages_counted messages later)

theorem finish_limit {controls : CacheControls} {automatic : Option CacheTtl}
    (accepted : controls.finish automatic = .ok ()) :
    controls.breakpoints.length ≤ 4 ∧
      (automatic.isSome → controls.lastTarget.isSome → controls.breakpoints.length ≤ 3) := by
  obtain ⟨breakpoints, ordered, checked⟩ := Bytes.bind_ok.1 accepted
  split at checked
  case isTrue => cases checked
  case isFalse few =>
    unfold CacheControls.withAutomatic at ordered
    split at ordered
    case h_1 =>
      split at ordered
      case isTrue => cases ordered
      case isFalse free =>
        rw [maxCacheBreakpoints] at free
        exact ⟨by omega, fun _ _ => by omega⟩
    case h_2 absent =>
      obtain rfl := Except.ok.inj ordered
      rw [maxCacheBreakpoints] at few
      refine ⟨by omega, fun automatic target => ?_⟩
      obtain ⟨ttl, rfl⟩ := Option.isSome_iff_exists.1 automatic
      obtain ⟨place, held⟩ := Option.isSome_iff_exists.1 target
      exact absurd held (absent ttl place rfl)

theorem cacheControls_limit {request : ClaudeRequest}
    (system : ∀ system, request.system = some system → Shaped system)
    (messages : ∀ message ∈ request.messages, Shaped message.content)
    (accepted : validateClaudeCacheControls request = .ok ()) :
    requestMarks request ≤ 4 ∧
      ((kiroCachePoint request.cacheControl).isSome → offersTarget request = true → requestMarks request ≤ 3) := by
  obtain ⟨automatic, own, further⟩ := Bytes.bind_ok.1 accepted
  obtain ⟨controls, visited, finished⟩ := Bytes.bind_ok.1 further
  have counted := visitRequest_counted system messages visited
  have limit := finish_limit finished
  rw [counted.breakpoints, counted.target] at limit
  simpa [(cacheControlTtl_ok own).2] using limit

/-! ### Accepted contents are shaped -/

theorem shaped_string (text : String) : Shaped (.string text) := by
  refine .of rfl fun block member => ?_
  cases member

theorem shaped_array {blocks : List Value} (inside : ∀ block ∈ blocks, ∀ path inner,
    nestedContent block = some (path, inner) → Shaped inner) : Shaped (.array blocks) :=
  .of rfl inside

theorem nestedContent_plain {block : Value} {kind : String} (held : block.kind = some kind)
    (plain : kind ≠ "tool_result" ∧ kind ≠ "search_result" ∧ kind ≠ "document") : nestedContent block = none := by
  unfold nestedContent
  split <;> simp_all

section Accepted

variable {crates : Crates} {checks : OtherChecks}

theorem contentBlocks_plain {field : String} {index bytes : Nat} {items : List Value} {holds result : Bool}
    (accepted : validateContentBlocks crates checks field index items bytes holds = .ok result) :
    ∀ item ∈ items, nestedContent item = none := by
  induction items generalizing index bytes holds with
  | nil => simp
  | cons item rest ih =>
    obtain ⟨⟨size, own⟩, first, further⟩ := Bytes.bind_ok.1 accepted
    dsimp only at further
    split at further
    case isTrue => cases further
    case isFalse =>
      intro other member
      obtain rfl | inside := List.mem_cons.1 member
      · unfold validateContentBlock at first
        split at first
        case h_1 kind => exact nestedContent_plain kind (by decide)
        case h_2 kind => exact nestedContent_plain kind (by decide)
        case h_3 => cases first
        case h_4 => cases first
      · exact ih further other inside

theorem document_shaped {block : Value} {field : String}
    (accepted : validateClaudeDocument crates checks block field = .ok ()) {inner : Value}
    (typed : block.pointerStr ["source", "type"] = some "content")
    (held : block.pointer ["source", "content"] = some inner) : Shaped inner := by
  obtain ⟨source, sourced, ⟨kind, content⟩ | ⟨sourceType, kind, which, -⟩⟩ := document_source accepted
  · have same : source.get "content" = some inner := by simpa [Value.pointer, sourced] using held
    unfold validateContentDocumentSource at content
    split at content
    case h_1 => cases content
    case h_2 =>
      rw [same] at content
      split at content
      case h_1 absent => cases absent
      case h_2 text shape =>
        obtain rfl := Option.some.inj shape
        exact shaped_string text
      case h_3 items shape =>
        obtain rfl := Option.some.inj shape
        split at content
        case isTrue => cases content
        case isFalse =>
          obtain ⟨_, blocks, _⟩ := Bytes.bind_ok.1 content
          refine shaped_array fun item member path inner found => ?_
          rw [contentBlocks_plain blocks item member] at found
          cases found
      case h_4 => cases content
  · have other : block.pointerStr ["source", "type"] = source.kind := by
      simp [Value.pointerStr, Value.pointer, sourced, Value.kind, Value.getStr]
    rw [other, kind] at typed
    obtain rfl := Option.some.inj typed
    simp at which

theorem searchResult_shaped {block : Value} {field : String} (accepted : validateSearchResult block field = .ok ())
    {inner : Value} (held : block.get "content" = some inner) : Shaped inner := by
  unfold validateSearchResult at accepted
  split at accepted
  case isTrue => cases accepted
  case isFalse =>
    split at accepted
    case isTrue => cases accepted
    case isFalse =>
      rw [held] at accepted
      split at accepted
      case h_1 => cases accepted
      case h_2 parts listed =>
        have array : inner = .array parts := by
          cases inner <;> simp_all [Value.asArray]
        obtain ⟨_, each, _⟩ := Bytes.bind_ok.1 accepted
        rw [array]
        refine shaped_array fun part member path deeper found => ?_
        obtain ⟨place, passed⟩ := validateEach_ok each part member
        split at passed
        case isTrue text =>
          rw [Bool.and_eq_true, decide_eq_true_eq] at text
          rw [nestedContent_plain text.1 (by decide)] at found
          cases found
        case isFalse => cases passed

theorem toolResult_shaped {check : String → Value → Except ValidationError Unit} {block : Value} {field : String}
    (accepted : validateToolResult check block field = .ok ())
    (deeper : ∀ place item, check place item = .ok () → ∀ path inner, nestedContent item = some (path, inner) → Shaped inner)
    {inner : Value} (held : block.get "content" = some inner) : Shaped inner := by
  unfold validateToolResult at accepted
  split at accepted
  case isTrue => cases accepted
  case isFalse =>
    split at accepted
    case isTrue => cases accepted
    case isFalse =>
      rw [held] at accepted
      split at accepted
      case h_1 absent => cases absent
      case h_2 text shape =>
        obtain rfl := Option.some.inj shape
        exact shaped_string text
      case h_3 items shape =>
        obtain rfl := Option.some.inj shape
        refine shaped_array fun item member => ?_
        obtain ⟨place, passed⟩ := validateEach_ok accepted item member
        exact deeper place item passed
      case h_4 => cases accepted

theorem block_shaped {nested : Option (String → Value → Except ValidationError Unit)} {role field : String}
    {block : Value} (accepted : validateBlockWith crates checks nested role field block = .ok ())
    (deeper : ∀ check, nested = some check → ∀ place item, check place item = .ok () →
      ∀ path inner, nestedContent item = some (path, inner) → Shaped inner) :
    ∀ path inner, nestedContent block = some (path, inner) → Shaped inner := by
  intro path inner found
  unfold validateBlockWith at accepted
  split at accepted
  case h_1 => cases accepted
  case h_2 kind =>
    rw [nestedContent_plain kind (by decide)] at found
    cases found
  case h_3 kind =>
    rw [nestedContent_plain kind (by decide)] at found
    cases found
  case h_4 kind =>
    split at accepted
    case isTrue => cases accepted
    case isFalse =>
      unfold nestedContent at found
      simp only [kind] at found
      split at found
      case isTrue typed =>
        obtain ⟨_, held, same⟩ := Option.map_eq_some_iff.1 found
        cases same
        exact document_shaped accepted (by simpa using typed) held
      case isFalse => cases found
  case h_5 kind text image document held =>
    unfold nestedContent at found
    rw [held] at found
    split at found
    case h_1 result =>
      obtain rfl := Option.some.inj result
      obtain ⟨_, content, same⟩ := Option.map_eq_some_iff.1 found
      cases same
      simp only [String.reduceEq, if_false] at accepted
      cases nested with
      | none => cases accepted
      | some check =>
        simp only [if_true] at accepted
        split at accepted
        case isTrue => cases accepted
        case isFalse => exact toolResult_shaped accepted (deeper check rfl) content
    case h_2 result =>
      obtain rfl := Option.some.inj result
      obtain ⟨_, content, same⟩ := Option.map_eq_some_iff.1 found
      cases same
      simp only [if_true] at accepted
      split at accepted
      case isTrue => exact searchResult_shaped accepted content
      case isFalse => cases accepted
    case h_3 result => exact absurd (Option.some.inj result) document
    case h_4 => cases found

theorem claudeBlock_shaped {role field : String} {block : Value}
    (accepted : validateClaudeBlock crates checks role field block = .ok ()) :
    ∀ path inner, nestedContent block = some (path, inner) → Shaped inner := by
  refine block_shaped accepted ?_
  rintro check same place item passed
  obtain rfl := Option.some.inj same
  refine block_shaped passed ?_
  rintro check absent
  cases absent

theorem messageContent_shaped {content : Value} {role field : String}
    (accepted : validateClaudeContent crates checks content role field = .ok ()) : Shaped content := by
  unfold validateClaudeContent at accepted
  split at accepted
  case h_1 text => exact shaped_string text
  case h_2 items =>
    obtain ⟨_, each, _⟩ := Bytes.bind_ok.1 accepted
    refine shaped_array fun item member => ?_
    obtain ⟨place, passed⟩ := validateEach_ok each item member
    exact claudeBlock_shaped passed
  case h_3 => cases accepted

theorem claudeBlock_text {role field : String} {block : Value} (user : role ≠ "user") (assistant : role ≠ "assistant")
    (accepted : validateClaudeBlock crates checks role field block = .ok ()) :
    block.kind = some "text" ∧ (block.getStr "text").isSome := by
  unfold validateClaudeBlock validateBlockWith at accepted
  split at accepted
  case h_1 => cases accepted
  case h_2 kind =>
    split at accepted
    case isTrue => cases accepted
    case isFalse given => exact ⟨kind, by simpa [Option.isSome_iff_ne_none] using given⟩
  case h_3 =>
    rw [if_pos user] at accepted
    cases accepted
  case h_4 =>
    rw [if_pos user] at accepted
    cases accepted
  case h_5 kind text image document held =>
    simp only [user, assistant, if_false, ne_eq, not_false_eq_true, if_true] at accepted
    split at accepted
    case isTrue => cases accepted
    case isFalse =>
      split at accepted
      case isTrue => cases accepted
      case isFalse =>
        split at accepted
        case isTrue =>
          unfold wrongRole at accepted
          split at accepted <;> cases accepted
        case isFalse => cases accepted

end Accepted

def Textual (content : Value) : Prop :=
  (∃ text, content = .string text) ∨
    ∃ blocks, content = .array blocks ∧ ∀ block ∈ blocks, block.kind = some "text" ∧ (block.getStr "text").isSome

theorem Textual.shaped {content : Value} (textual : Textual content) : Shaped content := by
  obtain ⟨text, rfl⟩ | ⟨blocks, rfl, texts⟩ := textual
  · exact shaped_string text
  · refine shaped_array fun block member path inner found => ?_
    rw [nestedContent_plain (texts block member).1 (by decide)] at found
    cases found

theorem system_textual {system : Option Value} (accepted : validateClaudeSystem system = .ok ()) {content : Value}
    (held : system = some content) : Textual content := by
  subst held
  unfold validateClaudeSystem at accepted
  split at accepted
  case h_1 absent => cases absent
  case h_2 text shape => exact .inl ⟨text, Option.some.inj shape⟩
  case h_3 blocks shape =>
    refine .inr ⟨blocks, Option.some.inj shape, fun block member => ?_⟩
    obtain ⟨place, passed⟩ := validateEach_ok accepted block member
    split at passed
    case isTrue text => simpa using text
    case isFalse => cases passed
  case h_4 => cases accepted

theorem content_textual {crates : Crates} {checks : OtherChecks} {content : Value} {role field : String}
    (user : role ≠ "user") (assistant : role ≠ "assistant")
    (accepted : validateClaudeContent crates checks content role field = .ok ()) : Textual content := by
  unfold validateClaudeContent at accepted
  split at accepted
  case h_1 text => exact .inl ⟨text, rfl⟩
  case h_2 items =>
    obtain ⟨_, each, _⟩ := Bytes.bind_ok.1 accepted
    refine .inr ⟨items, rfl, fun item member => ?_⟩
    obtain ⟨place, passed⟩ := validateEach_ok each item member
    exact claudeBlock_text user assistant passed
  case h_3 => cases accepted

/-! ### What the translator sends -/

theorem nestedCachePoint_eq (block : Value) :
    nestedCachePoint block = (nestedContent block).bind fun found => contentCachePoint found.2 := by
  unfold nestedCachePoint nestedContent
  split
  case h_1 kind | h_2 kind => cases block.get "content" <;> simp [kind]
  case h_3 kind =>
    by_cases source : block.pointerStr ["source", "type"] == some "content"
    · cases block.pointer ["source", "content"] <;> simp [kind, source]
    · simp [kind, source]
  case h_4 => simp_all

theorem mem_blocksMarks {block : Value} {blocks : List Value} (member : block ∈ blocks) :
    nestedMarks block + marker (block.get "cache_control") ≤ blocksMarks blocks := by
  induction blocks with
  | nil => cases member
  | cons first rest ih =>
    rw [blocksMarks_cons]
    obtain rfl | inside := List.mem_cons.1 member
    · omega
    · have := ih inside
      omega

theorem marker_pos {control : Option Value} (marked : (kiroCachePoint control).isSome) : marker control = 1 := by
  obtain ⟨point, held⟩ := Option.isSome_iff_exists.1 marked
  rw [marker, held]
  rfl

theorem mergedCachePoint_isSome (first second : Option KiroCachePoint) :
    (mergedCachePoint first second).isSome = (first.isSome || second.isSome) := by
  cases first <;> cases second <;> rfl

theorem contentMarks_pos (content : Value) (marked : (contentCachePoint content).isSome) : 1 ≤ contentMarks content := by
  rw [contentCachePoint_eq] at marked
  cases content with
  | array blocks =>
    rw [contentMarks_array]
    have found : ∃ block ∈ blocks, (blockCachePoint block).isSome := by
      simp only [Value.isObject, Bool.false_eq_true, if_false, List.getLast?_isSome, ne_eq, List.filterMap_eq_nil_iff,
        not_forall] at marked
      obtain ⟨block, member, held⟩ := marked
      exact ⟨block, member, Option.isSome_iff_ne_none.2 held⟩
    obtain ⟨block, member, held⟩ := found
    have counted := mem_blocksMarks member
    rw [blockCachePoint_eq, mergedCachePoint_isSome, Bool.or_eq_true, nestedCachePoint_eq] at held
    obtain nested | own := held
    · cases inside : nestedContent block with
      | none => simp [inside] at nested
      | some found =>
        obtain ⟨path, inner⟩ := found
        have smaller := sizeOf_nestedContent inside
        have lesser : sizeOf block < sizeOf (Value.array blocks) := by
          have := List.sizeOf_lt_of_mem member
          simp only [Value.array.sizeOf_spec]
          omega
        have deeper := contentMarks_pos inner (by simpa [inside] using nested)
        rw [nestedMarks, inside] at counted
        simp only [Option.map_some, Option.getD_some] at counted
        omega
    · have := marker_pos own
      omega
  | object fields =>
    simp only [Value.isObject, if_true] at marked
    rw [contentMarks]
    · exact (marker_pos marked).ge
    · simp
  | _ => simp [Value.isObject, Value.blocks, Value.asArray] at marked
termination_by sizeOf content

def messageWeight (message : ClaudeMessage) : Nat :=
  blocksMarks (contentAsBlocks message.content) + marker message.cacheControl

theorem messageWeight_of_shaped {message : ClaudeMessage} (shaped : Shaped message.content) :
    messageWeight message = messageMarks message := by
  obtain ⟨plain, -⟩ := shaped
  rw [messageWeight, messageMarks]
  congr 1
  cases content : message.content with
  | array blocks => rw [contentMarks_array, contentAsBlocks]
  | object fields => simp [content, Value.isObject] at plain
  | string text =>
    rw [contentAsBlocks, blocksMarks_cons, nestedMarks, nestedContent_plain rfl (by decide), contentMarks_string,
      blocksMarks_nil]
    rfl
  | _ =>
    simp [contentAsBlocks, blocksMarks_cons, nestedMarks, nestedContent, Value.kind, Value.getStr, Value.get,
      contentMarks]

theorem messageWeight_pos (options : TranslationOptions) (message : ClaudeMessage)
    (marked : (messageCachePoint options message).isSome) : 1 ≤ messageWeight message := by
  unfold messageCachePoint at marked
  split at marked
  case isTrue =>
    rw [mergedCachePoint_isSome, Bool.or_eq_true] at marked
    rw [messageWeight]
    obtain own | inside := marked
    · have := marker_pos own
      omega
    · have counted := contentMarks_pos _ inside
      cases content : message.content with
      | object fields =>
        rw [content, contentMarks] at counted
        · rw [contentAsBlocks, blocksMarks_cons]
          · omega
          · simp
          · simp
        · simp
      | array blocks =>
        rw [content, contentMarks_array] at counted
        rw [contentAsBlocks]
        omega
      | _ => simp [content, contentMarks, Value.get] at counted
  case isFalse => cases marked

theorem length_filterMap_le (options : TranslationOptions) (messages : List ClaudeMessage) :
    (messages.filterMap (messageCachePoint options)).length ≤ (messages.map messageWeight).sum := by
  induction messages with
  | nil => exact Nat.le_refl 0
  | cons message rest ih =>
    rw [List.map_cons, List.sum_cons]
    cases own : messageCachePoint options message with
    | none =>
      rw [List.filterMap_cons_none own]
      omega
    | some point =>
      rw [List.filterMap_cons_some own, List.length_cons]
      have := messageWeight_pos options message (by rw [own]; rfl)
      omega

theorem mergeMessage_weight (normalized : List ClaudeMessage) (message : ClaudeMessage) :
    ((mergeMessage normalized message).map messageWeight).sum ≤ (normalized.map messageWeight).sum + messageWeight message := by
  unfold mergeMessage
  split
  case h_1 previous earlier =>
    split
    case isTrue =>
      simp only [List.map_cons, List.sum_cons, messageWeight]
      rw [contentAsBlocks, blocksMarks_append]
      have own : marker (if (kiroCachePoint message.cacheControl).isSome then message.cacheControl
          else previous.cacheControl) ≤ marker previous.cacheControl + marker message.cacheControl := by
        split <;> omega
      omega
    case isFalse =>
      simp only [List.map_cons, List.sum_cons]
      omega
  case h_2 => simp

theorem mergeMessages_weight (messages normalized : List ClaudeMessage) :
    ((messages.foldl mergeMessage normalized).map messageWeight).sum ≤
      (normalized.map messageWeight).sum + (messages.map messageWeight).sum := by
  induction messages generalizing normalized with
  | nil => simp
  | cons message rest ih =>
    have step := mergeMessage_weight normalized message
    have later := ih (mergeMessage normalized message)
    rw [List.foldl_cons, List.map_cons, List.sum_cons]
    omega

theorem splitInstruction_weight (last : ClaudeMessage) :
    ((splitInstruction last).map messageWeight).sum = messageWeight last := by
  unfold splitInstruction
  split
  case h_1 block _ held =>
    dsimp only
    split
    case isTrue =>
      cases content : last.content with
      | array blocks =>
        rw [content] at held
        obtain ⟨front, rfl⟩ := List.getLast?_eq_some_iff.1 (by simpa [Value.blocks, Value.asArray] using held)
        simp [messageWeight, contentAsBlocks, content, Value.blocks, Value.asArray, blocksMarks_append, Nat.add_assoc]
      | _ => simp [content, Value.blocks, Value.asArray] at held
    case isFalse => simp
  case h_2 => simp

theorem conversation_weight (options : TranslationOptions) (request : ClaudeRequest) :
    ((conversation options request).map messageWeight).sum ≤
      ((request.messages.filter (·.role ≠ "system")).map messageWeight).sum := by
  have normalized : ((normalizedNonSystemMessages request.messages).map messageWeight).sum ≤
      ((request.messages.filter (·.role ≠ "system")).map messageWeight).sum := by
    rw [normalizedNonSystemMessages, List.map_reverse, List.sum_reverse]
    simpa using mergeMessages_weight (request.messages.filter (·.role ≠ "system")) []
  unfold conversation
  dsimp only
  split
  case isTrue =>
    unfold separateCompactionInstruction
    split
    case h_1 last held =>
      obtain ⟨front, whole⟩ := List.getLast?_eq_some_iff.1 held
      rw [whole] at normalized ⊢
      rw [List.dropLast_concat, List.map_append, List.sum_append, splitInstruction_weight]
      simpa using normalized
    case h_2 => exact normalized
  case isFalse => exact normalized

theorem foldl_merged_isSome {α : Type} (mark : α → Option KiroCachePoint) (items : List α) (start : Option KiroCachePoint) :
    (items.foldl (fun found item => mergedCachePoint found (mark item)) start).isSome =
      (start.isSome || items.any fun item => (mark item).isSome) := by
  induction items generalizing start with
  | nil => simp
  | cons item rest ih => rw [List.foldl_cons, ih, mergedCachePoint_isSome, List.any_cons, Bool.or_assoc]

def systemMark (message : ClaudeMessage) : Option KiroCachePoint :=
  mergedCachePoint (kiroCachePoint message.cacheControl) (contentCachePoint message.content)

theorem loadedTools_sublist (request : ClaudeRequest) : (claudeLoadedTools request).Sublist request.tools := by
  unfold claudeLoadedTools
  split
  · exact List.nil_sublist _
  · exact List.filter_sublist
  · exact List.filter_sublist

section Sent

variable {options : TranslationOptions} (request : ClaudeRequest) (on : options.enablePromptCache = true)

include on

theorem systemCachePoint_isSome : (systemCachePoint options request).isSome =
    ((request.system.bind contentCachePoint).isSome || (systemMessages request).any fun message => (systemMark message).isSome) := by
  rw [systemCachePoint, if_pos on]
  exact foldl_merged_isSome systemMark (systemMessages request) _

theorem systemMark_weight {message : ClaudeMessage} (marked : (systemMark message).isSome) : 1 ≤ messageWeight message := by
  refine messageWeight_pos options message ?_
  rwa [messageCachePoint, if_pos on]

theorem systemCachePoint_weight : (systemCachePoint options request).toList.length ≤
    (request.system.map contentMarks).getD 0 + ((systemMessages request).map messageWeight).sum := by
  cases point : systemCachePoint options request with
  | none => exact Nat.zero_le _
  | some found =>
    have marked := systemCachePoint_isSome request on
    rw [point, Option.isSome_some, eq_comm, Bool.or_eq_true, List.any_eq_true] at marked
    obtain prompt | ⟨message, member, held⟩ := marked
    · cases system : request.system with
      | none => simp [system] at prompt
      | some content =>
        have := contentMarks_pos content (by simpa [system] using prompt)
        simp only [Option.toList_some, List.length_singleton, Option.map_some, Option.getD_some]
        omega
    · have own := systemMark_weight on held
      have within := List.single_le_sum (by simp) _ (List.mem_map_of_mem (f := messageWeight) member)
      simp only [Option.toList_some, List.length_singleton]
      omega

theorem toolMarks_length (tools : List ClaudeTool) :
    (tools.filterMap (toolMark options)).length = (tools.map fun tool => marker tool.cacheControl).sum := by
  induction tools with
  | nil => rfl
  | cons tool rest ih =>
    have own : toolMark options tool = kiroCachePoint tool.cacheControl := by rw [toolMark, if_pos on]
    rw [List.map_cons, List.sum_cons, ← ih, marker, ← own]
    cases held : toolMark options tool with
    | none => simp [held]
    | some point => simp [held, Nat.add_comm]

theorem loadedMarks_le : ((claudeLoadedTools request).filterMap (toolMark options)).length ≤
    (request.tools.map fun tool => marker tool.cacheControl).sum := by
  rw [← toolMarks_length on]
  exact ((loadedTools_sublist request).filterMap _).length_le

end Sent

def turnMarks (options : TranslationOptions) (request : ClaudeRequest) : List KiroCachePoint :=
  ((conversation options request).filter fun message =>
    message.role = "user" || message.role = "assistant").filterMap (messageCachePoint options)

def currentMark (options : TranslationOptions) (request : ClaudeRequest) : Option KiroCachePoint :=
  (conversation options request).getLast?.bind fun message =>
    if message.role = "user" then messageCachePoint options message else none

theorem loop_current (crates : Crates) (options : TranslationOptions) (registry : ToolNameRegistry)
    (official : OfficialWebTools) (completed : List String) (tools : List KiroTool) (messages : List ClaudeMessage)
    (history : List KiroHistoryMessage) {current : KiroUserInputMessage} (fresh : current.cachePoint = none) :
    (loop crates options registry official completed tools messages (history, current)).2.cachePoint =
      messages.getLast?.bind fun message =>
        if message.role = "user" then messageCachePoint options message else none := by
  induction messages generalizing history with
  | nil => simpa [loop] using fresh
  | cons message rest ih =>
    rw [loop]
    cases rest with
    | nil =>
      rw [List.getLast?_singleton, Option.bind_some]
      unfold step loop
      dsimp only
      split
      case h_1 role =>
        rw [if_pos role]
        rfl
      case h_2 role => rw [if_neg (by simp [role]), fresh]
      case h_3 user _ => rw [if_neg user, fresh]
    | cons next later =>
      have kept : ∃ longer, step crates options registry official completed tools (history, current) message
          (next :: later).isEmpty = (longer, current) := by
        unfold step
        dsimp only
        split
        · exact ⟨_, rfl⟩
        · exact ⟨_, rfl⟩
        · exact ⟨_, rfl⟩
      obtain ⟨longer, same⟩ := kept
      rw [same, ih, List.getLast?_cons_cons]

theorem turnMarks_weight (options : TranslationOptions) (request : ClaudeRequest) :
    (turnMarks options request).length ≤ ((request.messages.filter (·.role ≠ "system")).map messageWeight).sum := by
  refine Nat.le_trans ?_ (conversation_weight options request)
  refine Nat.le_trans ?_ (length_filterMap_le options _)
  exact (List.filter_sublist.filterMap _).length_le

/-- The number of cache points: the marks of the definitions, the system prompt and the turns,
and one more for an automatic marker on a current message without a mark. -/
theorem cachePoints_length (crates : Crates) {options : TranslationOptions} (on : options.enablePromptCache = true)
    (draws : Draws) {registry : ToolNameRegistry} {request : ClaudeRequest}
    (registered : ToolNameRegistry.new crates.sha256 (catalogue request) = some registry) :
    ∃ payload, claudeToKiro crates options draws request = some payload ∧
      (cachePoints payload).length = ((claudeLoadedTools request).filterMap (toolMark options)).length +
        (if blank (sentSystem crates options registry request) then 0
          else (systemCachePoint options request).toList.length) +
        (turnMarks options request).length +
        (if (currentMark options request).isSome then 0 else marker request.cacheControl) := by
  obtain ⟨payload, translated, points⟩ := claude_cachePoints crates options draws registered
  refine ⟨payload, translated, ?_⟩
  have marks := congrArg List.length (loop_marks crates options registry (officialWebTools request)
    (completedServerToolIds request) (sentTools crates options registry request) (conversation options request) []
    (rfl : (emptyCurrent options).cachePoint = none))
  have current : (looped crates options registry request).2.cachePoint = currentMark options request :=
    loop_current crates options registry _ _ _ _ [] rfl
  simp only [List.length_append, List.flatMap_nil, List.nil_append] at marks
  change ((looped crates options registry request).1.flatMap turnCachePoints).length +
    (looped crates options registry request).2.cachePoint.toList.length = (turnMarks options request).length at marks
  rw [current] at marks
  rw [points, if_pos on, current]
  simp only [List.length_append]
  have system : (if blank (sentSystem crates options registry request) then []
      else (systemCachePoint options request).toList).length = if blank (sentSystem crates options registry request) then 0
        else (systemCachePoint options request).toList.length := by
    split <;> rfl
  have last : (mergedCachePoint (currentMark options request) (kiroCachePoint request.cacheControl)).toList.length =
      (currentMark options request).toList.length +
        if (currentMark options request).isSome then 0 else marker request.cacheControl := by
    rw [marker]
    cases currentMark options request <;> cases kiroCachePoint request.cacheControl <;> rfl
  rw [system, last]
  omega

/-! ### A request without a place for the automatic marker -/

theorem lines_blank {texts : List String} (empty : ∀ text ∈ texts, text = "") : blank (lines texts) = true := by
  rw [blank, beq_iff_eq]
  induction texts with
  | nil => decide
  | cons text rest ih =>
    obtain rfl := empty text List.mem_cons_self
    have later := ih fun other member => empty other (List.mem_cons_of_mem _ member)
    cases rest with
    | nil => decide
    | cons next others =>
      rw [lines, String.intercalate_cons_cons, Text.trim_append_empty]
      exact ⟨by decide, later⟩

def Hollow (content : Value) : Prop :=
  content = .string "" ∨
    ∃ blocks, content = .array blocks ∧ ∀ block ∈ blocks, block.kind = some "text" ∧ block.getStr "text" = some ""

theorem Textual.hollow {content : Value} (textual : Textual content) (free : offers content = false) : Hollow content := by
  obtain ⟨text, rfl⟩ | ⟨blocks, rfl, texts⟩ := textual
  · exact .inl (by simpa [offers] using free)
  · refine .inr ⟨blocks, rfl, fun block member => ?_⟩
    obtain ⟨kind, given⟩ := texts block member
    have unfit := List.any_eq_false.1 free block member
    refine ⟨kind, ?_⟩
    simpa [eligible, cannotCache, kind, cacheableKinds] using unfit

theorem Hollow.text {content : Value} (hollow : Hollow content) : blank (contentText content) = true := by
  obtain rfl | ⟨blocks, rfl, texts⟩ := hollow
  · decide
  · refine lines_blank fun text member => ?_
    obtain ⟨block, inside, read⟩ := List.mem_filterMap.1 member
    obtain ⟨kind, given⟩ := texts block inside
    obtain ⟨value, field, string⟩ := Option.bind_eq_some_iff.1 given
    simpa [blockText, kind, field, string] using read.symm

theorem Hollow.system {content : Value} (hollow : Hollow content) : blank (systemText (some content)) = true := by
  obtain rfl | ⟨blocks, rfl, texts⟩ := hollow
  · decide
  · refine lines_blank fun text member => ?_
    obtain ⟨block, inside, read⟩ := List.mem_filterMap.1 member
    rw [(texts block inside).2] at read
    exact (Option.some.inj read).symm

theorem Hollow.marks {content : Value} (hollow : Hollow content) {controls next : CacheControls} {field : String}
    {topLevel : Bool} (accepted : controls.content content field topLevel = .ok next) : contentMarks content = 0 := by
  obtain rfl | ⟨blocks, rfl, texts⟩ := hollow
  · exact contentMarks_string ""
  · rw [CacheControls.content] at accepted
    have unmarked := blocks_uncacheable accepted
    rw [contentMarks_array]
    clear accepted
    induction blocks with
    | nil => exact blocksMarks_nil
    | cons block rest ih =>
      obtain ⟨kind, empty⟩ := texts block List.mem_cons_self
      have own := unmarked block List.mem_cons_self (by simp [cannotCache, kind, empty])
      have later := ih (fun other member => texts other (List.mem_cons_of_mem _ member))
        (fun other member => unmarked other (List.mem_cons_of_mem _ member))
      rw [blocksMarks_cons, nestedMarks, nestedContent_plain kind (by decide), own, later]
      rfl

theorem visitMessages_each {controls next : CacheControls} {index : Nat} {messages : List ClaudeMessage}
    (accepted : visitMessages controls index messages = .ok next) :
    ∀ message ∈ messages, ∃ before after field, CacheControls.content before message.content field true = .ok after := by
  induction messages generalizing controls index with
  | nil => simp
  | cons message rest ih =>
    obtain ⟨within, content, further⟩ := Bytes.bind_ok.1 accepted
    obtain ⟨_, _, later⟩ := Bytes.bind_ok.1 further
    intro other member
    obtain rfl | inside := List.mem_cons.1 member
    · exact ⟨_, _, _, content⟩
    · exact ih later other inside

structure Accepted (request : ClaudeRequest) : Prop where
  messages : ∀ message ∈ request.messages, Shaped message.content
  systemTexts : ∀ message ∈ systemMessages request, Textual message.content
  system : ∀ content, request.system = some content → Textual content
  deferred : validateDeferred request = .ok ()
  controls : validateClaudeCacheControls request = .ok ()
  choice : validateToolChoice request = .ok ()

theorem messages_accepted {crates : Crates} {checks : OtherChecks} {index : Nat} {messages : List ClaudeMessage}
    (accepted : validateMessages crates checks index messages = .ok ()) :
    ∀ message ∈ messages, ∃ field, validateClaudeContent crates checks message.content message.role field = .ok () := by
  induction messages generalizing index with
  | nil => simp
  | cons message rest ih =>
    unfold validateMessages at accepted
    split at accepted
    case isTrue => cases accepted
    case isFalse =>
      obtain ⟨_, _, further⟩ := Bytes.bind_ok.1 accepted
      obtain ⟨_, content, later⟩ := Bytes.bind_ok.1 further
      intro other member
      obtain rfl | inside := List.mem_cons.1 member
      · exact ⟨_, content⟩
      · exact ih later other inside

theorem validateClaude_accepted {crates : Crates} {others : OtherRequestChecks} {request : ClaudeRequest}
    (accepted : validateClaude crates others.checks request = .ok ()) : Accepted request := by
  obtain ⟨_, before, checked⟩ := Bytes.bind_ok.1 accepted
  obtain ⟨_, passed, further⟩ := Bytes.bind_ok.1 checked
  obtain ⟨_, _, prompted⟩ := Bytes.bind_ok.1 before
  obtain ⟨_, system, _⟩ := Bytes.bind_ok.1 prompted
  have after : others.checks.after request = .ok () := by
    dsimp only at further
    split at further
    case isTrue =>
      obtain ⟨_, impossible, _⟩ := Bytes.bind_ok.1 further
      cases impossible
    case isFalse =>
      split at further
      case isTrue =>
        obtain ⟨_, impossible, _⟩ := Bytes.bind_ok.1 further
        cases impossible
      case isFalse => exact further
  obtain ⟨_, _, sized⟩ := Bytes.bind_ok.1 after
  obtain ⟨_, deferred, documented⟩ := Bytes.bind_ok.1 sized
  obtain ⟨_, _, tooled⟩ := Bytes.bind_ok.1 documented
  obtain ⟨_, _, marked⟩ := Bytes.bind_ok.1 tooled
  obtain ⟨_, controls, referred⟩ := Bytes.bind_ok.1 marked
  obtain ⟨_, _, chosen⟩ := Bytes.bind_ok.1 referred
  obtain ⟨_, choice, _⟩ := Bytes.bind_ok.1 chosen
  have each := messages_accepted passed
  refine ⟨fun message member => ?_, fun message member => ?_, fun content held => system_textual system held,
    deferred, controls, choice⟩
  · obtain ⟨field, content⟩ := each message member
    exact messageContent_shaped content
  · obtain ⟨inside, role⟩ := List.mem_filter.1 member
    obtain ⟨field, content⟩ := each message inside
    rw [decide_eq_true_eq] at role
    exact content_textual (by simp [role]) (by simp [role]) content

theorem Accepted.limit {request : ClaudeRequest} (accepted : Accepted request) :
    requestMarks request ≤ 4 ∧
      ((kiroCachePoint request.cacheControl).isSome → offersTarget request = true → requestMarks request ≤ 3) :=
  cacheControls_limit (fun content held => (accepted.system content held).shaped) accepted.messages accepted.controls

theorem Accepted.marks_split {request : ClaudeRequest} (accepted : Accepted request) :
    (request.messages.map messageMarks).sum = ((systemMessages request).map messageWeight).sum +
      ((request.messages.filter (·.role ≠ "system")).map messageWeight).sum := by
  have shaped := accepted.messages
  rw [systemMessages]
  generalize request.messages = messages at shaped ⊢
  induction messages with
  | nil => rfl
  | cons message rest ih =>
    have later := ih fun other member => shaped other (List.mem_cons_of_mem _ member)
    have own := messageWeight_of_shaped (shaped message List.mem_cons_self)
    rw [List.map_cons, List.sum_cons, later, ← own]
    by_cases role : message.role = "system"
    · rw [List.filter_cons_of_pos (by simpa using role), List.filter_cons_of_neg (by simpa using role), List.map_cons,
        List.sum_cons, Nat.add_assoc]
    · rw [List.filter_cons_of_neg (by simpa using role), List.filter_cons_of_pos (by simpa using role), List.map_cons,
        List.sum_cons, Nat.add_left_comm]

section NoTarget

variable {request : ClaudeRequest} (accepted : Accepted request) (free : offersTarget request = false)

include accepted free

theorem Accepted.no_tools : request.tools = [] := by
  have loaded : request.tools.any (fun tool => !tool.deferLoading) = false := by
    simp only [offersTarget, Bool.or_eq_false_iff] at free
    exact free.1.1
  have deferred : request.tools.filter (·.deferLoading) = request.tools :=
    List.filter_eq_self.2 fun tool member => by simpa using List.any_eq_false.1 loaded tool member
  have checked := accepted.deferred
  rw [validateDeferred, deferred, Nat.sub_self] at checked
  split at checked
  case isTrue => cases checked
  case isFalse few => simpa using few

theorem Accepted.system_hollow {content : Value} (held : request.system = some content) : Hollow content := by
  refine (accepted.system content held).hollow ?_
  simp only [offersTarget, Bool.or_eq_false_iff, held, Option.map_some, Option.getD_some] at free
  exact free.1.2

theorem Accepted.systemMessage_hollow {message : ClaudeMessage} (member : message ∈ systemMessages request) :
    Hollow message.content := by
  refine (accepted.systemTexts message member).hollow ?_
  simp only [offersTarget, Bool.or_eq_false_iff] at free
  simpa using List.any_eq_false.1 free.2 message (List.mem_filter.1 member).1

theorem Accepted.no_directive (crates : Crates) (registry : ToolNameRegistry) :
    toolChoiceDirective crates registry [] request = "" := by
  have checked := accepted.choice
  have tools := accepted.no_tools free
  unfold validateToolChoice at checked
  unfold toolChoiceDirective
  cases chosen : request.toolChoice with
  | none => rfl
  | some choice =>
    simp only [chosen, tools] at checked
    dsimp only
    split at checked
    case isTrue =>
      obtain ⟨_, impossible, _⟩ := Bytes.bind_ok.1 checked
      cases impossible
    case isFalse =>
      split at checked
      case isTrue kind =>
        split at checked
        · obtain ⟨_, impossible, _⟩ := Bytes.bind_ok.1 checked
          cases impossible
        · obtain ⟨_, impossible, _⟩ := Bytes.bind_ok.1 checked
          cases impossible
      case isFalse kind =>
        have free : choice.type ≠ "any" := by
          intro any
          split at checked
          · obtain ⟨_, impossible, _⟩ := Bytes.bind_ok.1 checked
            cases impossible
          · simp [any] at checked
            cases checked
        simp

theorem Accepted.client_blank : blank (clientSystem request) = true ∧
    (systemMessages request ≠ [] → clientSystem request = "") := by
  have start : blank (systemText request.system) = true := by
    cases held : request.system with
    | none => decide
    | some content => exact (accepted.system_hollow free held).system
  have texts : ∀ message ∈ systemMessages request, blank (contentText message.content) = true := fun message member =>
    (accepted.systemMessage_hollow free member).text
  rw [clientSystem]
  generalize systemMessages request = messages at texts
  generalize systemText request.system = system at start
  induction messages generalizing system with
  | nil => exact ⟨start, fun absurdity => absurd rfl absurdity⟩
  | cons message rest ih =>
    have joined : join system (contentText message.content) = "" := by
      have own := texts message List.mem_cons_self
      rw [join, start]
      simpa [blank] using own
    rw [List.foldl_cons, joined]
    obtain ⟨later, empty⟩ := ih (fun other member => texts other (List.mem_cons_of_mem _ member)) "" (by decide)
    refine ⟨later, fun _ => ?_⟩
    cases rest with
    | nil => rfl
    | cons next others => exact empty (List.cons_ne_nil _ _)

theorem Accepted.sentSystem_blank (crates : Crates) (options : TranslationOptions) (registry : ToolNameRegistry) :
    (options.enhanceSystemPrompt = false → blank (sentSystem crates options registry request) = true) ∧
      (options.enhanceSystemPrompt = true → systemMessages request ≠ [] →
        blank (sentSystem crates options registry request) = false) := by
  have tools := accepted.no_tools free
  have loaded : claudeLoadedTools request = [] := by
    have fewer := loadedTools_sublist request
    rw [tools] at fewer
    exact List.sublist_nil.1 fewer
  have client := accepted.client_blank free
  have alone : sentSystem crates options registry request = join (if options.enhanceSystemPrompt then
      enhanceSystem (clientSystem request) false else clientSystem request) "" := by
    rw [sentSystem, loaded, systemPrompt, loaded, tools]
    simp only [List.map_nil, List.filterMap_nil, List.isEmpty_nil, if_true, List.any_nil, Bool.false_and,
      Bool.false_eq_true, if_false, List.flatMap_nil]
    rw [accepted.no_directive free]
  rw [alone]
  constructor
  · intro off
    rw [if_neg (by simp [off]), join, client.1]
    change blank (Text.trim "") = true
    decide
  · intro enhanced messages
    rw [if_pos enhanced, client.2 messages]
    decide

theorem Accepted.systemCachePoint_alone {options : TranslationOptions} (on : options.enablePromptCache = true) :
    (systemCachePoint options request).isSome =
      (systemMessages request).any fun message => (kiroCachePoint message.cacheControl).isSome := by
  obtain ⟨_, _, further⟩ := Bytes.bind_ok.1 accepted.controls
  obtain ⟨controls, visited, _⟩ := Bytes.bind_ok.1 further
  obtain ⟨tooled, _, prompted⟩ := Bytes.bind_ok.1 visited
  have unmarked : ∀ content, contentMarks content = 0 → (contentCachePoint content).isSome = false := by
    intro content zero
    by_contra marked
    have := contentMarks_pos content (by simpa [Option.isSome_iff_ne_none] using marked)
    omega
  have prompt : (request.system.bind contentCachePoint).isSome = false := by
    cases held : request.system with
    | none => rfl
    | some content =>
      rw [held] at prompted
      obtain ⟨_, content_ok, _⟩ := Bytes.bind_ok.1 prompted
      exact unmarked content ((accepted.system_hollow free held).marks content_ok)
  have each : ∀ message ∈ request.messages, ∃ before after field,
      CacheControls.content before message.content field true = .ok after := by
    cases held : request.system with
    | none =>
      rw [held] at prompted
      exact visitMessages_each prompted
    | some content =>
      rw [held] at prompted
      obtain ⟨_, _, later⟩ := Bytes.bind_ok.1 prompted
      exact visitMessages_each later
  rw [systemCachePoint_isSome request on, prompt, Bool.false_or]
  have own : ∀ message ∈ systemMessages request,
      (systemMark message).isSome = (kiroCachePoint message.cacheControl).isSome := by
    intro message member
    obtain ⟨before, after, field, content_ok⟩ := each message (List.mem_filter.1 member).1
    have zero := (accepted.systemMessage_hollow free member).marks content_ok
    rw [systemMark, mergedCachePoint_isSome, unmarked _ zero, Bool.or_false]
  rw [Bool.eq_iff_iff, List.any_eq_true, List.any_eq_true]
  exact exists_congr fun message => and_congr_right fun member => by rw [own message member]

end NoTarget

/-! ### The limit -/

/-- The automatic marker has no place in the validator's count, and the current message takes it
beside four others: those of the turns, and that of the system prompt where the proxy has a text for it. -/
def Crowded (options : TranslationOptions) (request : ClaudeRequest) : Prop :=
  (kiroCachePoint request.cacheControl).isSome ∧ offersTarget request = false ∧ currentMark options request = none ∧
    4 ≤ (turnMarks options request).length +
      if options.enhanceSystemPrompt && (systemMessages request).any fun message =>
        (kiroCachePoint message.cacheControl).isSome then 1 else 0

/-- The cache points of an accepted request are four at most, exactly unless it is crowded. -/
theorem four_breakpoints_iff (crates : Crates) (others : OtherRequestChecks) (options : TranslationOptions) (draws : Draws)
    (request : ClaudeRequest) (on : options.enablePromptCache = true)
    (enough : ToolNameRegistry.EnoughDigests crates.sha256 (catalogue request))
    (accepted : validateClaude crates others.checks request = .ok ()) :
    ∃ payload, claudeToKiro crates options draws request = some payload ∧
      ((cachePoints payload).length ≤ maxCacheBreakpoints ↔ ¬ Crowded options request) := by
  obtain ⟨registry, registered, -⟩ := ToolNameRegistry.new_registers crates.sha256 (catalogue request) enough
  obtain ⟨payload, translated, count⟩ := cachePoints_length crates on draws registered
  refine ⟨payload, translated, ?_⟩
  have checked := validateClaude_accepted accepted
  obtain ⟨four, three⟩ := checked.limit
  -- The translator never sends more explicit marks than the validator counted.
  have explicitly : ((claudeLoadedTools request).filterMap (toolMark options)).length +
      (if blank (sentSystem crates options registry request) then 0 else (systemCachePoint options request).toList.length) +
      (turnMarks options request).length ≤ requestMarks request := by
    have tools := loadedMarks_le request on
    have system := systemCachePoint_weight request on
    have turns := turnMarks_weight options request
    rw [requestMarks, checked.marks_split]
    split <;> omega
  have automatic : (if (currentMark options request).isSome then 0 else marker request.cacheControl) ≤ 1 := by
    have := marker_le_one request.cacheControl
    split <;> omega
  rw [count, maxCacheBreakpoints]
  by_cases marked : (kiroCachePoint request.cacheControl).isSome
  · by_cases target : offersTarget request = true
    · have fewer := three marked target
      have room : ¬ Crowded options request := fun crowded => by simp [crowded.2.1] at target
      simp only [room, not_false_eq_true, iff_true]
      omega
    · have free : offersTarget request = false := by simpa using target
      have tools : claudeLoadedTools request = [] := by
        have fewer := loadedTools_sublist request
        rw [checked.no_tools free] at fewer
        exact List.sublist_nil.1 fewer
      have system : (if blank (sentSystem crates options registry request) then 0
          else (systemCachePoint options request).toList.length) =
          if options.enhanceSystemPrompt && (systemMessages request).any fun message =>
            (kiroCachePoint message.cacheControl).isSome then 1 else 0 := by
        obtain ⟨plain, enhanced⟩ := checked.sentSystem_blank free crates options registry
        have point := checked.systemCachePoint_alone free on
        cases on_enhance : options.enhanceSystemPrompt with
        | false => simp [plain on_enhance]
        | true =>
          rw [Bool.true_and, ← point]
          cases held : systemCachePoint options request with
          | none => simp
          | some found =>
            rw [held, Option.isSome_some, eq_comm, List.any_eq_true] at point
            obtain ⟨message, member, -⟩ := point
            simp [enhanced on_enhance (List.ne_nil_of_mem member)]
      rw [system, tools, List.filterMap_nil, List.length_nil] at explicitly ⊢
      rw [Crowded, marker_pos marked]
      cases current : currentMark options request with
      | none =>
        simp only [marked, free, true_and, Option.isSome_none, Bool.false_eq_true, if_false]
        omega
      | some found =>
        simp only [Option.isSome_some, if_true, reduceCtorEq, false_and, and_false, not_false_eq_true, iff_true]
        omega
  · have room : ¬ Crowded options request := fun crowded => marked crowded.1
    have zero : marker request.cacheControl = 0 := by simp [marker, Option.not_isSome_iff_eq_none.1 marked]
    simp only [room, not_false_eq_true, iff_true]
    rw [zero, ite_self]
    omega

def noOtherRequestChecks : OtherRequestChecks :=
  { sampling := fun _ => .ok (), settings := fun _ => .ok (), message := fun _ _ => .ok ()
    assistantBlock := fun _ _ => .ok (), url := fun _ _ => .ok (), sizes := fun _ => .ok ()
    documentation := fun _ => .ok (), toolIdentity := fun _ _ => .ok (), toolOptions := fun _ _ => .ok ()
    toolExamples := fun _ _ => .ok (), references := fun _ => .ok (), thinking := fun _ => .ok () }

def cachingOptions : TranslationOptions :=
  { modelId := "claude-sonnet-4.5", origin := "AI_EDITOR", enablePromptCache := true }

/-- Empty messages of both roles, four of them marked, and an automatic marker. -/
def crowdedRequest : ClaudeRequest :=
  { messages := [
      { role := "user", content := .string "", cacheControl := some ephemeral },
      { role := "assistant", content := .string "", cacheControl := some ephemeral },
      { role := "user", content := .string "", cacheControl := some ephemeral },
      { role := "assistant", content := .string "", cacheControl := some ephemeral },
      { role := "user", content := .string "" }]
    cacheControl := some ephemeral }

theorem four_breakpoints_crowded :
    ∃ payload, claudeToKiro sampleCrates cachingOptions OpenAi.sampleDraws crowdedRequest = some payload ∧
      ¬ (cachePoints payload).length ≤ maxCacheBreakpoints := by
  obtain ⟨payload, translated, exactly⟩ := four_breakpoints_iff sampleCrates noOtherRequestChecks cachingOptions
    OpenAi.sampleDraws crowdedRequest rfl (fun name member => absurd member List.not_mem_nil) (by decide +kernel)
  refine ⟨payload, translated, ?_⟩
  rw [exactly, not_not]
  exact ⟨by decide +kernel, by decide +kernel, by decide +kernel, by decide +kernel⟩

theorem five_breakpoints : validateClaude sampleCrates noOtherRequestChecks.checks crowdedRequest = .ok () ∧
    cachingOptions.enablePromptCache = true ∧
    (claudeToKiro sampleCrates cachingOptions OpenAi.sampleDraws crowdedRequest).map
      (fun payload => (cachePoints payload).length) = some 5 := by
  refine ⟨?_, rfl, ?_⟩
  · decide +kernel
  · decide +kernel

end KiroProxy.Claude

import KiroProxy.Http.StreamRound

/-! What a client has of an answer while it is streamed. -/
namespace KiroProxy.Http

open Kiro

structure Shown where
  name : String
  partialJson : String

def Shown.add (inputDelta : String) (shown : Shown) : Shown := { shown with
  partialJson := if shown.partialJson = "" ∧ Text.trim inputDelta = "" then "" else shown.partialJson ++ inputDelta }

def Shown.absorb (name inputDelta : String) (known : Option Shown) : Shown := (known.getD ⟨name, ""⟩).add inputDelta

namespace Content

def isToolUse : Content → Bool
  | toolUse .. => true
  | _ => false

def ofShown (id : String) (shown : Shown) : Content := toolUse id shown.name (.object []) shown.partialJson

def addTo (id piece : String) : Content → Content
  | toolUse key name input partialJson =>
    toolUse key name input (if key = id then partialJson ++ piece else partialJson)
  | content => content

@[simp] theorem addTo_empty (id : String) : addTo id "" = fun content => content := by
  funext content
  cases content <;> simp [addTo]

@[simp] theorem written_addTo (id piece : String) (content : Content) :
    (content.addTo id piece).written = content.written := by
  cases content <;> rfl

@[simp] theorem isToolUse_addTo (id piece : String) (content : Content) :
    (content.addTo id piece).isToolUse = content.isToolUse := by
  cases content <;> rfl

end Content

structure Shows (s : ClaudeState) (contents : List Content) (text : String) (shown : List (String × Shown)) : Prop where
  begun : s.messageStarted = false → contents = []
  length : contents.length = s.nextIndex
  text : String.join (contents.map (·.written)) = text
  calls : contents.filter (·.isToolUse) = shown.map fun (id, shown) => .ofShown id shown
  indices : ∀ id index, s.toolIndices.lookup id = some index ↔
    ∃ name input json, contents[index]? = some (.toolUse id name input json)
  withInput : ∀ id, id ∈ s.toolsWithInput ↔ ∃ call, (id, call) ∈ shown ∧ call.partialJson ≠ ""
  opened : ∀ index, s.block = some (index, .text) →
    index + 1 = contents.length ∧ ∃ written, contents[index]? = some (.text written)

def Encoder.contents (e : Encoder) (client : Client) : List Content := (e.output.foldl Client.read client).contents

section Operations

variable {client : Client} {e : Encoder} {text : String} {shown : List (String × Shown)}

theorem Shows.ensureMessage (shows : Shows e.state (e.contents client) text shown) :
    Shows e.ensureMessage.state (e.ensureMessage.contents client) text shown := by
  unfold Encoder.ensureMessage
  split
  · exact shows
  case isFalse silent =>
    have empty : e.contents client = [] := shows.begun (by simpa using silent)
    have read : ∀ message, ((⟨{ e.state with messageStarted := true }, e.output ++ [.messageStart message]⟩ :
        Encoder).contents client) = e.contents client := by
      intro message
      rw [empty]
      simp [Encoder.contents, Client.read]
    simp only
    rw [read]
    exact ⟨fun silent => (by cases silent), shows.length, shows.text, shows.calls, shows.indices, shows.withInput,
      shows.opened⟩

theorem ensureMessage_started (e : Encoder) : e.ensureMessage.state.messageStarted = true := by
  unfold Encoder.ensureMessage
  split
  · assumption
  · rfl

theorem contents_stop (e : Encoder) (client : Client) (index : Nat) :
    (e.stop index).contents client = e.contents client := by
  simp [Encoder.stop, Encoder.push, Client.read, Encoder.contents]

theorem contents_delta (e : Encoder) (client : Client) (index : Nat) (piece : Value) :
    (e.delta index piece).contents client = (e.contents client).modify index (·.add piece) := by
  simp [Encoder.delta, Encoder.push, Client.read, Encoder.contents]

theorem contents_openBlock (e : Encoder) (client : Client) (kind : BlockKind) (initial : Value) :
    (e.openBlock kind initial).1.contents client = e.contents client ++ [.ofBlock initial] := by
  simp [Encoder.openBlock, Encoder.contents, Client.read]

theorem Shows.closeBlock (shows : Shows e.state (e.contents client) text shown) (index : Nat) :
    Shows (e.closeBlock index).state ((e.closeBlock index).contents client) text shown := by
  have same : (e.closeBlock index).contents client = e.contents client := contents_stop e client index
  rw [same]
  exact ⟨shows.begun, shows.length, shows.text, shows.calls, shows.indices, shows.withInput,
    fun _ opened => (by cases opened)⟩

theorem join_append_singleton (texts : List String) (last : String) :
    String.join (texts ++ [last]) = String.join texts ++ last := by
  simp [String.join]

variable {index : Nat} {id : String} {call : Shown}

theorem getElem?_snoc {contents : List Content} {last content : Content} :
    (contents ++ [last])[index]? = some content ↔
      contents[index]? = some content ∨ index = contents.length ∧ last = content := by
  rcases Nat.lt_or_ge index contents.length with inside | beyond
  · rw [List.getElem?_append_left inside]
    simp [inside.ne]
  · rw [List.getElem?_append_right beyond, List.getElem?_eq_none beyond, List.getElem?_singleton]
    simp only [reduceCtorEq, false_or, Option.ite_none_right_eq_some, Option.some.injEq]
    exact and_congr_left fun _ => by omega

theorem Shows.openText (shows : Shows e.state (e.contents client) text shown)
    (started : e.state.messageStarted = true) :
    let e := (e.openBlock .text (.object [("text", .string ""), ("type", .string "text")])).1
    Shows e.state (e.contents client) text shown := by
  intro next
  have read : next.contents client = e.contents client ++ [.text ""] := contents_openBlock e client _ _
  rw [read]
  refine ⟨fun silent => ?_, ?_, ?_, ?_, fun id index => ?_, shows.withInput, fun index opened => ?_⟩
  · cases started.symm.trans silent
  · rw [List.length_append, shows.length]
    rfl
  · rw [List.map_append, List.map_singleton, join_append_singleton, shows.text]
    exact String.append_empty
  · rw [List.filter_append, shows.calls]
    exact List.append_nil _
  · simp only [getElem?_snoc, reduceCtorEq, and_false, or_false]
    exact shows.indices id index
  · cases opened
    exact ⟨by rw [List.length_append, shows.length]; rfl, "", getElem?_snoc.2 (.inr ⟨shows.length.symm, rfl⟩)⟩

theorem Shows.openTool (shows : Shows e.state (e.contents client) text shown)
    (started : e.state.messageStarted = true) (unknown : e.state.toolIndices.lookup id = none) (name : String) :
    let opened := e.openBlock .toolUse (.object [("id", .string id), ("input", .object []), ("name", .string name),
      ("type", .string "tool_use")])
    Shows { opened.1.state with toolIndices := (id, opened.2) :: opened.1.state.toolIndices }
      (opened.1.contents client) text (shown ++ [(id, ⟨name, ""⟩)]) := by
  intro opened
  have read : opened.1.contents client = e.contents client ++ [.toolUse id name (.object []) ""] :=
    contents_openBlock e client _ _
  rw [read]
  refine ⟨fun silent => ?_, ?_, ?_, ?_, fun key index => ?_, fun key => ?_, fun index opened => ?_⟩
  · cases started.symm.trans silent
  · rw [List.length_append, shows.length]
    rfl
  · rw [List.map_append, List.map_singleton, join_append_singleton, shows.text]
    exact String.append_empty
  · rw [List.filter_append, shows.calls, List.map_append]
    rfl
  · rw [List.lookup_cons]
    by_cases same : key = id
    · subst same
      simp only [beq_self_eq_true, Option.some.injEq, getElem?_snoc, Content.toolUse.injEq, true_and]
      constructor
      · rintro rfl
        exact ⟨name, .object [], "", .inr ⟨shows.length.symm, rfl, rfl, rfl⟩⟩
      · rintro ⟨_, _, _, earlier | ⟨last, -⟩⟩
        · rw [(shows.indices key index).2 ⟨_, _, _, earlier⟩] at unknown
          cases unknown
        · exact shows.length.symm.trans last.symm
    · rw [beq_false_of_ne same]
      simp only [getElem?_snoc, Content.toolUse.injEq, Ne.symm same, false_and, and_false, or_false]
      exact shows.indices key index
  · refine (shows.withInput key).trans ⟨?_, ?_⟩
    · rintro ⟨call, member, given⟩
      exact ⟨call, List.mem_append_left _ member, given⟩
    · rintro ⟨call, member, given⟩
      rcases List.mem_append.1 member with earlier | last
      · exact ⟨call, earlier, given⟩
      · cases List.mem_singleton.1 last
        exact absurd rfl given
  · cases opened

theorem Shows.stop (shows : Shows e.state (e.contents client) text shown) (index : Nat) :
    Shows (e.stop index).state ((e.stop index).contents client) text shown := by
  rw [contents_stop]
  exact shows

theorem Shows.switchText (shows : Shows e.state (e.contents client) text shown) :
    let switched := e.switchBlock .text (.object [("text", .string ""), ("type", .string "text")])
    Shows switched.1.state (switched.1.contents client) text shown ∧
      switched.1.state.block = some (switched.2, .text) := by
  have started := ensureMessage_started e
  have next := shows.ensureMessage
  simp only [Encoder.switchBlock]
  split
  case h_1 index current opened =>
    split
    case isTrue same =>
      rw [same.1] at opened
      exact ⟨next, opened⟩
    case isFalse => exact ⟨(next.stop index).openText started, rfl⟩
  case h_2 => exact ⟨next.openText started, rfl⟩

theorem modify_last {contents : List Content} {content : Content} (last : index + 1 = contents.length)
    (here : contents[index]? = some content) (f : Content → Content) :
    ∃ front, contents = front ++ [content] ∧ contents.modify index f = front ++ [f content] := by
  obtain ⟨front, final, rfl⟩ := List.eq_nil_or_concat contents |>.resolve_left (by rintro rfl; cases here)
  obtain rfl : index = front.length := by simpa using last
  simp only [List.concat_eq_append, getElem?_snoc, true_and] at here
  obtain rfl : final = content := here.resolve_left (by simp)
  refine ⟨front, List.concat_eq_append, ?_⟩
  rw [List.concat_eq_append, List.modify_eq_take_cons_drop (by simp)]
  simp

theorem Shows.textBlock (shows : Shows e.state (e.contents client) text shown) (piece : String) :
    Shows (e.textBlock piece).state ((e.textBlock piece).contents client) (text ++ piece) shown := by
  obtain ⟨next, opened⟩ := shows.switchText
  simp only [Encoder.textBlock]
  generalize e.switchBlock .text (.object [("text", .string ""), ("type", .string "text")]) = switched at next opened
  obtain ⟨e, index⟩ := switched
  simp only at next opened ⊢
  obtain ⟨last, before, here⟩ := next.opened index opened
  rw [contents_delta]
  obtain ⟨front, whole, changed⟩ := modify_last last here
    (·.add (.object [("text", .string piece), ("type", .string "text_delta")]))
  have grown : (Content.text before).add (.object [("text", .string piece), ("type", .string "text_delta")]) =
      .text (before ++ piece) := rfl
  rw [grown] at changed
  have tools : ∀ (index : Nat) id name input json, (front ++ [Content.text (before ++ piece)])[index]? =
      some (Content.toolUse id name input json) ↔ (e.contents client)[index]? = some (.toolUse id name input json) := by
    intro index id name input json
    rw [whole]
    simp [getElem?_snoc]
  rw [changed]
  refine ⟨fun silent => ?_, ?_, ?_, ?_, fun id index => ?_, next.withInput, fun index opened => ?_⟩
  · have empty := next.begun silent
    rw [whole] at empty
    simp at empty
  · have earlier := next.length
    rw [whole, List.length_append] at earlier
    rw [List.length_append]
    exact earlier
  · have earlier := next.text
    rw [whole] at earlier
    rw [List.map_append, List.map_singleton, join_append_singleton] at earlier ⊢
    rw [← earlier, String.append_assoc]
    rfl
  · have earlier := next.calls
    rw [whole, List.filter_append] at earlier
    rw [List.filter_append, ← earlier]
    rfl
  · simp only [tools]
    exact next.indices id index
  · obtain ⟨final, -⟩ := next.opened index opened
    rw [whole] at final
    refine ⟨by simpa using final, before ++ piece, getElem?_snoc.2 (.inr ⟨?_, rfl⟩)⟩
    simpa using final

theorem Shows.mem_shown (shows : Shows e.state (e.contents client) text shown) :
    (id, call) ∈ shown ↔ .ofShown id call ∈ e.contents client := by
  have member : Content.ofShown id call ∈ e.contents client ↔
      Content.ofShown id call ∈ (e.contents client).filter (·.isToolUse) := by
    rw [List.mem_filter]
    exact (and_iff_left rfl).symm
  rw [member, shows.calls, List.mem_map]
  constructor
  · exact fun here => ⟨_, here, rfl⟩
  · rintro ⟨⟨key, other⟩, here, same⟩
    simp only [Content.ofShown, Content.toolUse.injEq, true_and] at same
    obtain ⟨rfl, name, json⟩ := same
    cases other
    cases call
    cases name
    cases json
    exact here

theorem Shows.known (shows : Shows e.state (e.contents client) text shown) (id : String) :
    (e.state.toolIndices.lookup id).isSome ↔ id ∈ shown.map (·.1) := by
  rw [Option.isSome_iff_exists, List.mem_map]
  constructor
  · rintro ⟨index, given⟩
    obtain ⟨name, input, json, here⟩ := (shows.indices id index).1 given
    have kept : Content.toolUse id name input json ∈ (e.contents client).filter (·.isToolUse) :=
      List.mem_filter.2 ⟨List.mem_of_getElem? here, rfl⟩
    rw [shows.calls, List.mem_map] at kept
    obtain ⟨entry, member, same⟩ := kept
    exact ⟨entry, member, by cases same; rfl⟩
  · rintro ⟨⟨key, call⟩, member, rfl⟩
    obtain ⟨index, here⟩ := List.mem_iff_getElem?.1 (shows.mem_shown.1 member)
    exact ⟨index, (shows.indices key index).2 ⟨_, _, _, here⟩⟩

theorem Shows.toolBlock (shows : Shows e.state (e.contents client) text shown) (id name : String) :
    let found := ClaudeState.toolBlock e id name
    Shows found.1.state (found.1.contents client) text
        (if id ∈ shown.map (·.1) then shown else shown ++ [(id, ⟨name, ""⟩)]) ∧
      found.1.state.toolIndices.lookup id = some found.2 := by
  have known := shows.known id
  simp only [ClaudeState.toolBlock]
  split
  case h_1 index given =>
    rw [if_pos (known.1 (by rw [given]; rfl))]
    exact ⟨shows, given⟩
  case h_2 unknown =>
    rw [if_neg (fun there => by have := known.2 there; rw [unknown] at this; cases this)]
    have started := ensureMessage_started e
    have next := shows.ensureMessage
    have absent : e.ensureMessage.state.toolIndices.lookup id = none := by
      unfold Encoder.ensureMessage
      split <;> exact unknown
    refine ⟨?_, by simp⟩
    simp only [Encoder.switchBlock]
    split
    case h_1 index current opened =>
      rw [if_neg (by simp)]
      exact (next.stop index).openTool started absent name
    case h_2 => exact next.openTool started absent name

theorem Shows.modify (shows : Shows e.state (e.contents client) text shown)
    (known : e.state.toolIndices.lookup id = some index) (piece : String) :
    (e.contents client).modify index
        (·.add (.object [("partial_json", .string piece), ("type", .string "input_json_delta")])) =
      (e.contents client).map (·.addTo id piece) := by
  apply List.ext_getElem?
  intro i
  rw [List.getElem?_modify, List.getElem?_map]
  cases here : (e.contents client)[i]? with
  | none => rfl
  | some content =>
    by_cases same : index = i
    · subst same
      obtain ⟨name, input, json, found⟩ := (shows.indices id index).1 known
      cases here.symm.trans found
      simp only [if_true, Option.map_some, Content.addTo]
      rfl
    · simp only [if_neg same, Option.map_some]
      cases content with
      | toolUse key name input json =>
        have other : key ≠ id := by
          rintro rfl
          have also := (shows.indices key i).2 ⟨_, _, _, here⟩
          exact same (Option.some.inj (known.symm.trans also))
        simp [Content.addTo, other]
      | _ => rfl

theorem Shows.unique (shows : Shows e.state (e.contents client) text shown) {first second : Shown}
    (member : (id, first) ∈ shown) (also : (id, second) ∈ shown) : first = second := by
  obtain ⟨i, here⟩ := List.mem_iff_getElem?.1 (shows.mem_shown.1 member)
  obtain ⟨j, there⟩ := List.mem_iff_getElem?.1 (shows.mem_shown.1 also)
  have one := (shows.indices id i).2 ⟨_, _, _, here⟩
  have two := (shows.indices id j).2 ⟨_, _, _, there⟩
  obtain rfl : i = j := Option.some.inj (one.symm.trans two)
  have same := Option.some.inj (here.symm.trans there)
  simp only [Content.ofShown, Content.toolUse.injEq, true_and] at same
  cases first
  cases second
  simp_all

def addShown (id inputDelta : String) (entry : String × Shown) : String × Shown :=
  if entry.1 = id then (entry.1, entry.2.add inputDelta) else entry

theorem addShown_fst (id inputDelta : String) (entry : String × Shown) : (addShown id inputDelta entry).1 = entry.1 := by
  unfold addShown
  split <;> rfl

theorem Shows.added (shows : Shows e.state (e.contents client) text shown) (member : (id, call) ∈ shown)
    {piece inputDelta : String} (grown : (call.add inputDelta).partialJson = call.partialJson ++ piece)
    {inputs : List String}
    (given : ∀ key, key ∈ inputs ↔ ∃ call, (key, call) ∈ shown.map (addShown id inputDelta) ∧ call.partialJson ≠ "") :
    Shows { e.state with toolsWithInput := inputs } ((e.contents client).map (·.addTo id piece)) text
      (shown.map (addShown id inputDelta)) := by
  refine ⟨fun silent => ?_, ?_, ?_, ?_, fun key index => ?_, given, fun index opened => ?_⟩
  · rw [shows.begun silent]
    rfl
  · rw [List.length_map]
    exact shows.length
  · rw [List.map_map]
    simpa [Function.comp_def] using shows.text
  · rw [List.filter_map, show ((·.isToolUse) ∘ fun content => content.addTo id piece) = Content.isToolUse from
      funext fun content => content.isToolUse_addTo id piece, shows.calls, List.map_map, List.map_map]
    refine List.map_congr_left fun ⟨key, other⟩ here => ?_
    by_cases same : key = id
    · subst same
      cases shows.unique member here
      simp only [Function.comp_apply, Content.ofShown, Content.addTo, addShown, if_true, grown]
      rfl
    · simp [Content.ofShown, Content.addTo, addShown, same]
  · refine (shows.indices key index).trans ?_
    simp only [List.getElem?_map, Option.map_eq_some_iff]
    constructor
    · rintro ⟨name, input, json, here⟩
      exact ⟨_, _, _, _, here, rfl⟩
    · rintro ⟨name, input, json, content, here, same⟩
      cases content with
      | toolUse key name input json =>
        cases same
        exact ⟨_, _, _, here⟩
      | _ => cases same
  · obtain ⟨last, written, here⟩ := shows.opened index opened
    exact ⟨by rw [List.length_map]; exact last, written, by rw [List.getElem?_map, here]; rfl⟩

theorem Shows.given (shows : Shows e.state (e.contents client) text shown) (member : (id, call) ∈ shown)
    (inputDelta key : String) :
    (key ∈ if Text.trim inputDelta = "" then e.state.toolsWithInput else id :: e.state.toolsWithInput) ↔
      ∃ call, (key, call) ∈ shown.map (addShown id inputDelta) ∧ call.partialJson ≠ "" := by
  have placed : (id, call.add inputDelta) ∈ shown.map (addShown id inputDelta) :=
    List.mem_map.2 ⟨_, member, by simp [addShown]⟩
  have nonempty (solid : Text.trim inputDelta ≠ "") : (call.add inputDelta).partialJson ≠ "" := by
    have filled : inputDelta ≠ "" := by
      rintro rfl
      exact solid (by decide)
    simp [Shown.add, solid, filled]
  have others (different : key ≠ id) (other : Shown) :
      (key, other) ∈ shown.map (addShown id inputDelta) ↔ (key, other) ∈ shown := by
    rw [List.mem_map]
    constructor
    · rintro ⟨entry, here, same⟩
      have : entry.1 ≠ id := by
        rw [← addShown_fst id inputDelta entry, same]
        exact different
      rw [addShown, if_neg this] at same
      exact same ▸ here
    · exact fun here => ⟨_, here, by simp [addShown, different]⟩
  by_cases same : key = id
  · subst same
    split
    case isTrue blank =>
      rw [shows.withInput]
      constructor
      · rintro ⟨other, here, filled⟩
        cases shows.unique member here
        exact ⟨_, placed, by simp [Shown.add, filled]⟩
      · rintro ⟨other, here, filled⟩
        obtain ⟨entry, there, same⟩ := List.mem_map.1 here
        have equal : entry.1 = key := by rw [← addShown_fst key inputDelta entry, same]
        rw [addShown, if_pos equal] at same
        obtain rfl : entry.2.add inputDelta = other := congrArg Prod.snd same
        refine ⟨entry.2, by rw [← equal]; exact there, fun empty => filled ?_⟩
        simp [Shown.add, empty, blank]
    case isFalse solid => exact ⟨fun _ => ⟨_, placed, nonempty solid⟩, fun _ => List.mem_cons_self⟩
  · have trimmed : (key ∈ if Text.trim inputDelta = "" then e.state.toolsWithInput else id :: e.state.toolsWithInput) ↔
        key ∈ e.state.toolsWithInput := by
      split <;> simp [same]
    simp only [trimmed, shows.withInput, others same]

theorem Shows.toolInput (shows : Shows e.state (e.contents client) text shown)
    (known : e.state.toolIndices.lookup id = some index) (inputDelta : String) (stop : Bool) :
    Shows (ClaudeState.toolInput e index id inputDelta stop).state
      ((ClaudeState.toolInput e index id inputDelta stop).contents client) text (shown.map (addShown id inputDelta)) := by
  obtain ⟨⟨key, call⟩, member, rfl⟩ := List.mem_map.1 ((shows.known id).1 (by rw [known]; rfl))
  have given := shows.given member inputDelta
  have closing : ∀ next : Encoder, Shows next.state (next.contents client) text (shown.map (addShown key inputDelta)) →
      let last := if stop = true ∧ next.state.block = some (index, .toolUse) then next.closeBlock index else next
      Shows last.state (last.contents client) text (shown.map (addShown key inputDelta)) := by
    intro next shows
    simp only
    split
    · exact shows.closeBlock index
    · exact shows
  apply closing
  by_cases blank : Text.trim inputDelta = ""
  · simp only [if_pos blank] at given ⊢
    split
    case isTrue sends =>
      obtain ⟨other, here, filled⟩ := (shows.withInput key).1 sends.2
      cases shows.unique member here
      rw [contents_delta, shows.modify known]
      exact shows.added member (by simp [Shown.add, filled]) given
    case isFalse silent =>
      have grown : (call.add inputDelta).partialJson = call.partialJson ++ "" := by
        by_cases filled : call.partialJson = ""
        · simp [Shown.add, filled, blank]
        · have noted : key ∈ e.state.toolsWithInput := (shows.withInput key).2 ⟨call, member, filled⟩
          have empty : inputDelta = "" := by
            by_contra nonempty
            exact silent ⟨nonempty, noted⟩
          simp [Shown.add, filled, empty]
      simpa using shows.added member grown given
  · simp only [if_neg blank] at given ⊢
    have nonempty : inputDelta ≠ "" := by
      rintro rfl
      exact blank (by decide)
    rw [if_pos ⟨nonempty, List.mem_cons_self⟩, contents_delta]
    have same : (⟨{ e.state with toolsWithInput := key :: e.state.toolsWithInput }, e.output⟩ : Encoder).contents client =
        e.contents client := rfl
    rw [same, shows.modify known]
    exact shows.added member (by simp [Shown.add, blank]) given

end Operations

def afterEvent (text : String) (shown : List (String × Shown)) : KiroEvent → String × List (String × Shown)
  | .assistantResponse content => (text ++ content, shown)
  | .toolUse id name inputDelta _ => (text, SortedMap.place id (Shown.absorb name inputDelta) shown)
  | _ => (text, shown)

def answers : KiroEvent → Bool
  | .assistantResponse _ | .toolUse .. | .messageMetadata _ | .usage _ | .other .. => true
  | _ => false

theorem Shows.event {s : ClaudeState} {client : Client} {text : String} {shown : List (String × Shown)}
    (shows : Shows s client.contents text shown) {event : KiroEvent} (plain : answers event = true) :
    Shows (s.event event).state ((s.event event).contents client) (afterEvent text shown event).1
      (afterEvent text shown event).2 := by
  cases event with
  | assistantResponse content =>
    have noted : Shows { s with visibleText := s.visibleText ++ content } client.contents text shown :=
      ⟨shows.begun, shows.length, shows.text, shows.calls, shows.indices, shows.withInput, shows.opened⟩
    have begun : Shows (ClaudeState.begin { s with visibleText := s.visibleText ++ content }).state
        ((ClaudeState.begin { s with visibleText := s.visibleText ++ content }).contents client) text shown := noted
    exact begun.textBlock content
  | toolUse id name inputDelta stop =>
    have begun : Shows s.begin.state (s.begin.contents client) text shown := shows
    obtain ⟨found, known⟩ := begun.toolBlock id name
    have next := found.toolInput known inputDelta stop
    have placed : SortedMap.place id (Shown.absorb name inputDelta) shown =
        (if id ∈ shown.map (·.1) then shown else shown ++ [(id, ⟨name, ""⟩)]).map (addShown id inputDelta) :=
      SortedMap.place_eq_map (fun _ => rfl) id shown
    simp only [afterEvent, placed]
    exact next
  | reasoning => cases plain
  | citations => cases plain
  | error => cases plain
  | _ => exact shows

end KiroProxy.Http

import KiroProxy.Http.ThinkingFilter

/-! Which spans of an answer are reasoning, and that the filter takes out these and nothing else. -/
namespace KiroProxy.Http

open Kiro Turns

/-! ### The end that is kept back -/

theorem retainFrom_spec (value delimiter : List Char) (most : Nat) (inside : most ≤ value.length) :
    ∃ kept ≤ most, retainFrom value delimiter most = value.length - kept ∧
      value.drop (value.length - kept) <+: delimiter ∧
      ∀ r, kept < r → r ≤ most → ¬ value.drop (value.length - r) <+: delimiter := by
  induction most with
  | zero =>
    refine ⟨0, le_rfl, rfl, ?_, fun r more less => absurd more (by omega)⟩
    rw [Nat.sub_zero, List.drop_length]
    exact List.nil_prefix
  | succ most ih =>
    unfold retainFrom
    by_cases begins : (value.drop (value.length - (most + 1))).isPrefixOf delimiter = true
    · rw [if_pos begins]
      exact ⟨most + 1, le_rfl, rfl, List.isPrefixOf_iff_prefix.1 begins, fun r more less => absurd more (by omega)⟩
    · rw [if_neg begins]
      obtain ⟨kept, less, same, fits, longer⟩ := ih (by omega)
      refine ⟨kept, by omega, same, fits, fun r more inside_ => ?_⟩
      rcases Nat.lt_or_ge most r with next | before
      · obtain rfl : r = most + 1 := by omega
        rwa [← List.isPrefixOf_iff_prefix]
      · exact longer r more before

section Delimiter_

variable {delimiter value : List Char}

theorem safePrefixLen_held (filled : delimiter ≠ []) (uncut : Text.splitOnceChars delimiter value = none) :
    Held (Off delimiter) (value.take (safePrefixLen value delimiter)) (value.drop (safePrefixLen value delimiter)) ∧
      (value.drop (safePrefixLen value delimiter)).length < delimiter.length := by
  have some := List.length_pos_iff.2 filled
  obtain ⟨kept, less, same, fits, longer⟩ := retainFrom_spec value delimiter
    (min value.length (delimiter.length - 1)) (Nat.min_le_left _ _)
  have within : kept ≤ value.length := by omega
  rw [safePrefixLen, same]
  refine ⟨⟨fun u filled_ inside => ?_, .inr fun off => off.1 fits⟩, ?_⟩
  · have suffix : u ++ value.drop (value.length - kept) <:+ value := by
      obtain ⟨front, whole⟩ := inside
      refine ⟨front, ?_⟩
      rw [← List.append_assoc, whole, List.take_append_drop]
    have size := List.length_pos_iff.2 filled_
    refine ⟨fun begins => ?_, splitOnceChars_absent uncut suffix (List.append_ne_nil_of_left_ne_nil filled_ _)⟩
    have found := splitOnceChars_absent uncut suffix (List.append_ne_nil_of_left_ne_nil filled_ _)
    have long : (u ++ value.drop (value.length - kept)).length = u.length + kept := by
      rw [List.length_append, List.length_drop]
      omega
    have bounded := suffix.length_le
    rw [long] at bounded
    rcases Nat.lt_or_ge (u.length + kept) delimiter.length with short | full
    · refine longer (u.length + kept) (by omega) (by omega) ?_
      rwa [← long, ← List.suffix_iff_eq_drop.1 suffix]
    · have equal := begins.eq_of_length_le (by rw [long]; exact full)
      exact found (equal ▸ List.prefix_rfl)
  · rw [List.length_drop]
    omega

theorem safePrefixLen_append (filled : delimiter ≠ []) {front back : List Char}
    (clear : Clear (Off delimiter) front back) (uncut : Text.splitOnceChars delimiter back = none) :
    safePrefixLen (front ++ back) delimiter = front.length + safePrefixLen back delimiter := by
  have whole : Text.splitOnceChars delimiter (front ++ back) = none := by
    rw [splitOnceChars_clear back clear, uncut]
    rfl
  have first := (safePrefixLen_held filled whole).1
  have behind := (safePrefixLen_held filled uncut).1
  have second : Held (Off delimiter) (front ++ back.take (safePrefixLen back delimiter))
      (back.drop (safePrefixLen back delimiter)) := by
    refine ⟨.append ?_ behind.clear, behind.kept⟩
    rwa [List.take_append_drop]
  have same := (first.unique second (by rw [List.append_assoc, List.take_append_drop, List.take_append_drop])).1
  have sizes := congrArg List.length same
  simp only [List.length_take, List.length_append] at sizes
  have inside : ∀ text, safePrefixLen text delimiter ≤ text.length := fun text => by
    obtain ⟨kept, -, same, -⟩ := retainFrom_spec text delimiter (min text.length (delimiter.length - 1))
      (Nat.min_le_left _ _)
    rw [safePrefixLen, same]
    exact Nat.sub_le _ _
  have left := inside (front ++ back)
  have right := inside back
  rw [List.length_append] at left
  omega

/-- A text without the delimiter, looked at again with more behind it: it is cut where what is held back is cut. -/
theorem cut_longer (filled : delimiter ≠ []) {text : List Char} (uncut : Text.splitOnceChars delimiter text = none)
    (more : List Char) :
    let front := text.take (safePrefixLen text delimiter)
    let back := text.drop (safePrefixLen text delimiter) ++ more
    (∀ inside behind, Text.splitOnceChars delimiter back = some (inside, behind) →
      Text.splitOnceChars delimiter (text ++ more) = some (front ++ inside, behind)) ∧
    (Text.splitOnceChars delimiter back = none →
      Text.splitOnceChars delimiter (text ++ more) = none ∧
      (text ++ more).take (safePrefixLen (text ++ more) delimiter) = front ++ back.take (safePrefixLen back delimiter) ∧
      (text ++ more).drop (safePrefixLen (text ++ more) delimiter) = back.drop (safePrefixLen back delimiter)) := by
  intro front back
  have clear := ((safePrefixLen_held filled uncut).1.clear).extend off_steady more
  have whole : text ++ more = front ++ back := by
    rw [← List.append_assoc, List.take_append_drop]
  rw [whole]
  constructor
  · intro inside behind cut
    rw [splitOnceChars_clear back clear, cut]
    rfl
  · intro later
    rw [splitOnceChars_clear back clear, later, safePrefixLen_append filled clear later, List.take_length_add_append,
      List.drop_length_add_append]
    exact ⟨rfl, rfl, rfl⟩

end Delimiter_

namespace ThinkingContentFilter

/-! ### The four turns -/

section Turns_

variable {finish : Bool} {filter : ThinkingContentFilter} {front back : List Char}

def closed (filter : ThinkingContentFilter) (back : List Char) : ThinkingContentFilter := { filter with
  pending := back, inTaggedThinking := false, position := ({} : MarkdownPosition).advance thinkingEndTag }

def openedAt (filter : ThinkingContentFilter) (front : List Char) : MarkdownPosition :=
  (filter.position.advance front).advance thinkingStartTag

theorem turn_closing (tagged : filter.inTaggedThinking = true)
    (cut : Text.splitOnceChars thinkingEndTag filter.pending = some (front, back)) :
    turn finish filter = .again (if filter.shows then [front ++ thinkingEndTag] else []) (filter.closed back) := by
  rw [turn, if_pos tagged, cut]
  rfl

theorem turn_thinking (tagged : filter.inTaggedThinking = true)
    (uncut : Text.splitOnceChars thinkingEndTag filter.pending = none) :
    turn false filter =
      .wait (if filter.shows then [filter.pending.take (safePrefixLen filter.pending thinkingEndTag)] else [])
        { filter with pending := filter.pending.drop (safePrefixLen filter.pending thinkingEndTag) } := by
  rw [turn, if_pos tagged, uncut]
  simp [tagged]

theorem turn_example (untagged : filter.inTaggedThinking = false)
    (cut : Text.splitOnceChars thinkingStartTag filter.pending = some (front, back))
    {position : MarkdownPosition} (here : filter.openedAt front = position) (code : position.inCode = true) :
    turn finish filter = .again [front, thinkingStartTag] { filter with pending := back, position } := by
  subst here
  rw [turn, if_neg (by simp [untagged]), cut]
  exact if_pos code

theorem turn_opening (untagged : filter.inTaggedThinking = false)
    (cut : Text.splitOnceChars thinkingStartTag filter.pending = some (front, back))
    {position : MarkdownPosition} (here : filter.openedAt front = position) (text : position.inCode = false) :
    turn finish filter = .again (front :: if filter.shows then [thinkingStartTag] else [])
      { filter with pending := back, inTaggedThinking := true, position } := by
  subst here
  rw [turn, if_neg (by simp [untagged]), cut]
  exact if_neg (by rw [← openedAt, text]; exact Bool.false_ne_true)

theorem turn_answer (untagged : filter.inTaggedThinking = false)
    (uncut : Text.splitOnceChars thinkingStartTag filter.pending = none) :
    turn false filter = .wait [filter.pending.take (safePrefixLen filter.pending thinkingStartTag)] { filter with
      pending := filter.pending.drop (safePrefixLen filter.pending thinkingStartTag)
      position := filter.position.advance (filter.pending.take (safePrefixLen filter.pending thinkingStartTag)) } := by
  rw [turn, if_neg (by simp [untagged]), uncut]
  rfl

end Turns_

/-! ### Chunks -/

theorem flatten_shown (shows : Bool) (piece : List Char) :
    (if shows then [piece] else []).flatten = if shows then piece else [] := by
  cases shows <;> simp

theorem incremental_thinking {filter : ThinkingContentFilter} (tagged : filter.inTaggedThinking = true)
    (uncut : Text.splitOnceChars thinkingEndTag filter.pending = none) (more : List Char) :
    let split := safePrefixLen filter.pending thinkingEndTag
    let next := { filter with pending := filter.pending.drop split }
    (rounds false).shown { filter with pending := filter.pending ++ more } =
      (if filter.shows then filter.pending.take split else []) ++
        (rounds false).shown { next with pending := next.pending ++ more } ∧
    (rounds false).rest { filter with pending := filter.pending ++ more } =
      (rounds false).rest { next with pending := next.pending ++ more } := by
  intro split next
  obtain ⟨cuts, waits⟩ := cut_longer (by decide) uncut more
  cases later : Text.splitOnceChars thinkingEndTag (filter.pending.drop split ++ more) with
  | some found =>
    obtain ⟨inside, back⟩ := found
    have first : (rounds false).turn { filter with pending := filter.pending ++ more } = _ :=
      turn_closing (by exact tagged) (by exact cuts inside back later)
    have second : (rounds false).turn { next with pending := next.pending ++ more } = _ :=
      turn_closing (by exact tagged) (by exact later)
    rw [Filter.shown_again _ first, Filter.shown_again _ second, Filter.rest_again _ first, Filter.rest_again _ second,
      flatten_shown, flatten_shown]
    refine ⟨?_, rfl⟩
    have same : ∀ shows : Bool, ∀ rest : List Char,
        (if shows then filter.pending.take split ++ inside ++ thinkingEndTag else []) ++ rest =
          (if shows then filter.pending.take split else []) ++
            ((if shows then inside ++ thinkingEndTag else []) ++ rest) := by
      intro shows rest
      cases shows <;> simp
    exact same filter.shows _
  | none =>
    obtain ⟨uncut, shown, kept⟩ := waits later
    have first : (rounds false).turn { filter with pending := filter.pending ++ more } = _ :=
      turn_thinking (by exact tagged) (by exact uncut)
    have second : (rounds false).turn { next with pending := next.pending ++ more } = _ :=
      turn_thinking (by exact tagged) (by exact later)
    rw [Filter.shown_wait _ first, Filter.shown_wait _ second, Filter.rest_wait _ first, Filter.rest_wait _ second,
      flatten_shown, flatten_shown]
    dsimp only
    rw [shown, kept]
    refine ⟨?_, rfl⟩
    have same : ∀ shows : Bool, ∀ rest : List Char,
        (if shows then filter.pending.take split ++ rest else []) =
          (if shows then filter.pending.take split else []) ++ (if shows then rest else []) := by
      intro shows rest
      cases shows <;> simp
    exact same filter.shows _

theorem incremental_answer {filter : ThinkingContentFilter} (untagged : filter.inTaggedThinking = false)
    (uncut : Text.splitOnceChars thinkingStartTag filter.pending = none) (more : List Char) :
    let split := safePrefixLen filter.pending thinkingStartTag
    let next := { filter with
      pending := filter.pending.drop split, position := filter.position.advance (filter.pending.take split) }
    (rounds false).shown { filter with pending := filter.pending ++ more } =
      filter.pending.take split ++ (rounds false).shown { next with pending := next.pending ++ more } ∧
    (rounds false).rest { filter with pending := filter.pending ++ more } =
      (rounds false).rest { next with pending := next.pending ++ more } := by
  intro split next
  obtain ⟨cuts, waits⟩ := cut_longer (by decide) uncut more
  cases later : Text.splitOnceChars thinkingStartTag (filter.pending.drop split ++ more) with
  | some found =>
    obtain ⟨front, back⟩ := found
    have cuts := cuts front back later
    -- the position behind the tag is the same, in whatever steps it got there
    have position : openedAt { filter with pending := filter.pending ++ more } (filter.pending.take split ++ front) =
        openedAt { next with pending := next.pending ++ more } front := by
      simp only [openedAt, MarkdownPosition.advance_append]
      rfl
    cases code : (openedAt { next with pending := next.pending ++ more } front).inCode with
    | true =>
      have first : (rounds false).turn { filter with pending := filter.pending ++ more } = _ :=
        turn_example (by exact untagged) (by exact cuts) position code
      have second : (rounds false).turn { next with pending := next.pending ++ more } = _ :=
        turn_example (by exact untagged) (by exact later) rfl code
      rw [Filter.shown_again _ first, Filter.shown_again _ second, Filter.rest_again _ first,
        Filter.rest_again _ second]
      have same : ∀ rest : List Char, [filter.pending.take split ++ front, thinkingStartTag].flatten ++ rest =
          filter.pending.take split ++ ([front, thinkingStartTag].flatten ++ rest) := fun rest => by simp
      exact ⟨same _, rfl⟩
    | false =>
      have first : (rounds false).turn { filter with pending := filter.pending ++ more } = _ :=
        turn_opening (by exact untagged) (by exact cuts) position code
      have second : (rounds false).turn { next with pending := next.pending ++ more } = _ :=
        turn_opening (by exact untagged) (by exact later) rfl code
      rw [Filter.shown_again _ first, Filter.shown_again _ second, Filter.rest_again _ first,
        Filter.rest_again _ second, List.flatten_cons, List.flatten_cons]
      refine ⟨?_, rfl⟩
      rw [List.append_assoc, List.append_assoc, List.append_assoc]
      rfl
  | none =>
    obtain ⟨uncut, shown, kept⟩ := waits later
    have first : (rounds false).turn { filter with pending := filter.pending ++ more } = _ :=
      turn_answer (by exact untagged) (by exact uncut)
    have second : (rounds false).turn { next with pending := next.pending ++ more } = _ :=
      turn_answer (by exact untagged) (by exact later)
    rw [Filter.shown_wait _ first, Filter.shown_wait _ second, Filter.rest_wait _ first, Filter.rest_wait _ second]
    dsimp only
    rw [shown, kept, MarkdownPosition.advance_append]
    refine ⟨?_, rfl⟩
    rw [List.flatten_singleton, List.flatten_singleton]

theorem incremental : (rounds false).Incremental := by
  have both : ∀ filter more,
      (rounds false).shown ((rounds false).extend filter more) = ((rounds false).turn filter).pieces.flatten ++
        (rounds false).shown ((rounds false).extend ((rounds false).turn filter).next more) ∧
      (rounds false).rest ((rounds false).extend filter more) =
        (rounds false).rest ((rounds false).extend ((rounds false).turn filter).next more) := by
    intro filter more
    cases tagged : filter.inTaggedThinking with
    | true =>
      cases cut : Text.splitOnceChars thinkingEndTag filter.pending with
      | none =>
        have turned : (rounds false).turn filter = _ := turn_thinking tagged cut
        rw [turned, Turn.pieces, Turn.next, flatten_shown]
        exact incremental_thinking tagged cut more
      | some found =>
        obtain ⟨inside, back⟩ := found
        have cut_ : Text.splitOnceChars thinkingEndTag ((rounds false).extend filter more).pending =
            some (inside, back ++ more) := splitOnceChars_extend cut (by decide) more
        exact Filter.stays (turn_closing tagged cut) (turn_closing (by exact tagged) cut_)
    | false =>
      cases cut : Text.splitOnceChars thinkingStartTag filter.pending with
      | none =>
        have turned : (rounds false).turn filter = _ := turn_answer tagged cut
        rw [turned, Turn.pieces, Turn.next, List.flatten_singleton]
        exact incremental_answer tagged cut more
      | some found =>
        obtain ⟨front, back⟩ := found
        have cut_ : Text.splitOnceChars thinkingStartTag (filter.pending ++ more) = some (front, back ++ more) :=
          splitOnceChars_extend cut (by decide) more
        obtain ⟨position, here⟩ : ∃ position, filter.openedAt front = position := ⟨_, rfl⟩
        have here_ : openedAt { filter with pending := filter.pending ++ more } front = position := here
        cases code : position.inCode with
        | true =>
          exact Filter.stays (turn_example tagged cut here code) (turn_example (by exact tagged) cut_ here_ code)
        | false =>
          exact Filter.stays (turn_opening tagged cut here code) (turn_opening (by exact tagged) cut_ here_ code)
  exact ⟨fun filter more => (both filter more).1, fun filter more => (both filter more).2⟩

/-! ### The end of the text -/

section Finish

variable {filter : ThinkingContentFilter}

theorem turn_last_thinking (tagged : filter.inTaggedThinking = true)
    (uncut : Text.splitOnceChars thinkingEndTag filter.pending = none) :
    turn true filter = .wait (if filter.shows then [filter.pending] else [])
      { filter with pending := [], inTaggedThinking := false } := by
  rw [turn, if_pos tagged, uncut]
  simp

theorem turn_last_answer (untagged : filter.inTaggedThinking = false)
    (uncut : Text.splitOnceChars thinkingStartTag filter.pending = none) :
    turn true filter = .wait [filter.pending]
      { filter with pending := [], position := filter.position.advance filter.pending } := by
  rw [turn, if_neg (by simp [untagged]), uncut]
  simp

theorem turn_again {pieces : List (List Char)} {next : ThinkingContentFilter}
    (turned : turn false filter = .again pieces next) (finish : Bool) : turn finish filter = .again pieces next := by
  cases tagged : filter.inTaggedThinking with
  | true =>
    cases cut : Text.splitOnceChars thinkingEndTag filter.pending with
    | some found => exact (turn_closing tagged cut).trans ((turn_closing tagged cut).symm.trans turned)
    | none => cases turned.symm.trans (turn_thinking tagged cut)
  | false =>
    cases cut : Text.splitOnceChars thinkingStartTag filter.pending with
    | some found =>
      obtain ⟨position, here⟩ : ∃ position, filter.openedAt found.1 = position := ⟨_, rfl⟩
      cases code : position.inCode with
      | true => exact (turn_example tagged cut here code).trans ((turn_example tagged cut here code).symm.trans turned)
      | false => exact (turn_opening tagged cut here code).trans ((turn_opening tagged cut here code).symm.trans turned)
    | none => cases turned.symm.trans (turn_answer tagged cut)

theorem shown_finish (filter : ThinkingContentFilter) :
    (rounds false).shown filter ++ (rounds true).shown ((rounds false).rest filter) = (rounds true).shown filter := by
  have split : ∀ delimiter, delimiter ≠ [] → ∀ pending, Text.splitOnceChars delimiter pending = none →
      Text.splitOnceChars delimiter (pending.drop (safePrefixLen pending delimiter)) = none := by
    intro delimiter filled pending uncut
    have whole := splitOnceChars_clear _ (safePrefixLen_held filled uncut).1.clear
    rw [List.take_append_drop, uncut] at whole
    exact Option.map_eq_none_iff.1 whole.symm
  induction filter using (rounds false).drain_induction with
  | wait filter pieces next turned =>
    rw [Filter.shown_wait _ turned, Filter.rest_wait _ turned]
    cases tagged : filter.inTaggedThinking with
    | true =>
      cases cut : Text.splitOnceChars thinkingEndTag filter.pending with
      | some found => cases turned.symm.trans (turn_closing tagged cut)
      | none =>
        obtain ⟨rfl, rfl⟩ := Turn.wait.inj (turned.symm.trans (turn_thinking tagged cut))
        have here : (rounds true).turn filter = _ := turn_last_thinking tagged cut
        have later : (rounds true).turn { filter with
            pending := filter.pending.drop (safePrefixLen filter.pending thinkingEndTag) } = _ :=
          turn_last_thinking (by exact tagged) (by exact split _ (by decide) _ cut)
        rw [Filter.shown_wait _ here, Filter.shown_wait _ later, flatten_shown, flatten_shown, flatten_shown]
        show (if filter.shows then _ else []) ++ (if filter.shows then _ else []) = _
        cases filter.shows <;> simp
    | false =>
      cases cut : Text.splitOnceChars thinkingStartTag filter.pending with
      | some found =>
        cases code : (filter.openedAt found.1).inCode with
        | true => cases turned.symm.trans (turn_example tagged cut rfl code)
        | false => cases turned.symm.trans (turn_opening tagged cut rfl code)
      | none =>
        obtain ⟨rfl, rfl⟩ := Turn.wait.inj (turned.symm.trans (turn_answer tagged cut))
        have here : (rounds true).turn filter = _ := turn_last_answer tagged cut
        have later : (rounds true).turn { filter with
            pending := filter.pending.drop (safePrefixLen filter.pending thinkingStartTag)
            position := filter.position.advance (filter.pending.take (safePrefixLen filter.pending thinkingStartTag))
          } = _ := turn_last_answer (by exact tagged) (by exact split _ (by decide) _ cut)
        rw [Filter.shown_wait _ here, Filter.shown_wait _ later]
        simp
  | again filter pieces next turned ih =>
    have same : (rounds true).turn filter = .again pieces next := turn_again turned true
    rw [Filter.shown_again _ turned, Filter.rest_again _ turned, Filter.shown_again _ same, List.append_assoc, ih]

end Finish

end ThinkingContentFilter

/-! ### Reasoning in an answer -/

inductive Part where
  | answer (text : List Char)
  | reasoning (text : List Char)

namespace Part

def text : Part → List Char
  | answer text => text
  | reasoning text => text

def visible : Part → List Char
  | answer text => text
  | reasoning _ => []

end Part

/-- Reasoning begins with an opening tag outside code, and ends with the next closing tag or with the text. Behind a
closing tag that ended it, the Markdown starts anew. -/
def parts (position : MarkdownPosition) (text : List Char) : List Part :=
  match _opened : Text.splitOnceChars thinkingStartTag text with
  | none => [.answer text]
  | some (front, back) =>
    let position := (position.advance front).advance thinkingStartTag
    if position.inCode then .answer (front ++ thinkingStartTag) :: parts position back
    else match _closed : Text.splitOnceChars thinkingEndTag back with
      | none => [.answer front, .reasoning (thinkingStartTag ++ back)]
      | some (inside, rest) =>
        .answer front :: .reasoning (thinkingStartTag ++ (inside ++ thinkingEndTag)) ::
          parts (({} : MarkdownPosition).advance thinkingEndTag) rest
termination_by text.length
decreasing_by
  · exact Text.splitOnceChars_shorter (by decide) _opened
  · exact (Text.splitOnceChars_shorter (by decide) _closed).trans (Text.splitOnceChars_shorter (by decide) _opened)

section Parts

variable {position : MarkdownPosition} {text front back : List Char}

theorem parts_none (uncut : Text.splitOnceChars thinkingStartTag text = none) :
    parts position text = [.answer text] := by
  rw [parts]
  split
  · rfl
  · rename_i cut
    cases uncut.symm.trans cut

variable {behind : MarkdownPosition}

theorem parts_code (cut : Text.splitOnceChars thinkingStartTag text = some (front, back))
    (here : (position.advance front).advance thinkingStartTag = behind) (code : behind.inCode = true) :
    parts position text = .answer (front ++ thinkingStartTag) :: parts behind back := by
  subst here
  rw [parts]
  split
  · rename_i uncut
    cases uncut.symm.trans cut
  · rename_i cut_
    cases cut.symm.trans cut_
    exact if_pos code

theorem parts_open (cut : Text.splitOnceChars thinkingStartTag text = some (front, back))
    (here : (position.advance front).advance thinkingStartTag = behind) (outside : behind.inCode = false)
    (unclosed : Text.splitOnceChars thinkingEndTag back = none) :
    parts position text = [.answer front, .reasoning (thinkingStartTag ++ back)] := by
  subst here
  rw [parts]
  split
  · rename_i uncut
    cases uncut.symm.trans cut
  · rename_i cut_
    cases cut.symm.trans cut_
    dsimp only
    rw [if_neg (by rw [outside]; exact Bool.false_ne_true)]
    split
    · rfl
    · rename_i closed
      cases unclosed.symm.trans closed

theorem parts_closed {inside rest : List Char} (cut : Text.splitOnceChars thinkingStartTag text = some (front, back))
    (here : (position.advance front).advance thinkingStartTag = behind) (outside : behind.inCode = false)
    (closed : Text.splitOnceChars thinkingEndTag back = some (inside, rest)) :
    parts position text = .answer front :: .reasoning (thinkingStartTag ++ (inside ++ thinkingEndTag)) ::
      parts (({} : MarkdownPosition).advance thinkingEndTag) rest := by
  subst here
  rw [parts]
  split
  · rename_i uncut
    cases uncut.symm.trans cut
  · rename_i cut_
    cases cut.symm.trans cut_
    dsimp only
    rw [if_neg (by rw [outside]; exact Bool.false_ne_true)]
    split
    · rename_i unclosed
      cases unclosed.symm.trans closed
    · rename_i closed_
      cases closed.symm.trans closed_
      rfl

theorem parts_whole (position : MarkdownPosition) (text : List Char) :
    (parts position text).flatMap Part.text = text := by
  induction size : text.length using Nat.strong_induction_on generalizing position text with
  | _ size_ ih =>
    cases cut : Text.splitOnceChars thinkingStartTag text with
    | none =>
      rw [parts_none cut]
      simp [Part.text]
    | some found =>
      obtain ⟨front, back⟩ := found
      have whole := Text.splitOnceChars_eq cut
      have shorter := Text.splitOnceChars_shorter (by decide) cut
      cases code : ((position.advance front).advance thinkingStartTag).inCode with
      | true =>
        rw [parts_code cut rfl code, List.flatMap_cons, ih back.length (by omega) _ back rfl, whole]
        simp [Part.text]
      | false =>
        cases closed : Text.splitOnceChars thinkingEndTag back with
        | none =>
          rw [parts_open cut rfl code closed, whole]
          simp [Part.text]
        | some found =>
          obtain ⟨inside, rest⟩ := found
          have less := Text.splitOnceChars_shorter (by decide) closed
          rw [parts_closed cut rfl code closed, List.flatMap_cons, List.flatMap_cons,
            ih rest.length (by omega) _ rest rfl, whole, Text.splitOnceChars_eq closed]
          simp [Part.text]

end Parts

def visibleText (position : MarkdownPosition) (text : List Char) : List Char :=
  (parts position text).flatMap Part.visible

namespace ThinkingContentFilter

def answer (filter : ThinkingContentFilter) : List Char :=
  if filter.inTaggedThinking then
    match Text.splitOnceChars thinkingEndTag filter.pending with
    | none => []
    | some (_, rest) => visibleText (({} : MarkdownPosition).advance thinkingEndTag) rest
  else visibleText filter.position filter.pending

section Answer

variable {filter : ThinkingContentFilter} {front back : List Char} {position : MarkdownPosition}

theorem answer_unclosed (tagged : filter.inTaggedThinking = true)
    (uncut : Text.splitOnceChars thinkingEndTag filter.pending = none) : filter.answer = [] := by
  rw [answer, if_pos tagged, uncut]

theorem answer_closing (tagged : filter.inTaggedThinking = true)
    (cut : Text.splitOnceChars thinkingEndTag filter.pending = some (front, back)) :
    filter.answer = (filter.closed back).answer := by
  rw [answer, if_pos tagged, cut]
  rfl

theorem answer_plain (untagged : filter.inTaggedThinking = false)
    (uncut : Text.splitOnceChars thinkingStartTag filter.pending = none) : filter.answer = filter.pending := by
  rw [answer, if_neg (by simp [untagged]), visibleText, parts_none uncut]
  simp [Part.visible]

theorem answer_example (untagged : filter.inTaggedThinking = false)
    (cut : Text.splitOnceChars thinkingStartTag filter.pending = some (front, back))
    (here : filter.openedAt front = position) (code : position.inCode = true) :
    filter.answer = front ++ thinkingStartTag ++ answer { filter with pending := back, position } := by
  rw [answer, answer, if_neg (by simp [untagged]), if_neg (by simp [untagged]), visibleText, parts_code cut here code,
    List.flatMap_cons]
  rfl

theorem answer_opening (untagged : filter.inTaggedThinking = false)
    (cut : Text.splitOnceChars thinkingStartTag filter.pending = some (front, back))
    (here : filter.openedAt front = position) (outside : position.inCode = false) :
    filter.answer = front ++ answer { filter with pending := back, inTaggedThinking := true, position } := by
  rw [answer, answer, if_neg (by simp [untagged]), if_pos rfl, visibleText]
  dsimp only
  cases closed : Text.splitOnceChars thinkingEndTag back with
  | none =>
    rw [parts_open cut here outside closed]
    simp [Part.visible]
  | some found =>
    rw [parts_closed cut here outside closed, List.flatMap_cons, List.flatMap_cons]
    rfl

end Answer

theorem shown_last (filter : ThinkingContentFilter) :
    (rounds true).shown filter = if filter.shows then filter.pending else filter.answer := by
  induction filter using (rounds true).drain_induction with
  | wait filter pieces next turned =>
    rw [Filter.shown_wait _ turned]
    cases tagged : filter.inTaggedThinking with
    | true =>
      cases cut : Text.splitOnceChars thinkingEndTag filter.pending with
      | some found => cases turned.symm.trans (turn_closing tagged cut)
      | none =>
        obtain ⟨rfl, rfl⟩ := Turn.wait.inj (turned.symm.trans (turn_last_thinking tagged cut))
        rw [flatten_shown, answer_unclosed tagged cut]
    | false =>
      cases cut : Text.splitOnceChars thinkingStartTag filter.pending with
      | some found =>
        obtain ⟨position, here⟩ : ∃ position, filter.openedAt found.1 = position := ⟨_, rfl⟩
        cases code : position.inCode with
        | true => cases turned.symm.trans (turn_example tagged cut here code)
        | false => cases turned.symm.trans (turn_opening tagged cut here code)
      | none =>
        obtain ⟨rfl, rfl⟩ := Turn.wait.inj (turned.symm.trans (turn_last_answer tagged cut))
        rw [answer_plain tagged cut, List.flatten_singleton, ite_self]
  | again filter pieces next turned ih =>
    rw [Filter.shown_again _ turned, ih]
    cases tagged : filter.inTaggedThinking with
    | true =>
      cases cut : Text.splitOnceChars thinkingEndTag filter.pending with
      | none => cases turned.symm.trans (turn_last_thinking tagged cut)
      | some found =>
        obtain ⟨inside, back⟩ := found
        obtain ⟨rfl, rfl⟩ := Turn.again.inj (turned.symm.trans (turn_closing tagged cut))
        have same : (filter.closed back).shows = filter.shows := rfl
        have whole := Text.splitOnceChars_eq cut
        rw [flatten_shown, answer_closing tagged cut, same, whole]
        cases filter.shows <;> simp [closed]
    | false =>
      cases cut : Text.splitOnceChars thinkingStartTag filter.pending with
      | none => cases turned.symm.trans (turn_last_answer tagged cut)
      | some found =>
        obtain ⟨front, back⟩ := found
        have whole := Text.splitOnceChars_eq cut
        obtain ⟨position, here⟩ : ∃ position, filter.openedAt front = position := ⟨_, rfl⟩
        cases code : position.inCode with
        | true =>
          obtain ⟨rfl, rfl⟩ := Turn.again.inj (turned.symm.trans (turn_example tagged cut here code))
          have same : shows { filter with pending := back, position } = filter.shows := rfl
          rw [answer_example tagged cut here code, same, whole]
          cases filter.shows <;> simp
        | false =>
          obtain ⟨rfl, rfl⟩ := Turn.again.inj (turned.symm.trans (turn_opening tagged cut here code))
          have same : shows { filter with pending := back, inTaggedThinking := true, position } = filter.shows := rfl
          rw [answer_opening tagged cut here code, same, whole, List.flatten_cons, flatten_shown]
          cases filter.shows <;> simp

/-! ### Events -/

def others (events : List KiroEvent) : List KiroEvent :=
  events.filter fun event => match event with
    | .assistantResponse _ => false
    | .reasoning _ _ _ => false
    | _ => true

@[simp] theorem others_append (first second : List KiroEvent) :
    others (first ++ second) = others first ++ others second := List.filter_append _ _

theorem answerText_pushText (pieces : List (List Char)) : answerText (pushText pieces) = pieces.flatten := by
  induction pieces with
  | nil => rfl
  | cons piece rest ih =>
    by_cases empty : piece = []
    · subst empty
      exact ih
    · have here : pushText (piece :: rest) = .assistantResponse (String.ofList piece) :: pushText rest := by
        simp [pushText, empty]
      rw [here, List.flatten_cons, ← ih]
      show (String.ofList piece).toList ++ answerText (pushText rest) = _
      rw [String.toList_ofList]

theorem others_pushText (pieces : List (List Char)) : others (pushText pieces) = [] := by
  simp [others, pushText, List.filter_map, Function.comp_def]

theorem push_spec (filter : ThinkingContentFilter) (event : KiroEvent) :
    answerText (filter.push event).1 = (rounds false).shown ((rounds false).extend filter (answerText [event])) ∧
      (filter.push event).2 = (rounds false).rest ((rounds false).extend filter (answerText [event])) ∧
      others (filter.push event).1 = others [event] := by
  have text : ∀ filter, answerText (drain false filter).1 = (rounds false).shown filter :=
    fun _ => answerText_pushText _
  have none : ∀ filter, others (drain false filter).1 = [] := fun _ => others_pushText _
  have same : (rounds false).extend filter [] = filter := (rounds false).extend_nil filter
  cases event with
  | assistantResponse content =>
    rw [show answerText [.assistantResponse content] = content.toList from List.append_nil _]
    exact ⟨text _, rfl, none _⟩
  | reasoning content signature redactedContent =>
    rw [show answerText [.reasoning content signature redactedContent] = [] from rfl, same]
    unfold push
    dsimp only
    generalize (if (drain false filter).2.omitSummary then "" else content) = kept
    split
    · rw [answerText_append, others_append, text, none]
      exact ⟨List.append_nil _, rfl, rfl⟩
    · exact ⟨text _, rfl, none _⟩
  | _ =>
    rw [show answerText [_] = [] from rfl, same]
    simp only [push, answerText_append, others_append, text, none]
    exact ⟨List.append_nil _, rfl, rfl⟩

theorem pushAll_spec (events : List KiroEvent) (filter : ThinkingContentFilter) :
    (answerText (filter.pushAll events).1, (filter.pushAll events).2) =
        (rounds false).feed filter (events.map fun event => answerText [event]) ∧
      others (filter.pushAll events).1 = others events := by
  induction events generalizing filter with
  | nil => exact ⟨rfl, rfl⟩
  | cons event rest ih =>
    have here := push_spec filter event
    have later := ih (filter.push event).2
    rw [pushAll, List.map_cons, Filter.feed]
    dsimp only
    rw [answerText_append, others_append, here.1, here.2.2, later.2, ← here.2.1, ← later.1]
    refine ⟨rfl, ?_⟩
    rw [← others_append]
    rfl

theorem answerText_map (events : List KiroEvent) :
    (events.map fun event => answerText [event]).flatten = answerText events := by
  induction events with
  | nil => rfl
  | cons event rest ih =>
    rw [List.map_cons, List.flatten_cons, ih, ← answerText_append]
    rfl

theorem rest_short (filter : ThinkingContentFilter) :
    ((rounds false).rest filter).pending.length < thinkingEndTag.length := by
  induction filter using (rounds false).drain_induction with
  | again filter pieces next turned ih =>
    rw [Filter.rest_again _ turned]
    exact ih
  | wait filter pieces next turned =>
    rw [Filter.rest_wait _ turned]
    cases tagged : filter.inTaggedThinking with
    | true =>
      cases cut : Text.splitOnceChars thinkingEndTag filter.pending with
      | some found => cases turned.symm.trans (turn_closing tagged cut)
      | none =>
        obtain ⟨-, rfl⟩ := Turn.wait.inj (turned.symm.trans (turn_thinking tagged cut))
        exact (safePrefixLen_held (by decide) cut).2
    | false =>
      cases cut : Text.splitOnceChars thinkingStartTag filter.pending with
      | some found =>
        obtain ⟨position, here⟩ : ∃ position, filter.openedAt found.1 = position := ⟨_, rfl⟩
        cases code : position.inCode with
        | true => cases turned.symm.trans (turn_example tagged cut here code)
        | false => cases turned.symm.trans (turn_opening tagged cut here code)
      | none =>
        obtain ⟨-, rfl⟩ := Turn.wait.inj (turned.symm.trans (turn_answer tagged cut))
        exact (safePrefixLen_held (by decide) cut).2.trans (by decide)

/-- However an answer is cut and whatever comes between, the text that is shown is the answer's, as it is when
reasoning is shown, and else with the reasoning taken out; what is neither text nor reasoning is passed on in order; and
less than a closing tag is ever kept back. -/
theorem filtered_answer (enabled omitSummary : Bool) (events : List KiroEvent) :
    let filter : ThinkingContentFilter := { enabled, omitSummary }
    answerText (filter.filtered events) =
      (if enabled && !omitSummary then answerText events else visibleText {} (answerText events)) ∧
    (parts {} (answerText events)).flatMap Part.text = answerText events ∧
    others (filter.filtered events) = others events ∧
    ∀ (state : ThinkingContentFilter) event, (state.push event).2.pending.length < thinkingEndTag.length := by
  intro filter
  have pushed := pushAll_spec events filter
  have turned : (rounds false).turn filter = .wait [[]] filter := rfl
  have settled : (rounds false).Settled filter := ⟨Filter.shown_wait _ turned, Filter.rest_wait _ turned⟩
  have fed := incremental.feed_flatten (events.map fun event => answerText [event]) settled
  rw [answerText_map] at fed
  obtain ⟨text, state⟩ := Prod.mk.inj (pushed.1.trans fed)
  have last : filter.filtered events = (filter.pushAll events).1 ++ (drain true (filter.pushAll events).2).1 := rfl
  have finished : answerText (drain true (filter.pushAll events).2).1 = (rounds true).shown (filter.pushAll events).2 :=
    answerText_pushText _
  refine ⟨?_, parts_whole _ _, ?_, fun before event => ?_⟩
  · rw [last, answerText_append, finished, text, state, shown_finish, shown_last]
    rfl
  · have none : others (drain true (filter.pushAll events).2).1 = [] := others_pushText _
    rw [last, others_append, none, List.append_nil, pushed.2]
  · rw [(push_spec before event).2.1]
    exact rest_short _

/-- Inline code keeps its tag; the reasoning is taken out though its tag comes in two pieces around a report. -/
example : answerText (filtered { enabled := false }
    [.assistantResponse "`<thinking>` a <thin", .usage .null, .assistantResponse "king>b</thinking>c"]) =
    "`<thinking>` a c".toList := by decide

end ThinkingContentFilter

end KiroProxy.Http

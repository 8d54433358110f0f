import KiroProxy.Http.ParameterTypes
import KiroProxy.Translate.Responses

/-! Changing a JSON value at the place of a pointer. -/
namespace KiroProxy.Value

/-- `Map::get_mut`: a field is changed in its place. -/
def updateField (key : String) (change : Value → Option Value) :
    List (String × Value) → Option (List (String × Value))
  | [] => none
  | (name, inner) :: rest =>
    if name = key then (change inner).map fun inner => (name, inner) :: rest
    else (updateField key change rest).map ((name, inner) :: ·)

def updateChild (token : List Char) (change : Value → Option Value) : Value → Option Value
  | object fields => (updateField (String.ofList token) change fields).map object
  | array items => (parseIndex token).bind fun index => items[index]?.bind fun inner =>
      (change inner).map fun inner => array (items.set index inner)
  | _ => none

def updateAt : List (List Char) → (Value → Option Value) → Value → Option Value
  | [], change => change
  | token :: rest, change => updateChild token (updateAt rest change)

/-- What `Value::pointer_mut` finds is changed; there is no result where it finds nothing. -/
def pointerMut (value : Value) (pointer : String) (change : Value → Option Value) : Option Value :=
  match pointer.toList with
  | [] => change value
  | '/' :: path => updateAt ((path.splitOn '/').map pointerToken) change value
  | _ => none

/-- `value[key] = inner`, which panics on a value that is neither null nor an object. -/
def assign (value : Value) (key : String) (inner : Value) : Option Value :=
  match value with
  | null => some (object [(key, inner)])
  | object fields => some (object
      ((updateField key (fun _ => some inner) fields).getD (Responses.setField key inner fields)))
  | _ => none

def follow (path : List (List Char)) (value : Value) : Option Value := path.foldlM descend value

variable {token : List Char}

section Laws

variable {f g : Value → Option Value}

variable {key : String} {found inner value : Value}

theorem lookup_updateField {fields updated : List (String × Value)} (done : updateField key f fields = some updated)
    (other : String) :
    updated.lookup other = if other = key then (fields.lookup key).bind f else fields.lookup other := by
  induction fields generalizing updated with
  | nil => cases done
  | cons field rest ih =>
    obtain ⟨name, inner⟩ := field
    rw [updateField] at done
    split at done
    case isTrue here =>
      obtain ⟨changed, made, rfl⟩ := Option.map_eq_some_iff.1 done
      rw [lookup_cons_if, lookup_cons_if, lookup_cons_if, here, if_pos rfl]
      by_cases same : other = key
      · rw [if_pos same, if_pos same, Option.bind_some, made]
      · rw [if_neg same, if_neg same, if_neg same]
    case isFalse apart =>
      obtain ⟨later, made, rfl⟩ := Option.map_eq_some_iff.1 done
      rw [lookup_cons_if, lookup_cons_if, lookup_cons_if, ih made, if_neg (Ne.symm apart)]
      by_cases first : other = name
      · rw [if_pos first, if_pos first, if_neg (by rw [first]; exact apart)]
      · rw [if_neg first, if_neg first]

theorem updateField_bind (key : String) (fields : List (String × Value)) :
    (updateField key f fields).bind (updateField key g) = updateField key (fun inner => (f inner).bind g) fields := by
  induction fields with
  | nil => rfl
  | cons field rest ih =>
    obtain ⟨name, inner⟩ := field
    rw [updateField, updateField]
    split
    case isTrue here =>
      cases f inner with
      | none => rfl
      | some changed => rw [Option.map_some, Option.bind_some, updateField, if_pos here, Option.bind_some]
    case isFalse apart =>
      rw [← ih]
      cases updateField key f rest with
      | none => rfl
      | some later => rw [Option.map_some, Option.bind_some, updateField, if_neg apart, Option.bind_some]

theorem updateField_const (key : String) (inner : Value) (fields : List (String × Value)) :
    (updateField key (fun _ => some inner) fields).isSome = (fields.lookup key).isSome := by
  induction fields with
  | nil => rfl
  | cons field rest ih =>
    obtain ⟨name, old⟩ := field
    rw [updateField, lookup_cons_if]
    by_cases here : name = key
    · rw [if_pos here, if_pos here.symm]
      rfl
    · rw [if_neg here, if_neg (Ne.symm here), Option.isSome_map, ih]

theorem updateField_self {fields : List (String × Value)} (held : fields.lookup key = some inner) :
    updateField key (fun _ => some inner) fields = some fields := by
  induction fields with
  | nil => cases held
  | cons field rest ih =>
    obtain ⟨name, old⟩ := field
    rw [lookup_cons_if] at held
    rw [updateField]
    by_cases here : name = key
    · rw [if_pos here.symm] at held
      obtain rfl := Option.some.inj held
      rw [if_pos here, Option.map_some]
    · rw [if_neg (Ne.symm here)] at held
      rw [if_neg here, ih held, Option.map_some]

theorem updateChild_bind (token : List Char) (value : Value) :
    (updateChild token f value).bind (updateChild token g) = updateChild token (fun inner => (f inner).bind g) value := by
  cases value with
  | object fields =>
    simp only [updateChild]
    rw [← updateField_bind]
    cases updateField (String.ofList token) f fields <;> rfl
  | array items =>
    simp only [updateChild]
    cases place : parseIndex token with
    | none => rfl
    | some index =>
      cases held : items[index]? with
      | none => simp [held]
      | some inner =>
        have inside := (List.getElem?_eq_some_iff.1 held).1
        simp only [Option.bind_some, held]
        cases f inner with
        | none => rfl
        | some changed =>
          simp only [Option.map_some, Option.bind_some, updateChild, place, List.getElem?_set_self inside, List.set_set]
  | _ => rfl

theorem updateAt_bind (path : List (List Char)) (value : Value) :
    (updateAt path f value).bind (updateAt path g) = updateAt path (fun inner => (f inner).bind g) value := by
  induction path generalizing f g value with
  | nil => rfl
  | cons token rest ih =>
    simp only [updateAt]
    rw [updateChild_bind]
    congr 1
    funext inner
    exact ih inner

theorem updateAt_append (front back : List (List Char)) (f : Value → Option Value) :
    updateAt (front ++ back) f = updateAt front (updateAt back f) := by
  induction front with
  | nil => rfl
  | cons token rest ih => rw [List.cons_append, updateAt, ih, updateAt]

theorem updateField_none (key : String) (fields : List (String × Value)) : updateField key (fun _ => none) fields = none := by
  induction fields with
  | nil => rfl
  | cons field rest ih =>
    obtain ⟨name, inner⟩ := field
    rw [updateField, ih]
    split <;> rfl

theorem updateAt_none (path : List (List Char)) (value : Value) : updateAt path (fun _ => none) value = none := by
  induction path generalizing value with
  | nil => rfl
  | cons token rest ih =>
    simp only [updateAt, funext ih]
    cases value with
    | object fields => simp only [updateChild, updateField_none, Option.map_none]
    | array items => simp [updateChild]
    | _ => rfl

theorem updateChild_self (held : descend value token = some inner) :
    updateChild token (fun _ => some inner) value = some value := by
  cases value with
  | object fields =>
    simp only [descend] at held
    simp only [updateChild, updateField_self held, Option.map_some]
  | array items =>
    obtain ⟨index, place, here⟩ := Option.bind_eq_some_iff.1 held
    obtain ⟨inside, rfl⟩ := List.getElem?_eq_some_iff.1 here
    simp only [updateChild, place, here, Option.bind_some, Option.map_some, List.set_getElem_self]
  | _ => cases held

theorem updateChild_congr (held : descend value token = some inner) (same : f inner = g inner) :
    updateChild token f value = updateChild token g value := by
  have first : updateChild token f value = (updateChild token (fun _ => some inner) value).bind (updateChild token f) := by
    rw [updateChild_self held, Option.bind_some]
  have second : updateChild token g value = (updateChild token (fun _ => some inner) value).bind (updateChild token g) := by
    rw [updateChild_self held, Option.bind_some]
  rw [first, second, updateChild_bind, updateChild_bind]
  simp only [Option.bind_some, same]

theorem follow_cons {rest : List (List Char)} :
    follow (token :: rest) value = some found ↔ ∃ inner, descend value token = some inner ∧ follow rest inner = some found := by
  rw [follow, List.foldlM_cons]
  exact Option.bind_eq_some_iff

theorem updateAt_self {path : List (List Char)} (held : follow path value = some found) :
    updateAt path (fun _ => some found) value = some value := by
  induction path generalizing value with
  | nil =>
    cases held
    rfl
  | cons token rest ih =>
    obtain ⟨inner, child, further⟩ := follow_cons.1 held
    rw [updateAt, updateChild_congr child (g := fun _ => some inner) (ih further), updateChild_self child]

def replaceAt (path : List (List Char)) (inner value : Value) : Value := (updateAt path (fun _ => some inner) value).getD value

theorem updateAt_of_follow {path : List (List Char)} (held : follow path value = some found)
    (f : Value → Option Value) : updateAt path f value = (f found).map fun inner => replaceAt path inner value := by
  have whole : updateAt path f value = updateAt path (fun _ => f found) value := by
    have read (change : Value → Option Value) : updateAt path change value =
        updateAt path (fun _ => change found) value := by
      conv_lhs => rw [← Option.bind_some value (f := updateAt path change), ← updateAt_self held, updateAt_bind]
      rfl
    exact read f
  rw [whole]
  cases f found with
  | none => exact updateAt_none path value
  | some inner =>
    have there : (updateAt path (fun _ => some inner) value).isSome := by
      have back := updateAt_bind (f := fun _ => some inner) (g := fun _ => some found) path value
      simp only [Option.bind_some, updateAt_self held] at back
      cases made : updateAt path (fun _ => some inner) value with
      | none =>
        rw [made] at back
        cases back
      | some _ => rfl
    obtain ⟨updated, made⟩ := Option.isSome_iff_exists.1 there
    rw [Option.map_some, replaceAt, made, Option.getD_some]

theorem updateAt_const {path : List (List Char)} (held : follow path value = some found) (inner : Value) :
    updateAt path (fun _ => some inner) value = some (replaceAt path inner value) :=
  updateAt_of_follow held fun _ => some inner

theorem updateAt_replaceAt {path : List (List Char)} (held : follow path value = some found) (inner : Value)
    (f : Value → Option Value) :
    updateAt path f (replaceAt path inner value) = (f inner).map fun other => replaceAt path other value := by
  have twice := updateAt_bind (f := fun _ => some inner) (g := f) path value
  rw [updateAt_const held, Option.bind_some] at twice
  rw [twice]
  exact updateAt_of_follow held fun _ => f inner

theorem replaceAt_self {path : List (List Char)} (held : follow path value = some found) :
    replaceAt path found value = value := by
  rw [replaceAt, updateAt_self held, Option.getD_some]

theorem descend_name (name : parseIndex key.toList = none) (value : Value) :
    descend value key.toList = value.get key := by
  cases value with
  | object fields =>
    rw [descend, String.ofList_toList]
    rfl
  | array items =>
    rw [descend, name]
    rfl
  | _ => rfl

theorem get_updateChild (name : parseIndex key.toList = none) {updated : Value}
    (done : updateChild key.toList f value = some updated) (other : String) :
    updated.get other = if other = key then (value.get key).bind f else value.get other := by
  cases value with
  | object fields =>
    simp only [updateChild, String.ofList_toList] at done
    obtain ⟨changed, made, rfl⟩ := Option.map_eq_some_iff.1 done
    exact lookup_updateField made other
  | array items =>
    simp only [updateChild, name, Option.bind_none] at done
    cases done
  | _ => cases done

theorem get_assign {updated : Value} (done : assign value key inner = some updated) (other : String) :
    updated.get other = if other = key then some inner else value.get other := by
  cases value with
  | null =>
    obtain rfl := Option.some.inj done
    rw [get, lookup_cons_if]
    split
    · rfl
    · rfl
  | object fields =>
    obtain rfl := Option.some.inj done
    simp only [get]
    cases there : updateField key (fun _ => some inner) fields with
    | none => rw [Option.getD_none, Responses.lookup_setField]
    | some changed =>
      rw [Option.getD_some, lookup_updateField there]
      split
      case isTrue same =>
        have held := updateField_const key inner fields
        rw [there, Option.isSome_some] at held
        obtain ⟨old, found⟩ := Option.isSome_iff_exists.1 held.symm
        rw [found, Option.bind_some]
      case isFalse => rfl
  | _ => cases done

end Laws

/-! ### The text of a pointer -/

def indexToken (index : Nat) : List Char := (toString index).toList

/-- A path as `format!` puts it together. -/
def pointerText : List (List Char) → String
  | [] => ""
  | token :: rest => "/" ++ String.ofList token ++ pointerText rest

def PlainToken (token : List Char) : Prop := '/' ∉ token ∧ '~' ∉ token

section Render

theorem replaceChars_absent {first : Char} {more replacement text : List Char} (absent : first ∉ text) :
    replaceChars (first :: more) replacement text = text := by
  induction text with
  | nil => rfl
  | cons c rest ih =>
    rw [List.mem_cons, not_or] at absent
    have kept : (if (first :: more).isPrefixOf (c :: rest) then (first :: more).length else 0) = 0 := by
      simp [List.isPrefixOf, absent.1]
    unfold replaceChars at ih ⊢
    rw [Scan.scan_kept kept, List.flatten_cons, ih absent.2]
    rfl

theorem pointerToken_plain (plain : PlainToken token) : pointerToken token = token := by
  rw [pointerToken, replaceChars_absent plain.2, replaceChars_absent plain.2]

theorem pointerText_append (front back : List (List Char)) :
    pointerText (front ++ back) = pointerText front ++ pointerText back := by
  induction front with
  | nil => rw [List.nil_append, pointerText, String.empty_append]
  | cons token rest ih => rw [List.cons_append, pointerText, ih, pointerText, String.append_assoc, String.append_assoc, String.append_assoc]

theorem pointerText_chars (token : List Char) (rest : List (List Char)) :
    (pointerText (token :: rest)).toList = '/' :: (token ++ (pointerText rest).toList) := by
  have slash : "/".toList = ['/'] := rfl
  rw [pointerText, String.toList_append, String.toList_append, slash, String.toList_ofList, List.append_assoc,
    List.singleton_append]

theorem pointerText_splits {rest : List (List Char)} (plain : ∀ t ∈ token :: rest, '/' ∉ t) :
    (token ++ (pointerText rest).toList).splitOn '/' = token :: rest := by
  induction rest generalizing token with
  | nil =>
    rw [pointerText, String.toList_empty, List.append_nil]
    exact List.splitOn_eq_singleton (plain token List.mem_cons_self)
  | cons next more ih =>
    obtain ⟨own, later⟩ := List.forall_mem_cons.1 plain
    rw [pointerText_chars, List.splitOn_append_cons_self_of_not_mem own, ih later]

variable {path : List (List Char)}

theorem pointerText_inj {other : List (List Char)} (plain : ∀ token ∈ path, PlainToken token)
    (other_plain : ∀ token ∈ other, PlainToken token) (same : pointerText path = pointerText other) : path = other := by
  have chars := congrArg String.toList same
  cases path with
  | nil =>
    cases other with
    | nil => rfl
    | cons token rest =>
      rw [pointerText_chars] at chars
      cases chars
  | cons token rest =>
    cases other with
    | nil =>
      rw [pointerText_chars] at chars
      cases chars
    | cons second more =>
      rw [pointerText_chars, pointerText_chars, List.cons.injEq] at chars
      rw [← pointerText_splits fun t member => (plain t member).1, chars.2,
        pointerText_splits fun t member => (other_plain t member).1]

theorem tokens_plain (plain : ∀ token ∈ path, PlainToken token) : path.map pointerToken = path := by
  rw [List.map_congr_left fun token member => pointerToken_plain (plain token member), List.map_id']

theorem pointerMut_text (plain : ∀ token ∈ path, PlainToken token) (value : Value) (change : Value → Option Value) :
    pointerMut value (pointerText path) change = updateAt path change value := by
  cases path with
  | nil => rfl
  | cons token rest =>
    simp only [pointerMut, pointerText_chars]
    rw [pointerText_splits fun t member => (plain t member).1, tokens_plain plain]

theorem resolve_text (plain : ∀ token ∈ path, PlainToken token) (value : Value) :
    resolve value (pointerText path) = follow path value := by
  cases path with
  | nil => rfl
  | cons token rest =>
    simp only [resolve, pointerText_chars]
    rw [pointerText_splits fun t member => (plain t member).1, tokens_plain plain, follow]

theorem indexToken_plain (index : Nat) : PlainToken (indexToken index) := by
  have digits : ∀ c ∈ indexToken index, c.isDigit = true := by
    intro c member
    rw [indexToken, Nat.toString_eq_ofList_toDigits, String.toList_ofList] at member
    exact Nat.isDigit_of_mem_toDigits (by decide) (by decide) member
  constructor
  · intro member
    exact absurd (digits _ member) (by decide)
  · intro member
    exact absurd (digits _ member) (by decide)

theorem digits_lead {index : Nat} (positive : index ≠ 0) : (Nat.toDigits 10 index).head? ≠ some '0' := by
  induction index using Nat.base_induction 10 (by decide) with
  | single digit small =>
    rw [Nat.toDigits_of_lt_base small, List.head?_cons]
    have digits : ∀ n < 10, n ≠ 0 → some (Nat.digitChar n) ≠ some '0' := by decide
    exact digits digit small positive
  | digit front last small positive_front ih =>
    rw [← Nat.toDigits_append_toDigits (by decide) positive_front small, List.head?_append_of_ne_nil _ Nat.toDigits_ne_nil]
    exact ih (Nat.ne_of_gt positive_front)

theorem parseIndex_indexToken (index : Nat) : parseIndex (indexToken index) = some index := by
  have chars : indexToken index = Nat.toDigits 10 index := by
    rw [indexToken, Nat.toString_eq_ofList_toDigits, String.toList_ofList]
  have unpadded : ¬ ((Nat.toDigits 10 index).head? = some '0' ∧ (Nat.toDigits 10 index).length ≠ 1) := by
    rintro ⟨zero, long⟩
    by_cases none : index = 0
    · exact long (by rw [none]; rfl)
    · exact digits_lead none zero
  have digits : (Nat.toDigits 10 index).all Char.isDigit = true :=
    List.all_eq_true.2 fun c member => Nat.isDigit_of_mem_toDigits (by decide) (by decide) member
  rw [parseIndex, chars, if_neg unpadded, if_pos ⟨Nat.toDigits_ne_nil, digits⟩]
  exact congrArg some Nat.ofDigitChars_ten_toDigits

theorem indexToken_inj {first second : Nat} (same : indexToken first = indexToken second) : first = second := by
  have parsed := congrArg parseIndex same
  rwa [parseIndex_indexToken, parseIndex_indexToken, Option.some.injEq] at parsed

end Render

end KiroProxy.Value

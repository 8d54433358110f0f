import KiroProxy.Http.ParameterTypes

/-! What a schema accepts for a parameter, and that the type hints allow for all of it. -/
namespace KiroProxy.ParameterTypes

open Budget

/-! ### What a schema accepts -/

/-- JSON Schema compares numbers by value: 1 and 1.0 are equal. The value of a double is not known here, so it may
equal any number. -/
def equalNumbers : Number → Number → Bool
  | .float _, _ => true
  | _, .float _ => true
  | a, b => a == b

mutual

def equal : Value → Value → Bool
  | .null, .null => true
  | .bool a, .bool b => a == b
  | .number a, .number b => equalNumbers a b
  | .string a, .string b => a == b
  | .array xs, .array ys => equalItems xs ys
  | .object xs, .object ys => equalFields xs ys
  | _, _ => false

def equalItems : List Value → List Value → Bool
  | [], [] => true
  | x :: xs, y :: ys => equal x y && equalItems xs ys
  | _, _ => false

def equalFields : List (String × Value) → List (String × Value) → Bool
  | [], [] => true
  | (k, x) :: xs, (l, y) :: ys => k == l && equal x y && equalFields xs ys
  | _, _ => false

end

theorem equal_isString {a b : Value} (same : equal a b = true) : a.isString = b.isString := by
  cases a <;> cases b <;> first | rfl | (simp [equal] at same)

/-- A double may be a whole number; a name that JSON Schema does not know says nothing. -/
def hasKind (v : Value) (name : String) : Bool :=
  if name = "string" then v.isString
  else if name = "null" then v.isNull
  else if name = "boolean" then v.asBool.isSome
  else if name = "array" then v.asArray.isSome
  else if name = "object" then v.isObject
  else if name = "number" ∨ name = "integer" then match v with
    | .number _ => true
    | _ => false
  else true

/-- What an acceptance by this schema takes, the acceptances by its subschemas given. The keywords are those of JSON
Schema that a type may come from; a reference is followed as its pointer stands. -/
structure Meets (root : Value) (accepts : Value → Value → Prop) (schema v : Value) : Prop where
  allowed : schema ≠ .bool false
  type : ∀ kind, schema.get "type" = some kind → ∃ k ∈ kinds kind, ∀ name, k.asStr = some name → hasKind v name = true
  enum : ∀ items, schema.get "enum" = some (.array items) → ∃ item ∈ items, equal item v = true
  const : ∀ value, schema.get "const" = some value → equal value v = true
  ref : ∀ reference target, schema.get "$ref" = some reference → referred root reference = some target →
    accepts target v
  allOf : ∀ items, schema.get "allOf" = some (.array items) → ∀ item ∈ items, accepts item v
  anyOf : ∀ items, schema.get "anyOf" = some (.array items) → ∃ item ∈ items, accepts item v
  oneOf : ∀ items, schema.get "oneOf" = some (.array items) → ∃ front item back, items = front ++ item :: back ∧
    accepts item v ∧ ∀ other ∈ front ++ back, ¬ accepts other v
  properties : ∀ name u inner, v.get name = some u → (schema.get "properties").bind (·.get name) = some inner →
    accepts inner u
  additionalProperties : ∀ name u inner, v.get name = some u → (schema.get "properties").bind (·.get name) = none →
    schema.get "additionalProperties" = some inner → accepts inner u

/-- A schema accepts a value under some reading of all subschemas that agrees with the keywords. References may lead
round in circles, so no reading is singled out. -/
def Accepts (root schema v : Value) : Prop :=
  ∃ accepts : Value → Value → Prop, (∀ schema v, accepts schema v → Meets root accepts schema v) ∧ accepts schema v

theorem Accepts.meets {root schema v : Value} (accepted : Accepts root schema v) :
    ∃ accepts : Value → Value → Prop, (∀ inner u, accepts inner u → Accepts root inner u) ∧
      Meets root accepts schema v := by
  obtain ⟨accepts, agrees, here⟩ := accepted
  exact ⟨accepts, fun inner u there => ⟨accepts, agrees, there⟩, agrees schema v here⟩

def Offered (property : Option String) (v u : Value) : Prop :=
  match property with
  | some name => v.get name = some u
  | none => v = u

def AcceptedFor (root schema : Value) (property : Option String) (u : Value) : Prop :=
  ∃ v, Offered property v u ∧ Accepts root schema v

inductive Declares (root : Value) : Option String → Value → Prop
  | never (property : Option String) : Declares root property (.bool false)
  | keyword {schema : Value} {name : String} : name ∈ ["type", "enum", "const"] → (schema.get name).isSome →
      Declares root none schema
  | property {schema inner : Value} {name : String} : propertySchema schema name = some inner →
      Declares root none inner → Declares root (some name) schema
  | reference {schema reference target : Value} {property : Option String} : schema.get "$ref" = some reference →
      referred root reference = some target → Declares root property target → Declares root property schema
  | branch {schema item : Value} {property : Option String} {name : String} {items : List Value} :
      name ∈ ["allOf", "anyOf", "oneOf"] → schema.get name = some (.array items) → item ∈ items →
      Declares root property item → Declares root property schema

def StartDeclares (root schema : Value) : Option String → Prop
  | some name => ∃ inner, propertySchema schema name = some inner ∧ Declares root none inner
  | none => ∃ name ∈ ["type", "enum", "const"], (schema.get name).isSome

/-! ### The hints allow for what is accepted -/

def XmlParameterTypes.admits (hint : XmlParameterTypes) (u : Value) : Bool :=
  if u.isString then hint.string else hint.other

namespace XmlParameterTypes

variable {a b : XmlParameterTypes} {u : Value}

@[simp] theorem any_admits : any.admits u = true := by simp [admits, any]

@[simp] theorem none_admits : none.admits u = false := by simp [admits, none]

@[simp] theorem intersect_admits : (a.intersect b).admits u = (a.admits u && b.admits u) := by
  unfold admits
  split <;> rfl

@[simp] theorem union_admits : (a.union b).admits u = (a.admits u || b.admits u) := by
  unfold admits
  split <;> rfl

theorem value_admits {item : Value} (same : equal item u = true) : (value item).admits u = true := by
  unfold admits value
  rw [equal_isString same]
  cases u.isString <;> rfl

@[simp] theorem any_specified : any.specified = false := rfl

@[simp] theorem none_specified : none.specified = true := rfl

@[simp] theorem value_specified {item : Value} : (value item).specified = true := rfl

@[simp] theorem intersect_specified : (a.intersect b).specified = (a.specified || b.specified) := rfl

@[simp] theorem union_specified : (a.union b).specified = (a.specified || b.specified) := rfl

end XmlParameterTypes

theorem hasKind_other {name : String} {u : Value} (other : name ∈ otherKinds) (kept : hasKind u name = true) :
    u.isString = false := by
  cases u with
  | string text =>
    simp only [otherKinds, List.mem_cons, List.not_mem_nil, or_false] at other
    rcases other with rfl | rfl | rfl | rfl | rfl | rfl <;>
      simp [hasKind, Value.isNull, Value.asBool, Value.asArray, Value.isObject] at kept
  | _ => rfl

theorem declareKind_admits {declared next : XmlParameterTypes} {kind u : Value}
    (read : declareKind declared kind = some next)
    (accepted : declared.admits u = true ∨ ∀ name, kind.asStr = some name → hasKind u name = true) :
    next.admits u = true := by
  obtain ⟨name, named, read⟩ := Option.bind_eq_some_iff.1 read
  split at read
  · rename_i text
    cases read
    by_cases string : u.isString = true
    · simp [XmlParameterTypes.admits, string]
    · rcases accepted with before | here
      · simpa [XmlParameterTypes.admits, string] using before
      · have kept := here name named
        rw [text] at kept
        exact absurd kept string
  · split at read
    · rename_i text other
      cases read
      by_cases string : u.isString = true
      · rcases accepted with before | here
        · simpa [XmlParameterTypes.admits, string] using before
        · rw [hasKind_other other (here name named)] at string
          cases string
      · simp [XmlParameterTypes.admits, string]
    · cases read

theorem declareKind_specified {declared next : XmlParameterTypes} {kind : Value}
    (read : declareKind declared kind = some next) : next.specified = declared.specified := by
  obtain ⟨name, named, read⟩ := Option.bind_eq_some_iff.1 read
  split at read
  · cases read
    rfl
  · split at read
    · cases read
      rfl
    · cases read

theorem declareKinds_admits {declared last : XmlParameterTypes} {kinds : List Value} {u : Value}
    (read : kinds.foldlM declareKind declared = some last)
    (accepted : declared.admits u = true ∨ ∃ k ∈ kinds, ∀ name, k.asStr = some name → hasKind u name = true) :
    last.admits u = true := by
  induction kinds generalizing declared with
  | nil =>
    cases read
    simpa using accepted
  | cons kind rest ih =>
    rw [List.foldlM_cons] at read
    obtain ⟨next, here, later⟩ := Option.bind_eq_some_iff.1 read
    refine ih later ?_
    rcases accepted with before | ⟨k, member, kept⟩
    · exact .inl (declareKind_admits here (.inl before))
    · rcases List.mem_cons.1 member with rfl | member
      · exact .inl (declareKind_admits here (.inr kept))
      · exact .inr ⟨k, member, kept⟩

theorem declareKinds_specified {declared last : XmlParameterTypes} {kinds : List Value}
    (read : kinds.foldlM declareKind declared = some last) : last.specified = declared.specified := by
  induction kinds generalizing declared with
  | nil =>
    cases read
    rfl
  | cons kind rest ih =>
    rw [List.foldlM_cons] at read
    obtain ⟨next, here, later⟩ := Option.bind_eq_some_iff.1 read
    exact (ih later).trans (declareKind_specified here)

theorem enumerated_admits {items : List Value} (start : XmlParameterTypes) {u : Value}
    (accepted : start.admits u = true ∨ ∃ item ∈ items, equal item u = true) :
    (items.foldl (fun enumerated item => enumerated.union (.value item)) start).admits u = true := by
  induction items generalizing start with
  | nil => simpa using accepted
  | cons item rest ih =>
    refine ih _ ?_
    rcases accepted with before | ⟨i, member, same⟩
    · exact .inl (by simp [before])
    · rcases List.mem_cons.1 member with rfl | member
      · exact .inl (by simp [XmlParameterTypes.value_admits same])
      · exact .inr ⟨i, member, same⟩

theorem enumerated_specified (items : List Value) {start : XmlParameterTypes} (specified : start.specified = true) :
    (items.foldl (fun enumerated item => enumerated.union (.value item)) start).specified = true := by
  induction items generalizing start with
  | nil => exact specified
  | cons item rest ih => exact ih (by simp)

theorem kindTypes_told (root : Value) {schema : Value} {hint : XmlParameterTypes}
    (read : kindTypes schema = some hint) :
    (∀ accepts u, Meets root accepts schema u → hint.admits u = true) ∧
      hint.specified = (schema.get "type").isSome := by
  unfold kindTypes at read
  split at read
  · rename_i kind here
    obtain ⟨declared, fold, rfl⟩ := Option.map_eq_some_iff.1 read
    rw [here]
    refine ⟨fun accepts u meets => ?_, by simp [declareKinds_specified fold]⟩
    simp [declareKinds_admits fold (.inr (meets.type kind here))]
  · rename_i absent
    cases read
    simp [absent]

theorem enumTypes_told (root : Value) {schema : Value} {hint next : XmlParameterTypes}
    (read : enumTypes schema hint = some next) :
    (∀ accepts u, Meets root accepts schema u → hint.admits u = true → next.admits u = true) ∧
      next.specified = (hint.specified || (schema.get "enum").isSome) := by
  unfold enumTypes at read
  split at read
  · rename_i values here
    obtain ⟨items, array, rfl⟩ := Option.map_eq_some_iff.1 read
    have listed : schema.get "enum" = some (.array items) := by
      cases values with
      | array xs =>
        cases array
        exact here
      | _ => cases array
    rw [here]
    refine ⟨fun accepts u meets before => ?_, ?_⟩
    · simp [before, enumerated_admits .none (.inr (meets.enum items listed))]
    · have declared := enumerated_specified items XmlParameterTypes.none_specified
      simp [declared]
  · rename_i absent
    cases read
    simp [absent]

theorem constTypes_told (root schema : Value) (hint : XmlParameterTypes) :
    (∀ accepts u, Meets root accepts schema u → hint.admits u = true → (constTypes schema hint).admits u = true) ∧
      (constTypes schema hint).specified = (hint.specified || (schema.get "const").isSome) := by
  unfold constTypes
  split
  · rename_i value here
    rw [here]
    refine ⟨fun accepts u meets before => ?_, by simp⟩
    simp [before, XmlParameterTypes.value_admits (meets.const value here)]
  · rename_i absent
    simp [absent]

theorem valueTypes_told (root : Value) {schema : Value} {hint : XmlParameterTypes}
    (read : valueTypes schema = some hint) :
    (∀ accepts u, Meets root accepts schema u → hint.admits u = true) ∧
      (hint.specified = true ↔ ∃ name ∈ ["type", "enum", "const"], (schema.get name).isSome) := by
  obtain ⟨typed, declared, read⟩ := Option.bind_eq_some_iff.1 read
  obtain ⟨narrowed, enumerated, read⟩ := Option.bind_eq_some_iff.1 read
  cases read
  have first := kindTypes_told root declared
  have second := enumTypes_told root enumerated
  have third := constTypes_told root schema narrowed
  refine ⟨fun accepts u meets => third.1 accepts u meets (second.1 accepts u meets (first.1 accepts u meets)), ?_⟩
  rw [third.2, second.2, first.2]
  simp [or_assoc]

/-! ### The calls -/

section Calls

variable {root : Value} {property : Option String}

/-- The hint allows for all that the schema accepts, and says whether anything is declared. -/
structure Told (root : Value) (property : Option String) (schema : Value) (hint : XmlParameterTypes) : Prop where
  admits : ∀ u, AcceptedFor root schema property u → hint.admits u = true
  specified : hint.specified = true ↔ Declares root property schema

variable {typesOf : Value → Search XmlParameterTypes}

theorem branches_specified
    (each : ∀ item branch, Search.Yields (typesOf item) branch → Told root property item branch)
    {combine : XmlParameterTypes → XmlParameterTypes → XmlParameterTypes}
    (joins : ∀ a b, (combine a b).specified = (a.specified || b.specified)) {items : List Value}
    {start last : XmlParameterTypes}
    (yields : Search.Yields (items.foldlM (fun combined item => do
      let branch ← typesOf item
      pure (combine combined branch)) start) last) :
    last.specified = true ↔ start.specified = true ∨ ∃ item ∈ items, Declares root property item := by
  induction items generalizing start with
  | nil =>
    obtain rfl := Search.yields_pure yields
    simp
  | cons item rest ih =>
    obtain ⟨next, here, later⟩ := Search.yields_foldlM yields
    obtain ⟨branch, called, same⟩ := Search.yields_bind here
    obtain rfl := Search.yields_pure same
    rw [ih later, joins, Bool.or_eq_true, (each item branch called).specified]
    simp [or_assoc]

theorem all_admit
    (each : ∀ item branch, Search.Yields (typesOf item) branch → Told root property item branch)
    {items : List Value} {start last : XmlParameterTypes} {u : Value}
    (yields : Search.Yields (items.foldlM (fun combined item => do
      let branch ← typesOf item
      pure (combined.intersect branch)) start) last)
    (accepted : start.admits u = true ∧ ∀ item ∈ items, AcceptedFor root item property u) :
    last.admits u = true := by
  induction items generalizing start with
  | nil =>
    obtain rfl := Search.yields_pure yields
    exact accepted.1
  | cons item rest ih =>
    obtain ⟨next, here, later⟩ := Search.yields_foldlM yields
    obtain ⟨branch, called, same⟩ := Search.yields_bind here
    obtain rfl := Search.yields_pure same
    refine ih later ⟨?_, fun item member => accepted.2 item (List.mem_cons_of_mem _ member)⟩
    have there := (each item branch called).admits u (accepted.2 item List.mem_cons_self)
    simp [accepted.1, there]

theorem some_admits
    (each : ∀ item branch, Search.Yields (typesOf item) branch → Told root property item branch)
    {items : List Value} {start last : XmlParameterTypes} {u : Value}
    (yields : Search.Yields (items.foldlM (fun combined item => do
      let branch ← typesOf item
      pure (combined.union branch)) start) last)
    (accepted : start.admits u = true ∨ ∃ item ∈ items, AcceptedFor root item property u) :
    last.admits u = true := by
  induction items generalizing start with
  | nil =>
    obtain rfl := Search.yields_pure yields
    simpa using accepted
  | cons item rest ih =>
    obtain ⟨next, here, later⟩ := Search.yields_foldlM yields
    obtain ⟨branch, called, same⟩ := Search.yields_bind here
    obtain rfl := Search.yields_pure same
    refine ih later ?_
    rcases accepted with before | ⟨other, member, fits⟩
    · exact .inl (by simp [before])
    · rcases List.mem_cons.1 member with rfl | member
      · exact .inl (by simp [(each other branch called).admits u fits])
      · exact .inr ⟨other, member, fits⟩

theorem branchTypes_told
    (each : ∀ item branch, Search.Yields (typesOf item) branch → Told root property item branch) {schema : Value}
    {hint next : XmlParameterTypes} {keyword : String} (known : keyword ∈ ["allOf", "anyOf", "oneOf"])
    (yields : Search.Yields (branchTypes typesOf schema hint keyword) next) :
    (∀ v u, Offered property v u → Accepts root schema v → hint.admits u = true → next.admits u = true) ∧
      (next.specified = true ↔ hint.specified = true ∨
        ∃ items, schema.get keyword = some (.array items) ∧ ∃ item ∈ items, Declares root property item) := by
  unfold branchTypes at yields
  split at yields
  · rename_i absent
    obtain rfl := Search.yields_pure yields
    simp [absent]
  · rename_i branches here
    obtain ⟨items, array, yields⟩ := Search.yields_bind yields
    have array := Search.yields_ofOption array
    obtain ⟨combined, fold, same⟩ := Search.yields_bind yields
    obtain rfl := Search.yields_pure same
    obtain rfl : branches = .array items := by
      cases branches with
      | array xs =>
        cases array
        rfl
      | _ => cases array
    by_cases all : keyword = "allOf"
    · subst all
      simp only [if_true] at fold
      refine ⟨fun v u offered accepted before => ?_, ?_⟩
      · obtain ⟨accepts, wider, meets⟩ := accepted.meets
        have each_ : ∀ item ∈ items, AcceptedFor root item property u := fun item member =>
          ⟨v, offered, wider item v (meets.allOf items here item member)⟩
        simp [before, all_admit each fold ⟨XmlParameterTypes.any_admits, each_⟩]
      · have declared := branches_specified each (fun _ _ => XmlParameterTypes.intersect_specified) fold
        simp [declared, here]
    · simp only [if_neg all] at fold
      refine ⟨fun v u offered accepted before => ?_, ?_⟩
      · obtain ⟨accepts, wider, meets⟩ := accepted.meets
        have one : ∃ item ∈ items, AcceptedFor root item property u := by
          simp only [List.mem_cons, List.not_mem_nil, or_false] at known
          rcases known with rfl | rfl | rfl
          · exact absurd rfl all
          · obtain ⟨item, member, there⟩ := meets.anyOf items here
            exact ⟨item, member, v, offered, wider item v there⟩
          · obtain ⟨front, item, back, rfl, there, -⟩ := meets.oneOf items here
            exact ⟨item, by simp, v, offered, wider item v there⟩
        simp [before, some_admits each fold (.inr one)]
      · have declared := branches_specified each (fun _ _ => XmlParameterTypes.union_specified) fold
        simp [declared, here]

end Calls

section Bodies

variable {root : Value} {typesOf : Value → Option String → Search XmlParameterTypes}

theorem startTypes_told
    (each : ∀ inner property hint, Search.Yields (typesOf inner property) hint → Told root property inner hint)
    {schema : Value} {property : Option String} {hint : XmlParameterTypes}
    (yields : Search.Yields (startTypes typesOf schema property) hint) :
    (∀ v u, Offered property v u → Accepts root schema v → hint.admits u = true) ∧
      (hint.specified = true ↔ StartDeclares root schema property) := by
  cases property with
  | none =>
    have told := valueTypes_told root (Search.yields_ofOption yields)
    refine ⟨fun v u offered accepted => ?_, told.2⟩
    obtain rfl : v = u := offered
    obtain ⟨accepts, -, meets⟩ := accepted.meets
    exact told.1 accepts v meets
  | some name =>
    simp only [startTypes] at yields
    split at yields
    · rename_i inner here
      have told := each inner none hint yields
      refine ⟨fun v u offered accepted => told.admits u ⟨u, rfl, ?_⟩, ?_⟩
      · obtain ⟨accepts, wider, meets⟩ := accepted.meets
        have field : v.get name = some u := offered
        rcases Option.or_eq_some_iff.1 here with found | ⟨missing, extra⟩
        · exact wider inner u (meets.properties name u inner field found)
        · exact wider inner u (meets.additionalProperties name u inner field missing extra)
      · rw [told.specified]
        simp [StartDeclares, here]
    · rename_i absent
      obtain rfl := Search.yields_pure yields
      simp [StartDeclares, absent]

theorem referenceTypes_told
    (each : ∀ inner property hint, Search.Yields (typesOf inner property) hint → Told root property inner hint)
    {schema : Value} {property : Option String} {hint next : XmlParameterTypes}
    (yields : Search.Yields (referenceTypes typesOf root schema property hint) next) :
    (∀ v u, Offered property v u → Accepts root schema v → hint.admits u = true → next.admits u = true) ∧
      (next.specified = true ↔ hint.specified = true ∨ ∃ reference target, schema.get "$ref" = some reference ∧
        referred root reference = some target ∧ Declares root property target) := by
  unfold referenceTypes at yields
  split at yields
  · rename_i reference here
    obtain ⟨target, found, yields⟩ := Search.yields_bind yields
    have found := Search.yields_ofOption found
    obtain ⟨there, called, same⟩ := Search.yields_bind yields
    obtain rfl := Search.yields_pure same
    have told := each target property there called
    refine ⟨fun v u offered accepted before => ?_, ?_⟩
    · obtain ⟨accepts, wider, meets⟩ := accepted.meets
      simp [before, told.admits u ⟨v, offered, wider target v (meets.ref reference target here found)⟩]
    · simp [told.specified, here, found]
  · rename_i absent
    obtain rfl := Search.yields_pure yields
    simp [absent]

theorem declares_bool {property : Option String} {allowed : Bool} :
    Declares root property (.bool allowed) ↔ allowed = false := by
  refine ⟨fun declared => ?_, fun never => never ▸ .never property⟩
  generalize same : Value.bool allowed = schema at declared
  cases declared with
  | never => exact Value.bool.inj same
  | keyword _ set =>
    subst same
    cases set
  | property found =>
    subst same
    cases found
  | reference found =>
    subst same
    cases found
  | branch _ found =>
    subst same
    cases found

theorem declares_object {property : Option String} {fields : List (String × Value)} :
    Declares root property (.object fields) ↔
      StartDeclares root (.object fields) property ∨
      (∃ reference target, (Value.object fields).get "$ref" = some reference ∧
        referred root reference = some target ∧ Declares root property target) ∨
      ∃ keyword ∈ ["allOf", "anyOf", "oneOf"], ∃ items, (Value.object fields).get keyword = some (.array items) ∧
        ∃ item ∈ items, Declares root property item := by
  constructor
  · intro declared
    generalize same : Value.object fields = schema at declared ⊢
    cases declared with
    | never => cases same
    | keyword known set => exact .inl ⟨_, known, set⟩
    | property found inner => exact .inl ⟨_, found, inner⟩
    | reference found followed there => exact .inr (.inl ⟨_, _, found, followed, there⟩)
    | branch known found member there => exact .inr (.inr ⟨_, known, _, found, _, member, there⟩)
  · rintro (here | ⟨reference, target, found, followed, there⟩ | ⟨keyword, known, items, found, item, member, there⟩)
    · cases property with
      | none =>
        obtain ⟨name, known, set⟩ := here
        exact .keyword known set
      | some name =>
        obtain ⟨inner, found, there⟩ := here
        exact .property found there
    · exact .reference found followed there
    · exact .branch known found member there

theorem readTypes_told
    (each : ∀ inner property hint, Search.Yields (typesOf inner property) hint → Told root property inner hint)
    {schema : Value} {property : Option String} {hint : XmlParameterTypes}
    (yields : Search.Yields (readTypes typesOf root schema property) hint) : Told root property schema hint := by
  cases schema with
  | bool allowed =>
    obtain rfl := Search.yields_pure yields
    refine ⟨fun u accepted => ?_, ?_⟩
    · obtain ⟨v, -, accepted⟩ := accepted
      obtain ⟨accepts, -, meets⟩ := accepted.meets
      cases allowed with
      | true => exact XmlParameterTypes.any_admits
      | false => exact absurd rfl meets.allowed
    · rw [declares_bool]
      cases allowed <;> simp
  | object fields =>
    obtain ⟨start, started, yields⟩ := Search.yields_bind yields
    obtain ⟨narrowed, followed, yields⟩ := Search.yields_bind yields
    obtain ⟨afterAll, ofAll, yields⟩ := Search.yields_foldlM yields
    obtain ⟨afterAny, ofAny, yields⟩ := Search.yields_foldlM yields
    obtain ⟨afterOne, ofOne, yields⟩ := Search.yields_foldlM yields
    obtain rfl := Search.yields_pure yields
    have branches : ∀ item branch, Search.Yields (typesOf item property) branch → Told root property item branch :=
      fun item branch => each item property branch
    have first := startTypes_told each started
    have second := referenceTypes_told each followed
    have all := branchTypes_told branches (by simp) ofAll
    have any := branchTypes_told branches (by simp) ofAny
    have one := branchTypes_told branches (by simp) ofOne
    refine ⟨fun u accepted => ?_, ?_⟩
    · obtain ⟨v, offered, accepted⟩ := accepted
      have byStart := first.1 v u offered accepted
      have byReference := second.1 v u offered accepted byStart
      have byAll := all.1 v u offered accepted byReference
      have byAny := any.1 v u offered accepted byAll
      exact one.1 v u offered accepted byAny
    · rw [one.2, any.2, all.2, second.2, first.2, declares_object]
      simp [or_assoc]
  | _ => exact (Search.not_yields_fail yields).elim

end Bodies

theorem parameterTypes_told (root : Value) (depth : Nat) (schema : Value) (property : Option String)
    (hint : XmlParameterTypes) (yields : Search.Yields (parameterTypes root depth schema property) hint) :
    Told root property schema hint := by
  induction depth generalizing schema property hint with
  | zero =>
    obtain ⟨_, _, yields⟩ := Search.yields_bind yields
    exact (Search.not_yields_fail yields).elim
  | succ depth ih =>
    obtain ⟨_, _, yields⟩ := Search.yields_bind yields
    exact readTypes_told ih yields

/-! ### The budget -/

section Budget_

variable {root : Value} {typesOf other : Value → Option String → Search XmlParameterTypes}

theorem branchTypes_metered {walk : Value → Search XmlParameterTypes} (each : ∀ item, (walk item).Metered)
    (schema : Value) (hint : XmlParameterTypes) (keyword : String) :
    (branchTypes walk schema hint keyword).Metered := by
  unfold branchTypes
  split
  · exact Search.metered_pure _
  · refine (Search.metered_ofOption _).bind fun items => ?_
    refine (Search.Metered.foldlM (fun combined item => ?_) items _).bind fun _ => Search.metered_pure _
    exact (each item).bind fun _ => Search.metered_pure _

theorem startTypes_metered (each : ∀ inner property, (typesOf inner property).Metered) (schema : Value)
    (property : Option String) : (startTypes typesOf schema property).Metered := by
  unfold startTypes
  split
  · split
    · exact each _ none
    · exact Search.metered_pure _
  · exact Search.metered_ofOption _

theorem referenceTypes_metered (each : ∀ inner property, (typesOf inner property).Metered) (schema : Value)
    (property : Option String) (hint : XmlParameterTypes) :
    (referenceTypes typesOf root schema property hint).Metered := by
  unfold referenceTypes
  split
  · refine (Search.metered_ofOption _).bind fun target => ?_
    exact (each target property).bind fun _ => Search.metered_pure _
  · exact Search.metered_pure _

theorem readTypes_metered (each : ∀ inner property, (typesOf inner property).Metered) (schema : Value)
    (property : Option String) : (readTypes typesOf root schema property).Metered := by
  unfold readTypes
  split
  · exact Search.metered_pure _
  · refine (startTypes_metered each _ property).bind fun start => ?_
    refine (referenceTypes_metered each _ property start).bind fun hint => ?_
    exact .foldlM (fun hint keyword => branchTypes_metered (fun item => each item property) _ hint keyword) _ hint
  · exact Search.metered_fail

theorem parameterTypes_metered (root : Value) (depth : Nat) (schema : Value) (property : Option String) :
    (parameterTypes root depth schema property).Metered := by
  induction depth generalizing schema property with
  | zero => exact Search.metered_enter.bind fun _ => Search.metered_fail
  | succ depth ih => exact Search.metered_enter.bind fun _ => readTypes_metered ih schema property

theorem branchTypes_same {most : Nat} {walk walk_ : Value → Search XmlParameterTypes}
    (each : ∀ item, (walk item).Metered) (same : ∀ item, Search.SameWithin most (walk item) (walk_ item))
    (schema : Value) (hint : XmlParameterTypes) (keyword : String) :
    Search.SameWithin most (branchTypes walk schema hint keyword) (branchTypes walk_ schema hint keyword) := by
  unfold branchTypes
  split
  · exact .rfl
  · refine .bind (Search.metered_ofOption _) .rfl fun items => ?_
    have joined : ∀ combine : XmlParameterTypes → XmlParameterTypes → XmlParameterTypes, ∀ combined item,
        Search.Metered (walk item >>= fun branch => pure (combine combined branch)) := fun combine combined item =>
      (each item).bind fun _ => Search.metered_pure _
    refine .bind (.foldlM (joined _) items _) (.foldlM (joined _) (fun combined item => ?_) items _) fun _ => .rfl
    exact .bind (each item) (same item) fun _ => .rfl

theorem readTypes_same {most : Nat} (each : ∀ inner property, (typesOf inner property).Metered)
    (same : ∀ inner property, Search.SameWithin most (typesOf inner property) (other inner property))
    (schema : Value) (property : Option String) :
    Search.SameWithin most (readTypes typesOf root schema property) (readTypes other root schema property) := by
  unfold readTypes
  split
  · exact .rfl
  · refine .bind (startTypes_metered each _ property) ?_ fun start => ?_
    · unfold startTypes
      split
      · split
        · exact same _ none
        · exact .rfl
      · exact .rfl
    · refine .bind (referenceTypes_metered each _ property start) ?_ fun hint => ?_
      · unfold referenceTypes
        split
        · refine .bind (Search.metered_ofOption _) .rfl fun target => ?_
          exact .bind (each target property) (same target property) fun _ => .rfl
        · exact .rfl
      · exact .foldlM (fun hint keyword => branchTypes_metered (fun item => each item property) _ hint keyword)
          (fun hint keyword => branchTypes_same (fun item => each item property) (fun item => same item property) _ hint
            keyword) _ hint
  · exact .rfl

theorem parameterTypes_settled (root : Value) (budget extra : Nat) (schema : Value) (property : Option String) :
    Search.SameWithin budget (parameterTypes root budget schema property)
      (parameterTypes root (budget + extra) schema property) := by
  induction budget generalizing schema property with
  | zero =>
    cases extra with
    | zero => exact .rfl
    | succ extra =>
      rw [Nat.zero_add]
      exact Search.enter_nothing _ _
  | succ budget ih =>
    rw [Nat.add_right_comm]
    exact Search.sameWithin_enter (readTypes_same (parameterTypes_metered root budget) ih schema property)

end Budget_

theorem parameterTypesWithin_told {remaining : Nat} {root schema : Value} {property : Option String}
    {hint : XmlParameterTypes} (found : (parameterTypesWithin remaining schema property root).1 = some hint) :
    Told root property schema hint :=
  parameterTypes_told root remaining schema property hint ⟨_, _, Prod.ext found rfl⟩

theorem parameterValue_keeps {fromStr : String → Option Value} {schema u : Value} {name value : String}
    (became : parameterValue fromStr (some schema) name value = some u) (turned : u.isString = false) :
    (∀ text, ¬ AcceptedFor schema schema (some name) (.string text)) ∨ ¬ Declares schema (some name) schema := by
  obtain ⟨preserves, read, same⟩ := Option.bind_eq_some_iff.1 became
  obtain ⟨hint, found, read⟩ := Option.bind_eq_some_iff.1 read
  have told := parameterTypesWithin_told found
  split at read
  · cases read
    cases same
    by_cases kept : (hint.specified && hint.string) = true
    · rw [if_pos kept] at turned
      cases turned
    · rw [Bool.and_eq_true, not_and_or] at kept
      rcases kept with unspecified | narrowed
      · exact .inr fun declares => unspecified (told.specified.2 declares)
      · exact .inl fun text accepted => narrowed (told.admits _ accepted)
  · cases read

/-- Reading the hints ends: any nesting the budget allows for is enough, and the first call makes at most 128 more, of
which one that finds nothing left is the last. A hint that comes out of it allows for every text and for every other
value that the schema accepts for the property, and tells whether anything is declared. So an argument stops being a
text only where no text is accepted or nothing is declared. -/
theorem hints_sound_and_bounded (fromStr : String → Option Value) (root schema : Value) (property : Option String) :
    (∀ depth ≥ 128, parameterTypes root depth schema property { remaining := 128 } =
      parameterTypesWithin 128 schema property root) ∧
    (parameterTypesWithin 128 schema property root).2.calls ≤ 1 + 128 ∧
    (∀ hint, (parameterTypesWithin 128 schema property root).1 = some hint →
      (parameterTypesWithin 128 schema property root).2.calls ≤ 128 ∧
      (∀ text, AcceptedFor root schema property (.string text) → hint.string = true) ∧
      (∀ u, u.isString = false → AcceptedFor root schema property u → hint.other = true) ∧
      (hint.specified = true ↔ Declares root property schema)) ∧
    ∀ declared name value u, parameterValue fromStr declared name value = some u → u.isString = false →
      ∀ own ∈ declared,
        (∀ text, ¬ AcceptedFor own own (some name) (.string text)) ∨ ¬ Declares own (some name) own := by
  have metered := (parameterTypes_metered root 128 schema property { remaining := 128 }).2
  change (parameterTypesWithin 128 schema property root).2.calls + _ ≤
    0 + 128 + if (parameterTypesWithin 128 schema property root).1.isSome then 0 else 1 at metered
  refine ⟨fun depth enough => ?_, ?_, fun hint found => ?_, fun declared name value u became turned own member => ?_⟩
  · obtain ⟨extra, rfl⟩ := Nat.exists_eq_add_of_le enough
    exact (parameterTypes_settled root 128 extra schema property _ le_rfl).symm
  · split at metered <;> omega
  · have told := parameterTypesWithin_told found
    rw [found] at metered
    refine ⟨?_, fun text accepted => told.admits _ accepted, fun u other accepted => ?_, told.specified⟩
    · simp only [Option.isSome_some, if_true] at metered
      omega
    · have admitted := told.admits u accepted
      rwa [XmlParameterTypes.admits, other] at admitted
  · obtain rfl := Option.mem_def.1 member
    exact parameterValue_keeps became turned

def textRequest : Value := .object [
  ("$defs", .object [("text", .object [("type", .string "string")])]),
  ("properties", .object [
    ("content", .object [("$ref", .string "#/$defs/text")]),
    ("count", .object [("type", .string "integer")])])]

theorem textRequest_accepts : AcceptedFor textRequest textRequest (some "content") (.string "42") := by
  let whole : Value := .object [("content", .string "42")]
  let reference : Value := .object [("$ref", .string "#/$defs/text")]
  let text : Value := .object [("type", .string "string")]
  have followed : referred textRequest (.string "#/$defs/text") = some text := by rfl
  refine ⟨whole, rfl, fun schema v =>
    (schema = textRequest ∧ v = whole) ∨ ((schema = reference ∨ schema = text) ∧ v = .string "42"), ?_, .inl ⟨rfl, rfl⟩⟩
  rintro schema v (⟨rfl, rfl⟩ | ⟨rfl | rfl, rfl⟩)
  · constructor <;> simp +contextual [textRequest, whole, reference, Value.get, List.lookup_cons]
    grind
  · constructor <;> simp +contextual [reference, Value.get, List.lookup_cons]
    rintro _ target rfl there
    exact .inr (Option.some.inj (there.symm.trans followed))
  · constructor <;>
      simp +contextual [text, Value.get, List.lookup_cons, kinds, hasKind, Value.asArray, Value.asStr, Value.isString]

/-- A text that the reference leads to is kept as one, and the count beside it has no text. -/
theorem hints_sound_and_bounded_request :
    (∃ hint, (parameterTypesWithin 128 textRequest (some "content") textRequest).1 = some hint ∧
      hint.string = true) ∧
    ((∀ text, ¬ AcceptedFor textRequest textRequest (some "count") (.string text)) ∨
      ¬ Declares textRequest (some "count") textRequest) := by
  have sound := hints_sound_and_bounded (fun _ => some (.number (.posInt 42))) textRequest textRequest (some "content")
  refine ⟨⟨{ string := true, other := false, specified := true }, by decide, ?_⟩, ?_⟩
  · exact (sound.2.2.1 _ (by decide)).2.1 "42" textRequest_accepts
  · exact sound.2.2.2 (some textRequest) "count" "42" (.number (.posInt 42)) rfl rfl textRequest rfl

/-- A reference to itself uses the whole budget and is read as nothing. -/
example : parameterTypesWithin 128 (.object [("$ref", .string "#")]) (some "content")
    (.object [("$ref", .string "#")]) = (none, { remaining := 0, calls := 129 }) := by decide +kernel

end KiroProxy.ParameterTypes

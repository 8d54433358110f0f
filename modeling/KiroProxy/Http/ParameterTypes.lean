import KiroProxy.Json
import KiroProxy.Lib.Budget
import KiroProxy.Lib.Scan

/-! The type hints a tool's schema gives for one of its parameters, by which a recovered argument is kept as a text. -/
namespace KiroProxy

namespace Value

def isString : Value → Bool
  | string _ => true
  | _ => false

/-- `str::replace`: the matches of a pattern that is not empty, from left to right. -/
def replaceChars (pattern replacement text : List Char) : List Char :=
  (Scan.scan (fun rest => if pattern.isPrefixOf rest then pattern.length else 0) (fun c => [c])
    (fun _ => replacement) text).flatten

def pointerToken (token : List Char) : List Char :=
  replaceChars ['~', '0'] ['~'] (replaceChars ['~', '1'] ['/'] token)

def parseIndex (token : List Char) : Option Nat :=
  if token.head? = some '0' ∧ token.length ≠ 1 then none
  else if token ≠ [] ∧ token.all Char.isDigit then some (token.foldl (fun n c => 10 * n + (c.toNat - 48)) 0)
  else none

def descend (target : Value) (token : List Char) : Option Value :=
  match target with
  | object fields => fields.lookup (String.ofList token)
  | array items => (parseIndex token).bind (items[·]?)
  | _ => none

/-- `Value::pointer` with the text of a pointer. -/
def resolve (value : Value) (pointer : String) : Option Value :=
  match pointer.toList with
  | [] => some value
  | '/' :: path => ((path.splitOn '/').map pointerToken).foldlM descend value
  | _ => none

end Value

namespace ParameterTypes

open Budget

structure XmlParameterTypes where
  string : Bool
  other : Bool
  specified : Bool
  deriving DecidableEq, Repr

namespace XmlParameterTypes

def any : XmlParameterTypes := { string := true, other := true, specified := false }

def none : XmlParameterTypes := { string := false, other := false, specified := true }

def value (value : Value) : XmlParameterTypes :=
  { string := value.isString, other := !value.isString, specified := true }

def intersect (a b : XmlParameterTypes) : XmlParameterTypes :=
  { string := a.string && b.string, other := a.other && b.other, specified := a.specified || b.specified }

def union (a b : XmlParameterTypes) : XmlParameterTypes :=
  { string := a.string || b.string, other := a.other || b.other, specified := a.specified || b.specified }

end XmlParameterTypes

def otherKinds : List String := ["null", "boolean", "number", "integer", "array", "object"]

def declareKind (declared : XmlParameterTypes) (kind : Value) : Option XmlParameterTypes := do
  let name ← kind.asStr
  if name = "string" then some { declared with string := true }
  else if name ∈ otherKinds then some { declared with other := true }
  else none

/-- The names a `type` lists, or the one it is. -/
def kinds (kind : Value) : List Value := kind.asArray.getD [kind]

def kindTypes (schema : Value) : Option XmlParameterTypes :=
  match schema.get "type" with
  | some kind => ((kinds kind).foldlM declareKind .none).map XmlParameterTypes.any.intersect
  | none => some .any

def enumTypes (schema : Value) (hint : XmlParameterTypes) : Option XmlParameterTypes :=
  match schema.get "enum" with
  | some values => values.asArray.map fun items =>
    hint.intersect (items.foldl (fun enumerated item => enumerated.union (.value item)) .none)
  | none => some hint

def constTypes (schema : Value) (hint : XmlParameterTypes) : XmlParameterTypes :=
  match schema.get "const" with
  | some value => hint.intersect (.value value)
  | none => hint

def valueTypes (schema : Value) : Option XmlParameterTypes := do
  let hint ← kindTypes schema
  let hint ← enumTypes schema hint
  some (constTypes schema hint)

def propertySchema (schema : Value) (name : String) : Option Value :=
  ((schema.get "properties").bind (·.get name)).or (schema.get "additionalProperties")

/-- A reference is a pointer into the root, behind a `#`. -/
def referred (root reference : Value) : Option Value := do
  let pointer ← reference.asStr.bind (Text.stripPrefix · "#")
  root.resolve pointer

/-- One of `allOf`, `anyOf` and `oneOf`. -/
def branchTypes (typesOf : Value → Search XmlParameterTypes) (schema : Value) (hint : XmlParameterTypes)
    (keyword : String) : Search XmlParameterTypes :=
  match schema.get keyword with
  | none => pure hint
  | some branches => do
    let items ← Search.ofOption branches.asArray
    let combined : XmlParameterTypes :=
      if keyword = "allOf" then .any else { XmlParameterTypes.none with specified := false }
    let combined ← items.foldlM (fun combined item => do
      let branch ← typesOf item
      pure (if keyword = "allOf" then combined.intersect branch else combined.union branch)) combined
    pure (hint.intersect combined)

def startTypes (typesOf : Value → Option String → Search XmlParameterTypes) (schema : Value)
    (property : Option String) : Search XmlParameterTypes :=
  match property with
  | some name => match propertySchema schema name with
    | some inner => typesOf inner none
    | none => pure .any
  | none => Search.ofOption (valueTypes schema)

def referenceTypes (typesOf : Value → Option String → Search XmlParameterTypes) (root schema : Value)
    (property : Option String) (hint : XmlParameterTypes) : Search XmlParameterTypes :=
  match schema.get "$ref" with
  | some reference => do
    let target ← Search.ofOption (referred root reference)
    let there ← typesOf target property
    pure (hint.intersect there)
  | none => pure hint

def readTypes (typesOf : Value → Option String → Search XmlParameterTypes) (root schema : Value)
    (property : Option String) : Search XmlParameterTypes :=
  match schema with
  | .bool allowed => pure (if allowed then .any else .none)
  | .object _ => do
    let hint ← startTypes typesOf schema property
    let hint ← referenceTypes typesOf root schema property hint
    ["allOf", "anyOf", "oneOf"].foldlM (branchTypes (typesOf · property) schema) hint
  | _ => Search.fail

/-- The budget ends every call; `depth` only bounds the nesting for the recursion, and a depth of the budget is
as good as any other. -/
def parameterTypes (root : Value) : Nat → Value → Option String → Search XmlParameterTypes
  | 0, _, _ => do
    Search.enter
    Search.fail
  | depth + 1, schema, property => do
    Search.enter
    readTypes (parameterTypes root depth) root schema property

/-- `parameter_types` with so much of the budget remaining. -/
def parameterTypesWithin (remaining : Nat) (schema : Value) (property : Option String) (root : Value) :
    Option XmlParameterTypes × Meter := parameterTypes root remaining schema property { remaining }

def parameterPreservesString (schema : Value) (property : Option String) (root : Value) (remaining : Nat) :
    Option Bool := do
  let hint ← (parameterTypesWithin remaining schema property root).1
  if hint.string || hint.other then some (hint.specified && hint.string) else none

/-- `serde_json::from_str` is a parameter; what is no JSON stays a text. -/
def coerce (fromStr : String → Option Value) (value : String) : Value := (fromStr value).getD (.string value)

def parameterValue (fromStr : String → Option Value) (schema : Option Value) (name value : String) : Option Value := do
  let stringParameter ← match schema with
    | some schema => parameterPreservesString schema (some name) schema 128
    | none => some false
  some (if stringParameter then .string value else coerce fromStr value)

end ParameterTypes

end KiroProxy

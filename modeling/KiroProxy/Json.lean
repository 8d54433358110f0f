import KiroProxy.Lib.Text

/-! JSON values as the proxy handles them, and their compact rendering. -/
namespace KiroProxy

/-- A double is carried by the text it prints as; nothing here computes with it. -/
inductive Number where
  | posInt (n : Nat)
  | negInt (n : Int)
  | float (text : String)
  deriving DecidableEq, Repr

/-- Object fields stand in the order of the map's iteration, that is, by key. -/
inductive Value where
  | null
  | bool (b : Bool)
  | number (n : Number)
  | string (s : String)
  | array (items : List Value)
  | object (fields : List (String × Value))
  deriving Repr

namespace Value

def isObject : Value → Bool
  | object _ => true
  | _ => false

def isNull : Value → Bool
  | null => true
  | _ => false

def asStr : Value → Option String
  | string s => some s
  | _ => none

def asBool : Value → Option Bool
  | bool b => some b
  | _ => none

def asU64 : Value → Option Nat
  | number (.posInt n) => some n
  | _ => none

def asArray : Value → Option (List Value)
  | array items => some items
  | _ => none

/-- `Value::get` with a name: only an object has fields. -/
def get (value : Value) (key : String) : Option Value :=
  match value with
  | object fields => fields.lookup key
  | _ => none

def getStr (value : Value) (key : String) : Option String := (value.get key).bind asStr

/-- `Value::pointer` along field names. -/
def pointer (value : Value) : List String → Option Value
  | [] => some value
  | key :: rest => (value.get key).bind fun inner => pointer inner rest

def pointerStr (value : Value) (path : List String) : Option String := (value.pointer path).bind asStr

def blocks (content : Value) : List Value := content.asArray.getD []

/-- The `type` a block declares. -/
def kind (block : Value) : Option String := block.getStr "type"

def hexDigit (n : Nat) : Char :=
  if n < 10 then Char.ofNat (48 + n) else Char.ofNat (87 + n)

/-- Escapes of the compact formatter: named ones, then `\u00xx` below the space. -/
def escapeChar (c : Char) : List Char :=
  if c = '"' then ['\\', '"']
  else if c = '\\' then ['\\', '\\']
  else if c = '\n' then ['\\', 'n']
  else if c = '\r' then ['\\', 'r']
  else if c = '\t' then ['\\', 't']
  else if c.toNat = 8 then ['\\', 'b']
  else if c.toNat = 12 then ['\\', 'f']
  else if c.toNat < 32 then ['\\', 'u', '0', '0', hexDigit (c.toNat / 16), hexDigit (c.toNat % 16)]
  else [c]

def quote (s : String) : String :=
  String.ofList ('"' :: s.toList.flatMap escapeChar ++ ['"'])

def renderNumber : Number → String
  | .posInt n => toString n
  | .negInt n => toString n
  | .float text => text

mutual

/-- `Value::to_string`: no blanks, fields in map order. -/
def render : Value → String
  | null => "null"
  | bool b => if b then "true" else "false"
  | number n => renderNumber n
  | string s => quote s
  | array items => "[" ++ renderItems items ++ "]"
  | object fields => "\x7b" ++ renderFields fields ++ "\x7d"

def renderItems : List Value → String
  | [] => ""
  | [v] => render v
  | v :: rest => render v ++ "," ++ renderItems rest

def renderFields : List (String × Value) → String
  | [] => ""
  | [(k, v)] => quote k ++ ":" ++ render v
  | (k, v) :: rest => quote k ++ ":" ++ render v ++ "," ++ renderFields rest

end

end Value

end KiroProxy

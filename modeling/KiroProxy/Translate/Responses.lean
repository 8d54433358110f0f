import KiroProxy.Json
import KiroProxy.Lib.Lookup
import KiroProxy.Lib.SortedMap
import Mathlib.Data.String.Basic

/-! What the Responses endpoint writes into objects, and the names that it takes apart. -/
namespace KiroProxy

/-- A flattened tool name taken apart; a namespace is a module of the client's. -/
structure ResponsesToolName where
  name : String
  space : Option String

namespace Responses

def setField (key : String) (inner : Value) (fields : List (String × Value)) : List (String × Value) :=
  SortedMap.alter key (fun _ => inner) fields

theorem lookup_setField (key other : String) (inner : Value) (fields : List (String × Value)) :
    (setField key inner fields).lookup other = if other = key then some inner else fields.lookup other := by
  unfold setField
  induction fields with
  | nil => rw [SortedMap.alter, lookup_cons_if]
  | cons field rest ih =>
    obtain ⟨name, value⟩ := field
    rw [SortedMap.alter]
    split
    case isTrue => rw [lookup_cons_if]
    case isFalse =>
      split
      case isTrue here =>
        subst here
        rw [lookup_cons_if, lookup_cons_if]
        split <;> rfl
      case isFalse apart =>
        rw [lookup_cons_if, lookup_cons_if, ih]
        by_cases here : other = name
        · have differ : other ≠ key := fun same => apart (same.symm.trans here)
          rw [if_pos here, if_neg differ, if_pos here]
        · rw [if_neg here, if_neg here]

end Responses

end KiroProxy

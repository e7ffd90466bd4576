import Monkey.Syntax.Agreement
import Monkey.Value

/-!
When two values are the same. Values of different kinds never are. Hashes are the same when they
have the same entries, in whatever order, and functions when they have the same text and scope.
-/

namespace Monkey.Value

mutual

def same : Value → Value → Bool
  | .integer value, .integer value' => value = value'
  | .boolean value, .boolean value' => value = value'
  | .string text, .string text' => text = text'
  | .null, .null => true
  | .array elements, .array elements' => allSame elements elements'
  | .hash entries, .hash entries' =>
    entries.length = entries'.length && allFoundIn entries entries'
  | .function parameters body scope, .function parameters' body' scope' =>
    scope = scope' && Identifier.allAgree parameters parameters' && body.agrees body'
  | .builtin name, .builtin name' => name = name'
  | .returned value, .returned value' => same value value'
  | .error message, .error message' => message = message'
  | _, _ => false

def allSame : List Value → List Value → Bool
  | [], [] => true
  | value :: rest, value' :: rest' => same value value' && allSame rest rest'
  | _, _ => false

/-- Whether each entry has its like among the others. -/
def allFoundIn : List (Entry Value) → List (Entry Value) → Bool
  | [], _ => true
  | ⟨hashKey, key, value⟩ :: rest, others =>
    (match Entry.find? others hashKey with
    | some other => same key other.key && same value other.value
    | none => false) && allFoundIn rest others

end

end Monkey.Value

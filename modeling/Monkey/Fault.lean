import Monkey.Builtin
import Monkey.Operator
import Monkey.ValueKind

/-!
What can go wrong while a program runs, and how it is told.
-/

namespace Monkey

inductive Fault where
  | typeMismatch (left : ValueKind) (operator : Operator) (right : ValueKind)
  | unknownUnary (operator : Operator) (right : ValueKind)
  | unknownBinary (left : ValueKind) (operator : Operator) (right : ValueKind)
  | divisionByZero
  | unbound (name : String)
  /-- A value that cannot be a key was given one in a hash literal. -/
  | unhashable (kind : ValueKind)
  /-- A hash was asked for a value that cannot be a key. -/
  | unusableKey (kind : ValueKind)
  | notIndexable (kind : ValueKind)
  | notSliceable (kind : ValueKind) (lower upper : Option ValueKind)
  | notCallable (kind : ValueKind)
  | wrongCount (given wanted : Nat)
  | noLength (kind : ValueKind)
  | notAnArray (builtin : Builtin) (kind : ValueKind)

namespace Fault

def message : Fault → String
  | typeMismatch left operator right =>
    "type mismatch: " ++ left.name ++ " " ++ operator.text ++ " " ++ right.name
  | unknownUnary operator right => "unknown operator: " ++ operator.text ++ right.name
  | unknownBinary left operator right =>
    "unknown operator: " ++ left.name ++ " " ++ operator.text ++ " " ++ right.name
  | divisionByZero => "division by zero"
  | unbound name => "identifier not found: " ++ name
  | unhashable kind => "key is not hashable: " ++ kind.name
  | unusableKey kind => "unusable as hash key: " ++ kind.name
  | notIndexable kind => "index operator not supported: " ++ kind.name
  | notSliceable kind lower upper =>
    "slice operator not supported: " ++ kind.name ++ "[" ++ bound lower ++ ":" ++ bound upper ++ "]"
  | notCallable kind => "not a function: " ++ kind.name
  | wrongCount given wanted =>
    "wrong number of arguments. got=" ++ toString given ++ ", want=" ++ toString wanted
  | noLength kind => "argument to `len` not supported, got " ++ kind.name
  | notAnArray builtin kind =>
    "argument to `" ++ builtin.name ++ "` must be ARRAY, got " ++ kind.name
where
  bound : Option ValueKind → String
    | none => ""
    | some kind => kind.name

end Fault
end Monkey

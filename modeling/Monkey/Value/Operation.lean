import Monkey.Fault
import Monkey.Integer
import Monkey.Value

/-!
The operators applied to values.
-/

namespace Monkey.Value

def unary (operator : Operator) (right : Value) : Except Fault Value :=
  match operator, right with
  | .bang, right => .ok (boolean !right.isTruthy)
  | .minus, integer value => .ok (integer (Integer.negate value))
  | operator, right => .error (.unknownUnary operator right.kind)

def integerBinary (operator : Operator) (left right : Int) : Except Fault Value :=
  match operator with
  | .plus => .ok (integer (Integer.add left right))
  | .minus => .ok (integer (Integer.subtract left right))
  | .times => .ok (integer (Integer.multiply left right))
  | .divide =>
    match Integer.divide? left right with
    | some quotient => .ok (integer quotient)
    | none => .error .divisionByZero
  | .less => .ok (boolean (left < right))
  | .greater => .ok (boolean (left > right))
  | .equal => .ok (boolean (left = right))
  | .notEqual => .ok (boolean (left ≠ right))
  | operator => .error (.unknownBinary .integer operator .integer)

def booleanBinary (operator : Operator) (left right : Bool) : Except Fault Value :=
  match operator with
  | .equal => .ok (boolean (left = right))
  | .notEqual => .ok (boolean (left ≠ right))
  | operator => .error (.unknownBinary .boolean operator .boolean)

def stringBinary (operator : Operator) (left right : String) : Except Fault Value :=
  match operator with
  | .plus => .ok (string (left ++ right))
  | .equal => .ok (boolean (left = right))
  | .notEqual => .ok (boolean (left ≠ right))
  | operator => .error (.unknownBinary .string operator .string)

/-- Operands of different kinds are a mismatch, whatever the operator. -/
def binary (left : Value) (operator : Operator) (right : Value) : Except Fault Value :=
  if left.kind ≠ right.kind then .error (.typeMismatch left.kind operator right.kind)
  else
    match left, right with
    | integer left, integer right => integerBinary operator left right
    | boolean left, boolean right => booleanBinary operator left right
    | string left, string right => stringBinary operator left right
    | left, right => .error (.unknownBinary left.kind operator right.kind)

end Monkey.Value

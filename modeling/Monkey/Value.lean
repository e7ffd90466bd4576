import Monkey.Builtin
import Monkey.Entries
import Monkey.Syntax

/-!
The values a program computes with.
-/

namespace Monkey

inductive Value where
  | integer (value : Int)
  | boolean (value : Bool)
  | string (text : String)
  | null
  | array (elements : List Value)
  | hash (entries : List (Entry Value))
  /-- A function and the number of the scope it was defined in. The scope is shared with all others
  that refer to it. -/
  | function (parameters : List Identifier) (body : Block) (scope : Nat)
  | builtin (builtin : Builtin)
  /-- A value on its way out of the blocks around a `return`. -/
  | returned (value : Value)
  | error (message : String)

namespace Value

def kind : Value → ValueKind
  | integer _ => .integer
  | boolean _ => .boolean
  | string _ => .string
  | null => .null
  | array _ => .array
  | hash _ => .hash
  | function _ _ _ => .function
  | builtin _ => .builtin
  | returned _ => .returned
  | error _ => .error

/-- Everything but `null` and `false` counts as true, zero and the empty string too. -/
def isTruthy : Value → Bool
  | null | boolean false => false
  | _ => true

def isError : Value → Bool
  | error _ => true
  | _ => false

/-- Integers, truth values and strings can be keys of a hash. -/
def hashKey? : Value → Option HashKey
  | integer value => some (.ofInteger value)
  | boolean value => some (.ofBoolean value)
  | string text => some (.ofString text)
  | _ => none

/-- Takes off one layer of `return`. -/
def unwrapped : Value → Value
  | returned value => value
  | value => value

/-- The hash of some pairs, filed one after the other without those whose key cannot be one. -/
def ofPairs (pairs : List (Value × Value)) : Value :=
  hash (pairs.foldl file [])
where
  file (entries : List (Entry Value)) (pair : Value × Value) : List (Entry Value) :=
    match pair.1.hashKey? with
    | some hashKey => Entry.insert ⟨hashKey, pair.1, pair.2⟩ entries
    | none => entries

end Value
end Monkey

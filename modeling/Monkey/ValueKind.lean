/-!
The kinds of values a program computes with.
-/

namespace Monkey

inductive ValueKind where
  | integer | boolean | string | null | array | hash | function | builtin | returned | error
deriving DecidableEq

/-- The name that messages give a kind. -/
def ValueKind.name : ValueKind → String
  | integer => "INTEGER"
  | boolean => "BOOLEAN"
  | string => "STRING"
  | null => "NULL"
  | array => "ARRAY"
  | hash => "HASH"
  | function => "FUNCTION"
  | builtin => "BUILTIN"
  | returned => "RETURN_VALUE"
  | error => "ERROR"

end Monkey

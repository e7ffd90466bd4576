import Monkey.Token

/-!
What can be wrong with a program text, and how it is told.
-/

namespace Monkey

inductive Problem where
  /-- Another kind of token had to come next. -/
  | unexpected (expected found : TokenKind) (place : Position)
  /-- No expression starts with such a token. -/
  | noExpression (found : TokenKind) (place : Position)
  /-- The number does not fit the integers of the language. -/
  | integerTooLarge (digits : String) (place : Position)
deriving DecidableEq

namespace Problem

def place : Problem → Position
  | unexpected _ _ place | noExpression _ place | integerTooLarge _ place => place

def message : Problem → String
  | unexpected expected found place =>
    "expected next token to be " ++ expected.name ++ ", got " ++ found.name ++ " instead at "
      ++ place.text
  | noExpression found place =>
    "no parse function for token kind " ++ found.name ++ " at " ++ place.text
  | integerTooLarge digits place =>
    "could not parse " ++ digits ++ " as integer at " ++ place.text

end Problem
end Monkey

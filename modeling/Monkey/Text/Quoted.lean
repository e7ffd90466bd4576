import Monkey.Text.Printable

/-!
Texts in quotes, as messages show them. The quote is a single one unless that would have to be
escaped and a double one would not.
-/

namespace Monkey.Text

/-- Hexadecimal digits in lower case, padded with zeros to a width. -/
def hex (width value : Nat) : String :=
  let digits := Nat.toDigits 16 value
  String.ofList (List.replicate (width - digits.length) '0' ++ digits)

def escaped (quote c : Char) : String :=
  if c = quote || c = '\\' then "\\" ++ String.singleton c
  else if c = '\t' then "\\t"
  else if c = '\n' then "\\n"
  else if c = '\r' then "\\r"
  else if isPrintable c then String.singleton c
  else if c.toNat ≤ 0xFF then "\\x" ++ hex 2 c.toNat
  else if c.toNat ≤ 0xFFFF then "\\u" ++ hex 4 c.toNat
  else "\\U" ++ hex 8 c.toNat

def quoted (text : String) : String :=
  let characters := text.toList
  let quote := if characters.contains '\'' && !characters.contains '"' then '"' else '\''
  String.singleton quote ++ String.join (characters.map (escaped quote)) ++ String.singleton quote

end Monkey.Text

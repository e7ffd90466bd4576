import Monkey.Position

/-!
Tokens, the smallest units of a program: a kind, the text it was read from, and where it stood.
-/

namespace Monkey

inductive TokenKind where
  | illegal | eof
  | ident | int | string
  | assign | plus | minus | bang | asterisk | slash
  | less | greater | equal | notEqual
  | comma | semicolon | colon
  | leftParen | rightParen | leftBrace | rightBrace | leftBracket | rightBracket
  | fnKeyword | letKeyword | trueKeyword | falseKeyword | ifKeyword | elseKeyword | returnKeyword
deriving DecidableEq

namespace TokenKind

/-- The name a message gives a kind. Operators and delimiters are named by their own characters. -/
def name : TokenKind → String
  | illegal => "ILLEGAL"
  | eof => "EOF"
  | ident => "IDENT"
  | int => "INT"
  | string => "STRING"
  | assign => "="
  | plus => "+"
  | minus => "-"
  | bang => "!"
  | asterisk => "*"
  | slash => "/"
  | less => "<"
  | greater => ">"
  | equal => "=="
  | notEqual => "!="
  | comma => ","
  | semicolon => ";"
  | colon => ":"
  | leftParen => "("
  | rightParen => ")"
  | leftBrace => "\x7b"
  | rightBrace => "\x7d"
  | leftBracket => "["
  | rightBracket => "]"
  | fnKeyword => "FUNCTION"
  | letKeyword => "LET"
  | trueKeyword => "TRUE"
  | falseKeyword => "FALSE"
  | ifKeyword => "IF"
  | elseKeyword => "ELSE"
  | returnKeyword => "RETURN"

/-- Seven words are keywords and every other word is an identifier. -/
def ofWord (word : String) : TokenKind :=
  if word = "fn" then fnKeyword
  else if word = "let" then letKeyword
  else if word = "true" then trueKeyword
  else if word = "false" then falseKeyword
  else if word = "if" then ifKeyword
  else if word = "else" then elseKeyword
  else if word = "return" then returnKeyword
  else ident

/-- The kind of the token that one character makes on its own, if it makes one. -/
def ofSymbol? : Char → Option TokenKind
  | '=' => some assign
  | '+' => some plus
  | '-' => some minus
  | '!' => some bang
  | '*' => some asterisk
  | '/' => some slash
  | '<' => some less
  | '>' => some greater
  | ',' => some comma
  | ';' => some semicolon
  | ':' => some colon
  | '(' => some leftParen
  | ')' => some rightParen
  | '{' => some leftBrace
  | '}' => some rightBrace
  | '[' => some leftBracket
  | ']' => some rightBracket
  | _ => none

end TokenKind

structure Token where
  kind : TokenKind
  literal : String
  position : Position
deriving DecidableEq

namespace Token

/-- Two tokens agree when only their places may differ. -/
def agrees (first second : Token) : Bool :=
  first.kind = second.kind && first.literal = second.literal

theorem agrees_iff {first second : Token} :
    first.agrees second = true ↔ first.kind = second.kind ∧ first.literal = second.literal := by
  simp [agrees]

/-- The token that stands for the end of the text. -/
def ending (place : Position) : Token := ⟨.eof, "", place⟩

end Token
end Monkey

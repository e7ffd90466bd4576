import Monkey.Syntax
import Monkey.Syntax.Problem
import Monkey.Token.Scan

/-!
From tokens to syntax trees. Statements are read one after the other; an expression is an operand
followed by all operators that bind more tightly than its surroundings do.

A reader consumes tokens from the front of a stream. One that fails keeps the stream where the
failure was noticed, with the problem noted, and the statement around it is dropped: the next
statement is read from there on, so one pass finds every independent mistake.
-/

namespace Monkey

/-- How tightly an operator takes its operands, from the loosest. -/
inductive Precedence where
  | lowest | equality | comparison | sum | product | sign | call | index
deriving DecidableEq

namespace Precedence

def rank : Precedence → Nat
  | lowest => 1
  | equality => 2
  | comparison => 3
  | sum => 4
  | product => 5
  | sign => 6
  | call => 7
  | index => 8

/-- What a token binds as when it follows an operand. -/
def ofKind : TokenKind → Precedence
  | .equal | .notEqual => equality
  | .less | .greater => comparison
  | .plus | .minus => sum
  | .asterisk | .slash => product
  | .leftParen => call
  | .leftBracket => index
  | _ => lowest

end Precedence

/-- The largest integer a program can hold, 2^63 - 1. -/
def maxInteger : Nat := 0x7fffffffffffffff

/-- The longest row of digits that is converted to a number at all. -/
def maxDigits : Nat := 4300

/-- The tokens still to be read and the problems noted so far, the latest first. -/
structure Stream where
  ahead : List Token
  /-- Where the text ends. -/
  finish : Position
  problems : List Problem
  /-- Set once a row of digits longer than `maxDigits` was met in place of a number. -/
  refused : Bool

namespace Stream

/-- A stream of tokens of which the last one stands for the end of the text. -/
def ofTokens (tokens : List Token) : Stream :=
  ⟨tokens.dropLast, (tokens.getLast?.map Token.position).getD .start, [], false⟩

/-- The token that comes next. At the end of the text the end does, whenever it is asked for. -/
def next (stream : Stream) : Token := stream.ahead.headD (.ending stream.finish)

end Stream

/-- A reader either gives a result or fails; both leave a stream. -/
def Reading (α : Type) : Type := Stream → Option α × Stream

namespace Reading

instance : Monad Reading where
  pure result := fun stream => (some result, stream)
  bind first rest := fun stream =>
    match first stream with
    | (some result, stream) => rest result stream
    | (none, stream) => (none, stream)

variable {α : Type}

def fail : Reading α := fun stream => (none, stream)

/-- The next token, left where it is. -/
def peek : Reading Token := fun stream => (some stream.next, stream)

def take : Reading Token := fun stream =>
  (some stream.next, { stream with ahead := stream.ahead.tail })

def note (problem : Problem) : Reading Unit := fun stream =>
  (some (), { stream with problems := problem :: stream.problems })

def refuse : Reading Unit := fun stream => (some (), { stream with refused := true })

/-- Whether a reader succeeds. Its failure is not passed on. -/
def attempt (reader : Reading α) : Reading (Option α) := fun stream =>
  let (result, stream) := reader stream
  (some result, stream)

/-- Takes the next token if it is of the kind that has to come here. -/
def expect (kind : TokenKind) : Reading Token := do
  let token ← peek
  if token.kind = kind then
    take
  else
    note (.unexpected kind token.kind token.position)
    fail

/-- Takes the next token if it is of that kind, and tells whether it was. -/
def takeIf (kind : TokenKind) : Reading Bool := do
  if (← peek).kind = kind then
    let _ ← take
    pure true
  else
    pure false

def integer (token : Token) : Reading Expr := do
  if token.literal.length > maxDigits then
    refuse
    fail
  else
    let value := Nat.ofDigitChars 10 token.literal.toList 0
    if value > maxInteger then
      note (.integerTooLarge token.literal token.position)
      fail
    else
      pure (.integer token value)

/-! Below, `bound` limits the length of rows, and no row is longer than the stream that it is read
from. The reader for the expressions and statements within is a parameter. -/

/-- A statement ends with its expression and the semicolon after it, if there is one. -/
def statement (expression : Reading Expr) : Reading Statement := do
  let first ← peek
  match first.kind with
  | .letKeyword =>
    let token ← take
    let name ← expect .ident
    let _ ← expect .assign
    let value ← expression
    let _ ← takeIf .semicolon
    pure (.binding token ⟨name, name.literal⟩ (some value))
  | .returnKeyword =>
    let token ← take
    let value ← match (← peek).kind with
      | .semicolon | .rightBrace | .eof => pure none
      | _ => some <$> expression
    let _ ← takeIf .semicolon
    pure (.giveBack token value)
  | _ =>
    let value ← expression
    let _ ← takeIf .semicolon
    pure (.expression first (some value))

/-- The statements up to a closing brace. At the end of the text they end too, which is noted. -/
def untilBrace (statement : Reading Statement) : Nat → Reading (List Statement)
  | 0 => missingBrace
  | bound + 1 => do
    match (← peek).kind with
    | .rightBrace =>
      let _ ← take
      pure []
    | .eof => missingBrace
    | _ =>
      let first ← attempt statement
      let rest ← untilBrace statement bound
      pure (first.toList ++ rest)
where
  missingBrace : Reading (List Statement) := do
    note (.unexpected .rightBrace .eof (← peek).position)
    pure []

/-- The statements up to the end of the text. -/
def untilEnd (statement : Reading Statement) : Nat → Reading (List Statement)
  | 0 => pure []
  | bound + 1 => do
    match (← peek).kind with
    | .eof => pure []
    | _ =>
      let first ← attempt statement
      let rest ← untilEnd statement bound
      pure (first.toList ++ rest)

def block (bound : Nat) (expression : Reading Expr) : Reading Block := do
  let token ← expect .leftBrace
  let statements ← untilBrace (statement expression) bound
  pure ⟨token, statements⟩

/-- The rest of a row of expressions, each after a comma. -/
def moreExpressions (expression : Reading Expr) : Nat → Reading (List Expr)
  | 0 => pure []
  | bound + 1 => do
    if ← takeIf .comma then
      let first ← expression
      let rest ← moreExpressions expression bound
      pure (first :: rest)
    else
      pure []

/-- A row of expressions up to and with its closing token. -/
def expressions (bound : Nat) (expression : Reading Expr) (closing : TokenKind) :
    Reading (List Expr) := do
  if ← takeIf closing then
    pure []
  else
    let first ← expression
    let rest ← moreExpressions expression bound
    let _ ← expect closing
    pure (first :: rest)

/-- The pairs of a hash. Unlike any other row this one may end in a comma. -/
def pairs (expression : Reading Expr) : Nat → Reading (List (Expr × Expr))
  | 0 => pure []
  | bound + 1 => do
    if (← peek).kind = .rightBrace then
      pure []
    else
      let key ← expression
      let _ ← expect .colon
      let value ← expression
      if (← peek).kind = .rightBrace then
        pure [(key, value)]
      else
        let _ ← expect .comma
        let rest ← pairs expression bound
        pure ((key, value) :: rest)

def parameter : Reading Identifier := do
  let token ← expect .ident
  pure ⟨token, token.literal⟩

def moreParameters : Nat → Reading (List Identifier)
  | 0 => pure []
  | bound + 1 => do
    if ← takeIf .comma then
      let first ← parameter
      let rest ← moreParameters bound
      pure (first :: rest)
    else
      pure []

def parameters (bound : Nat) : Reading (List Identifier) := do
  if ← takeIf .rightParen then
    pure []
  else
    let first ← parameter
    let rest ← moreParameters bound
    let _ ← expect .rightParen
    pure (first :: rest)

def conditional (bound : Nat) (expression : Reading Expr) (token : Token) : Reading Expr := do
  let _ ← expect .leftParen
  let condition ← expression
  let _ ← expect .rightParen
  let consequence ← block bound expression
  if ← takeIf .elseKeyword then
    let alternative ← block bound expression
    pure (.conditional token condition consequence (some alternative))
  else
    pure (.conditional token condition consequence none)

def function (bound : Nat) (expression : Reading Expr) (token : Token) : Reading Expr := do
  let _ ← expect .leftParen
  let parameters ← parameters bound
  let body ← block bound expression
  pure (.function token parameters body)

/-- What an operator can be applied to: a literal, a name, or something in brackets. -/
def operand (bound : Nat) (expression : Precedence → Reading Expr) : Reading Expr := do
  let token ← take
  match token.kind with
  | .ident => pure (.identifier ⟨token, token.literal⟩)
  | .int => integer token
  | .string => pure (.string token token.literal)
  | .trueKeyword => pure (.boolean token true)
  | .falseKeyword => pure (.boolean token false)
  | .bang | .minus =>
    let right ← expression .sign
    pure (.unary token (.ofText token.literal) right)
  | .leftParen =>
    let inner ← expression .lowest
    let _ ← expect .rightParen
    pure inner
  | .ifKeyword => conditional bound (expression .lowest) token
  | .fnKeyword => function bound (expression .lowest) token
  | .leftBracket =>
    let elements ← expressions bound (expression .lowest) .rightBracket
    pure (.array token elements)
  | .leftBrace =>
    let pairs ← pairs (expression .lowest) bound
    let _ ← expect .rightBrace
    pure (.hash token pairs)
  | kind =>
    note (.noExpression kind token.position)
    fail

/-- The rest of a slice, after its colon. -/
def slice (expression : Reading Expr) (token : Token) (left : Expr) (lower : Option Expr) :
    Reading Expr := do
  let upper ← if (← peek).kind = .rightBracket then pure none else some <$> expression
  let _ ← expect .rightBracket
  pure (.slice token left lower upper)

/-- What follows an opening bracket: an index or, when a colon turns up, a slice. -/
def indexOrSlice (expression : Reading Expr) (token : Token) (left : Expr) : Reading Expr := do
  if ← takeIf .colon then
    slice expression token left none
  else
    let position ← expression
    if ← takeIf .colon then
      slice expression token left (some position)
    else
      let _ ← expect .rightBracket
      pure (.index token left position)

/-- Applies one operator, whose token was just taken, to the operand before it. -/
def operation (bound : Nat) (expression : Precedence → Reading Expr) (token : Token)
    (left : Expr) : Reading Expr := do
  match token.kind with
  | .leftParen =>
    let arguments ← expressions bound (expression .lowest) .rightParen
    pure (.call token left arguments)
  | .leftBracket => indexOrSlice (expression .lowest) token left
  | kind =>
    let right ← expression (.ofKind kind)
    pure (.binary token left (.ofText token.literal) right)

/-- Applies operators to `left` for as long as they bind more tightly than the surroundings. -/
def operations (bound : Nat) (expression : Precedence → Reading Expr) (surroundings : Precedence) :
    Nat → Expr → Reading Expr
  | 0, left => pure left
  | count + 1, left => do
    if surroundings.rank < (Precedence.ofKind (← peek).kind).rank then
      let token ← take
      let whole ← operation bound expression token left
      operations bound expression surroundings count whole
    else
      pure left

/-- An expression in a stream of fewer than `bound` tokens. Everything read on the way comes after
at least one token that was taken, so a smaller bound does for the parts. -/
def expression : Nat → Precedence → Reading Expr
  | 0, _ => fail
  | bound + 1, surroundings => do
    let left ← operand bound (expression bound)
    operations bound (expression bound) surroundings bound left

def program : Reading Program := fun stream =>
  let count := stream.ahead.length
  match untilEnd (statement (expression (count + 1) .lowest)) count stream with
  | (statements, stream) => (some ⟨statements.getD []⟩, stream)

end Reading

/-- What came of reading a program text. Only a program without problems is meant to be run. -/
structure Parsed where
  program : Program
  problems : List Problem
  /-- Whether a number was met that has too many digits to be converted. Then nothing else about
  the text is known. -/
  refused : Bool

/-- Reads the tokens of a program. -/
def parseTokens (tokens : List Token) : Parsed :=
  let (program, stream) := Reading.program (Stream.ofTokens tokens)
  ⟨program.getD ⟨[]⟩, stream.problems.reverse, stream.refused⟩

/-- Reads a program text. -/
def parse (source : String) : Parsed := parseTokens (tokenize source)

end Monkey

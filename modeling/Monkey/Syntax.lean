import Monkey.Operator
import Monkey.Token

/-!
Syntax trees. Every node but the program keeps the token it was read from. The types admit a little
more than program texts give: statements without a value, operators outside the language, tokens
that differ from the value beside them, and a node of no known kind.
-/

namespace Monkey

structure Identifier where
  token : Token
  name : String
deriving DecidableEq

mutual

inductive Expr where
  | identifier (name : Identifier)
  | integer (token : Token) (value : Int)
  | boolean (token : Token) (value : Bool)
  | string (token : Token) (value : String)
  | unary (token : Token) (operator : Operator) (right : Expr)
  | binary (token : Token) (left : Expr) (operator : Operator) (right : Expr)
  | conditional (token : Token) (condition : Expr) (consequence : Block)
    (alternative : Option Block)
  | function (token : Token) (parameters : List Identifier) (body : Block)
  | call (token : Token) (callee : Expr) (arguments : List Expr)
  | array (token : Token) (elements : List Expr)
  | hash (token : Token) (pairs : List (Expr × Expr))
  | index (token : Token) (left : Expr) (position : Expr)
  | slice (token : Token) (left : Expr) (lower upper : Option Expr)
  /-- A node of no known kind. It cannot be evaluated. -/
  | unknown

inductive Statement where
  | binding (token : Token) (name : Identifier) (value : Option Expr)
  | giveBack (token : Token) (value : Option Expr)
  | expression (token : Token) (value : Option Expr)
  | block (body : Block)

structure Block where
  token : Token
  statements : List Statement

end

structure Program where
  statements : List Statement

/-- Any part of a syntax tree. -/
inductive Node where
  | program (program : Program)
  | statement (statement : Statement)
  | expression (expr : Expr)

end Monkey

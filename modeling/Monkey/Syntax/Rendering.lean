import Monkey.Syntax
import Monkey.Text

/-!
The canonical form of a syntax tree. Unary and binary operations, indexing and slicing come out in
parentheses of their own, so the form shows how tightly each operator took its operands. Numbers,
truth values and strings are written as their token has them, identifiers by their name.
-/

namespace Monkey

open Text

def Identifier.render (identifier : Identifier) : String := identifier.name

mutual

def Expr.render : Expr → String
  | .identifier name => name.render
  | .integer token _ => token.literal
  | .boolean token _ => token.literal
  | .string token _ => token.literal
  | .unary _ operator right => "(" ++ operator.text ++ right.render ++ ")"
  | .binary _ left operator right =>
    "(" ++ left.render ++ " " ++ operator.text ++ " " ++ right.render ++ ")"
  | .conditional _ condition consequence none =>
    "if" ++ condition.render ++ " " ++ consequence.render
  | .conditional _ condition consequence (some alternative) =>
    "if" ++ condition.render ++ " " ++ consequence.render ++ "else " ++ alternative.render
  | .function token parameters body =>
    token.literal ++ "(" ++ joined ", " (parameters.map Identifier.render) ++ ") " ++ body.render
  | .call _ callee arguments =>
    callee.render ++ "(" ++ joined ", " (Expr.renderAll arguments) ++ ")"
  | .array _ elements => "[" ++ joined ", " (Expr.renderAll elements) ++ "]"
  | .hash _ pairs => "\x7b" ++ joined ", " (Expr.renderPairs pairs) ++ "\x7d"
  | .index _ left position => "(" ++ left.render ++ "[" ++ position.render ++ "])"
  | .slice _ left lower upper =>
    "(" ++ left.render ++ "[" ++ Expr.renderBound lower ++ ":" ++ Expr.renderBound upper ++ "])"
  | .unknown => ""

/-- A bound that was left out is written as nothing. -/
def Expr.renderBound : Option Expr → String
  | none => ""
  | some bound => bound.render

def Expr.renderAll : List Expr → List String
  | [] => []
  | expr :: rest => expr.render :: Expr.renderAll rest

def Expr.renderPairs : List (Expr × Expr) → List String
  | [] => []
  | (key, value) :: rest => (key.render ++ ":" ++ value.render) :: Expr.renderPairs rest

def Statement.render : Statement → String
  | .binding token name value =>
    token.literal ++ " " ++ name.render ++ " = " ++ Expr.renderBound value ++ ";"
  | .giveBack token none => token.literal ++ ";"
  | .giveBack token (some value) => token.literal ++ " " ++ value.render ++ ";"
  | .expression _ value => Expr.renderBound value
  | .block body => body.render

def Block.render : Block → String
  | ⟨_, statements⟩ => Statement.renderAll statements

/-- Statements follow one another with nothing between them. -/
def Statement.renderAll : List Statement → String
  | [] => ""
  | statement :: rest => statement.render ++ Statement.renderAll rest

end

def Program.render (program : Program) : String := Statement.renderAll program.statements

def Node.render : Node → String
  | .program tree => tree.render
  | .statement tree => tree.render
  | .expression tree => tree.render

/-! The literal of a node is that of its token, the literal of a program that of its first
statement. -/

def Expr.tokenLiteral : Expr → String
  | .identifier name => name.token.literal
  | .integer token _ | .boolean token _ | .string token _ | .unary token _ _ | .binary token _ _ _
  | .conditional token _ _ _ | .function token _ _ | .call token _ _ | .array token _
  | .hash token _ | .index token _ _ | .slice token _ _ _ => token.literal
  | .unknown => ""

def Statement.tokenLiteral : Statement → String
  | .binding token _ _ | .giveBack token _ | .expression token _ => token.literal
  | .block body => body.token.literal

def Program.tokenLiteral (program : Program) : String :=
  match program.statements with
  | [] => ""
  | first :: _ => first.tokenLiteral

def Node.tokenLiteral : Node → String
  | .program tree => tree.tokenLiteral
  | .statement tree => tree.tokenLiteral
  | .expression tree => tree.tokenLiteral

end Monkey

import Monkey.Syntax

/-!
When two syntax trees are the same but for places. Tokens count with kind and literal, so `7` and
`007` differ, and so do `(a)` and `a` as statements, which begin with different tokens.
-/

namespace Monkey

def Identifier.agrees (first second : Identifier) : Bool :=
  first.token.agrees second.token && first.name = second.name

def Identifier.allAgree : List Identifier → List Identifier → Bool
  | [], [] => true
  | first :: rest, second :: others => first.agrees second && allAgree rest others
  | _, _ => false

mutual

def Expr.agrees : Expr → Expr → Bool
  | .identifier name, .identifier name' => name.agrees name'
  | .integer token value, .integer token' value' => token.agrees token' && value = value'
  | .boolean token value, .boolean token' value' => token.agrees token' && value = value'
  | .string token value, .string token' value' => token.agrees token' && value = value'
  | .unary token operator right, .unary token' operator' right' =>
    token.agrees token' && operator = operator' && right.agrees right'
  | .binary token left operator right, .binary token' left' operator' right' =>
    token.agrees token' && left.agrees left' && operator = operator' && right.agrees right'
  | .conditional token condition yes no, .conditional token' condition' yes' no' =>
    token.agrees token' && condition.agrees condition' && yes.agrees yes' &&
      Block.alternativesAgree no no'
  | .function token parameters body, .function token' parameters' body' =>
    token.agrees token' && Identifier.allAgree parameters parameters' && body.agrees body'
  | .call token callee arguments, .call token' callee' arguments' =>
    token.agrees token' && callee.agrees callee' && Expr.allAgree arguments arguments'
  | .array token elements, .array token' elements' =>
    token.agrees token' && Expr.allAgree elements elements'
  | .hash token pairs, .hash token' pairs' => token.agrees token' && Expr.pairsAgree pairs pairs'
  | .index token left position, .index token' left' position' =>
    token.agrees token' && left.agrees left' && position.agrees position'
  | .slice token left lower upper, .slice token' left' lower' upper' =>
    token.agrees token' && left.agrees left' && Expr.valuesAgree lower lower' &&
      Expr.valuesAgree upper upper'
  | .unknown, .unknown => true
  | _, _ => false

def Block.alternativesAgree : Option Block → Option Block → Bool
  | none, none => true
  | some block, some block' => block.agrees block'
  | _, _ => false

def Expr.valuesAgree : Option Expr → Option Expr → Bool
  | none, none => true
  | some value, some value' => value.agrees value'
  | _, _ => false

def Expr.allAgree : List Expr → List Expr → Bool
  | [], [] => true
  | expr :: rest, expr' :: rest' => expr.agrees expr' && Expr.allAgree rest rest'
  | _, _ => false

/-- Pairs are compared in the order they were written. -/
def Expr.pairsAgree : List (Expr × Expr) → List (Expr × Expr) → Bool
  | [], [] => true
  | (key, value) :: rest, (key', value') :: rest' =>
    key.agrees key' && value.agrees value' && Expr.pairsAgree rest rest'
  | _, _ => false

def Statement.agrees : Statement → Statement → Bool
  | .binding token name value, .binding token' name' value' =>
    token.agrees token' && name.agrees name' && Expr.valuesAgree value value'
  | .giveBack token value, .giveBack token' value' =>
    token.agrees token' && Expr.valuesAgree value value'
  | .expression token value, .expression token' value' =>
    token.agrees token' && Expr.valuesAgree value value'
  | .block body, .block body' => body.agrees body'
  | _, _ => false

def Block.agrees : Block → Block → Bool
  | ⟨token, statements⟩, ⟨token', statements'⟩ =>
    token.agrees token' && Statement.allAgree statements statements'

def Statement.allAgree : List Statement → List Statement → Bool
  | [], [] => true
  | statement :: rest, statement' :: rest' =>
    statement.agrees statement' && Statement.allAgree rest rest'
  | _, _ => false

end

def Program.agrees (first second : Program) : Bool :=
  Statement.allAgree first.statements second.statements

end Monkey

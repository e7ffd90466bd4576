import Mathlib
import Monkey.Proofs.Reading.Completeness
import Monkey.Syntax.Agreement

/-!
Writing trees out. A tree is written with parentheses around every part that would be read
differently without them, and with as many more as one likes. However it is written, it is read back
as the same tree. Only one thing of the parentheses is left: a statement in a block keeps its first
token, and that may be one of them.
-/

namespace Monkey

/-- Where an expression stands in what is around it. -/
inductive Place where
  /-- Between delimiters, where nothing else competes for it. -/
  | alone
  | left (operator : Token)
  | right (operator : Token)
  /-- After the operator before a single operand. -/
  | signed
  /-- Before the bracket of a call, an index or a slice. -/
  | head

/-- Whether an expression has to be put in parentheses where it stands. -/
def Place.groups : Place → Expr → Bool
  | left outer, .binary inner .. =>
    (Precedence.ofKind inner.kind).rank < (Precedence.ofKind outer.kind).rank
  | right outer, .binary inner .. =>
    (Precedence.ofKind inner.kind).rank ≤ (Precedence.ofKind outer.kind).rank
  | signed, .binary .. | head, .binary .. | head, .unary .. => true
  | _, _ => false

/-- The operators between two operands. -/
def joining : List TokenKind :=
  [.plus, .minus, .asterisk, .slash, .equal, .notEqual, .less, .greater]

/-- What is written out. -/
inductive Part where
  /-- An expression without parentheses around it. -/
  | bare
  /-- An expression in its place, with or without parentheses. -/
  | placed (place : Place)
  | row
  | items
  | pairs
  | parameters
  | names
  | bound
  | block
  | alternative
  | statement
  | statements

@[reducible] def Part.Tree : Part → Type
  | bare | placed _ => Expr
  | row | items => List Expr
  | pairs => List (Expr × Expr)
  | parameters | names => List Identifier
  | bound => Option Expr
  | block => Block
  | alternative => Option Block
  | statement => Statement
  | statements => List Statement

/-- `Written marks part tree tokens` says that the tree can be written out as these tokens. A tree
keeps the tokens that it is read from, up to their places. What an expression statement keeps is
related by `marks` to the first token of what is written for it. -/
inductive Written (marks : Token → Token → Prop) :
    (part : Part) → part.Tree → List Token → Prop
  | identifier {stored token : Token} (kind : token.kind = .ident) (same : token.agrees stored) :
      Written marks .bare (.identifier ⟨stored, stored.literal⟩) [token]
  | integer {stored token : Token} (kind : token.kind = .int) (same : token.agrees stored)
      (fits : Nat.ofDigitChars 10 stored.literal.toList 0 ≤ maxInteger)
      (digits : stored.literal.length ≤ maxDigits) :
      Written marks .bare (.integer stored (Nat.ofDigitChars 10 stored.literal.toList 0)) [token]
  | string {stored token : Token} (kind : token.kind = .string) (same : token.agrees stored) :
      Written marks .bare (.string stored stored.literal) [token]
  | truth {stored token : Token} (kind : token.kind = .trueKeyword) (same : token.agrees stored) :
      Written marks .bare (.boolean stored true) [token]
  | falsehood {stored token : Token} (kind : token.kind = .falseKeyword)
      (same : token.agrees stored) : Written marks .bare (.boolean stored false) [token]
  | unary {stored operator : Token} {right : Expr} {tokens : List Token}
      (sign : operator.kind = .bang ∨ operator.kind = .minus) (same : operator.agrees stored)
      (inner : Written marks (.placed .signed) right tokens) :
      Written marks .bare (.unary stored (.ofText stored.literal) right) (operator :: tokens)
  | binary {stored operator : Token} {left right : Expr} {before after : List Token}
      (joins : operator.kind ∈ joining) (same : operator.agrees stored)
      (first : Written marks (.placed (.left stored)) left before)
      (second : Written marks (.placed (.right stored)) right after) :
      Written marks .bare (.binary stored left (.ofText stored.literal) right)
        (before ++ operator :: after)
  | conditional {stored token opening closing : Token} {condition : Expr} {yes : Block}
      {no : Option Block} {tokens middle later : List Token}
      (kind : token.kind = .ifKeyword) (same : token.agrees stored)
      (opens : opening.kind = .leftParen) (closes : closing.kind = .rightParen)
      (first : Written marks (.placed .alone) condition tokens)
      (second : Written marks .block yes middle) (third : Written marks .alternative no later) :
      Written marks .bare (.conditional stored condition yes no)
        (token :: opening :: tokens ++ closing :: middle ++ later)
  | function {stored token opening closing : Token} {list : List Identifier} {body : Block}
      {tokens middle : List Token}
      (kind : token.kind = .fnKeyword) (same : token.agrees stored)
      (opens : opening.kind = .leftParen) (closes : closing.kind = .rightParen)
      (first : Written marks .parameters list tokens) (second : Written marks .block body middle) :
      Written marks .bare (.function stored list body)
        (token :: opening :: tokens ++ closing :: middle)
  | call {stored opening closing : Token} {callee : Expr} {arguments : List Expr}
      {before tokens : List Token}
      (opens : opening.kind = .leftParen) (same : opening.agrees stored)
      (closes : closing.kind = .rightParen) (first : Written marks (.placed .head) callee before)
      (second : Written marks .row arguments tokens) :
      Written marks .bare (.call stored callee arguments)
        (before ++ opening :: tokens ++ [closing])
  | array {stored opening closing : Token} {elements : List Expr} {tokens : List Token}
      (opens : opening.kind = .leftBracket) (same : opening.agrees stored)
      (closes : closing.kind = .rightBracket) (inner : Written marks .row elements tokens) :
      Written marks .bare (.array stored elements) (opening :: tokens ++ [closing])
  | hash {stored opening closing : Token} {list : List (Expr × Expr)} {tokens : List Token}
      (opens : opening.kind = .leftBrace) (same : opening.agrees stored)
      (closes : closing.kind = .rightBrace) (inner : Written marks .pairs list tokens) :
      Written marks .bare (.hash stored list) (opening :: tokens ++ [closing])
  | index {stored opening closing : Token} {left position : Expr} {before tokens : List Token}
      (opens : opening.kind = .leftBracket) (same : opening.agrees stored)
      (closes : closing.kind = .rightBracket) (first : Written marks (.placed .head) left before)
      (second : Written marks (.placed .alone) position tokens) :
      Written marks .bare (.index stored left position) (before ++ opening :: tokens ++ [closing])
  | slice {stored opening colon closing : Token} {left : Expr} {lower upper : Option Expr}
      {before tokens later : List Token}
      (opens : opening.kind = .leftBracket) (same : opening.agrees stored)
      (divides : colon.kind = .colon) (closes : closing.kind = .rightBracket)
      (first : Written marks (.placed .head) left before)
      (second : Written marks .bound lower tokens) (third : Written marks .bound upper later) :
      Written marks .bare (.slice stored left lower upper)
        (before ++ opening :: tokens ++ colon :: later ++ [closing])
  /-- Parentheses may be left out where they are not needed. -/
  | plain {place : Place} {tree : Expr} {tokens : List Token} (free : place.groups tree = false)
      (inner : Written marks .bare tree tokens) : Written marks (.placed place) tree tokens
  /-- They may always be put. -/
  | grouped {place : Place} {opening closing : Token} {tree : Expr} {tokens : List Token}
      (opens : opening.kind = .leftParen) (closes : closing.kind = .rightParen)
      (inner : Written marks (.placed .alone) tree tokens) :
      Written marks (.placed place) tree (opening :: tokens ++ [closing])
  | noItems : Written marks .row [] []
  | someItems {trees : List Expr} {tokens : List Token}
      (inner : Written marks .items trees tokens) : Written marks .row trees tokens
  | item {tree : Expr} {tokens : List Token} (inner : Written marks (.placed .alone) tree tokens) :
      Written marks .items [tree] tokens
  | moreItems {comma : Token} {tree : Expr} {trees : List Expr} {tokens later : List Token}
      (divides : comma.kind = .comma) (first : Written marks (.placed .alone) tree tokens)
      (second : Written marks .items trees later) :
      Written marks .items (tree :: trees) (tokens ++ comma :: later)
  | noPairs : Written marks .pairs [] []
  | pair {colon : Token} {key value : Expr} {tokens later : List Token}
      (divides : colon.kind = .colon) (first : Written marks (.placed .alone) key tokens)
      (second : Written marks (.placed .alone) value later) :
      Written marks .pairs [(key, value)] (tokens ++ colon :: later)
  | morePairs {colon comma : Token} {key value : Expr} {next : Expr × Expr}
      {list : List (Expr × Expr)} {tokens middle later : List Token}
      (divides : colon.kind = .colon) (separates : comma.kind = .comma)
      (first : Written marks (.placed .alone) key tokens)
      (second : Written marks (.placed .alone) value middle)
      (third : Written marks .pairs (next :: list) later) :
      Written marks .pairs ((key, value) :: next :: list)
        (tokens ++ colon :: middle ++ comma :: later)
  | noParameters : Written marks .parameters [] []
  | someParameters {list : List Identifier} {tokens : List Token}
      (inner : Written marks .names list tokens) : Written marks .parameters list tokens
  | name {stored token : Token} (kind : token.kind = .ident) (same : token.agrees stored) :
      Written marks .names [⟨stored, stored.literal⟩] [token]
  | moreNames {stored token comma : Token} {list : List Identifier} {tokens : List Token}
      (kind : token.kind = .ident) (same : token.agrees stored) (divides : comma.kind = .comma)
      (inner : Written marks .names list tokens) :
      Written marks .names (⟨stored, stored.literal⟩ :: list) (token :: comma :: tokens)
  | noBound : Written marks .bound none []
  | someBound {tree : Expr} {tokens : List Token}
      (inner : Written marks (.placed .alone) tree tokens) : Written marks .bound (some tree) tokens
  | block {stored opening closing : Token} {list : List Statement} {tokens : List Token}
      (opens : opening.kind = .leftBrace) (same : opening.agrees stored)
      (closes : closing.kind = .rightBrace) (inner : Written marks .statements list tokens) :
      Written marks .block ⟨stored, list⟩ (opening :: tokens ++ [closing])
  | noAlternative : Written marks .alternative none []
  | someAlternative {token : Token} {body : Block} {tokens : List Token}
      (kind : token.kind = .elseKeyword) (inner : Written marks .block body tokens) :
      Written marks .alternative (some body) (token :: tokens)
  | binding {stored token held name assign semicolon : Token} {value : Expr} {tokens : List Token}
      (kind : token.kind = .letKeyword) (same : token.agrees stored)
      (named : name.kind = .ident) (alike : name.agrees held) (assigns : assign.kind = .assign)
      (ends : semicolon.kind = .semicolon) (inner : Written marks (.placed .alone) value tokens) :
      Written marks .statement (.binding stored ⟨held, held.literal⟩ (some value))
        (token :: name :: assign :: tokens ++ [semicolon])
  | giveBack {stored token semicolon : Token} {value : Expr} {tokens : List Token}
      (kind : token.kind = .returnKeyword) (same : token.agrees stored)
      (ends : semicolon.kind = .semicolon) (inner : Written marks (.placed .alone) value tokens) :
      Written marks .statement (.giveBack stored (some value)) (token :: tokens ++ [semicolon])
  | giveBackNothing {stored token semicolon : Token}
      (kind : token.kind = .returnKeyword) (same : token.agrees stored)
      (ends : semicolon.kind = .semicolon) :
      Written marks .statement (.giveBack stored none) [token, semicolon]
  | expression {stored token semicolon : Token} {value : Expr} {tokens : List Token}
      (marked : marks stored token) (ends : semicolon.kind = .semicolon)
      (inner : Written marks (.placed .alone) value (token :: tokens)) :
      Written marks .statement (.expression stored (some value))
        (token :: tokens ++ [semicolon])
  | noStatements : Written marks .statements [] []
  | moreStatements {statement : Statement} {list : List Statement} {tokens later : List Token}
      (first : Written marks .statement statement tokens)
      (second : Written marks .statements list later) :
      Written marks .statements (statement :: list) (tokens ++ later)

namespace Level

/-- The level on which an operator joins two operands. -/
def ofOperator : TokenKind → Level
  | .equal | .notEqual => equality
  | .less | .greater => comparison
  | .plus | .minus => sum
  | .asterisk | .slash => product
  | _ => chain

theorem mem_operators_ofOperator {kind : TokenKind} (joins : kind ∈ joining) :
    kind ∈ (ofOperator kind).operators := by
  cases kind <;> revert joins <;> decide

theorem ceiling_ofOperator {kind : TokenKind} (joins : kind ∈ joining) :
    (ofOperator kind).ceiling = (Precedence.ofKind kind).rank := by
  cases kind <;> revert joins <;> decide

/-- What is tighter than an operator is at least as tight as its operand on the right. -/
theorem ceiling_tighter_ofOperator_le {outer inner : TokenKind} (joins : outer ∈ joining)
    (joins' : inner ∈ joining)
    (tight : (Precedence.ofKind outer).rank < (Precedence.ofKind inner).rank) :
    (ofOperator outer).tighter.ceiling ≤ (ofOperator inner).ceiling := by
  rw [ceiling_ofOperator joins']
  cases outer <;> first
    | exact absurd joins (by decide)
    | exact tight

end Level

/-- The level of an expression without parentheses around it. -/
def Expr.level : Expr → Level
  | binary operator .. => .ofOperator operator.kind
  | unary .. => .sign
  | _ => .chain

namespace Place

/-- The loosest level that is read in a place. -/
def level : Place → Level
  | alone => .equality
  | left operator => .ofOperator operator.kind
  | right operator => (Level.ofOperator operator.kind).tighter
  | signed => .sign
  | head => .chain

/-- The place is next to an operator between two operands, if it is next to an operator at all. -/
def Proper : Place → Prop
  | left operator | right operator => operator.kind ∈ joining
  | _ => True

end Place

/-- Whatever comes after, the tokens begin with a phrase of which the tree fits. -/
def Restored (phrase : Phrase) (fits : phrase.Tree → Bool) (tokens : List Token) : Prop :=
  ∀ rest, ∃ read, Derives phrase (tokens ++ rest) read rest ∧ fits read = true

/-- What is written for a part is derived as a phrase with the same tree. -/
def Part.Restores : (part : Part) → part.Tree → List Token → Prop
  | bare, tree => Restored (.expression tree.level) (·.agrees tree)
  | placed place, tree => fun tokens =>
    place.Proper → Restored (.expression place.level) (·.agrees tree) tokens
  | row, trees => Restored .row (Expr.allAgree · trees)
  | items, trees => Restored .items (Expr.allAgree · trees)
  | pairs, trees => Restored .pairs (Expr.pairsAgree · trees)
  | parameters, list => Restored .parameters (Identifier.allAgree · list)
  | names, list => Restored .names (Identifier.allAgree · list)
  | bound, tree => Restored .bound (Expr.valuesAgree · tree)
  | block, tree => Restored .block (·.agrees tree)
  | alternative, tree => Restored .alternative (Block.alternativesAgree · tree)
  | statement, tree => Restored .statement (·.agrees tree)
  | statements, trees => Restored .statements (Statement.allAgree · trees)

/-- An expression statement keeps the first token that is written for it. -/
def keepsFirst (stored token : Token) : Prop := token.agrees stored = true

namespace Written

variable {marks : Token → Token → Prop} {tree : Expr} {tokens : List Token}

theorem joins_of_binary {stored : Token} {left right : Expr} {operator : Operator}
    (written : Written marks .bare (.binary stored left operator right) tokens) :
    stored.kind ∈ joining := by
  cases written with
  | binary joins same => exact (Token.agrees_iff.mp same).1 ▸ joins

/-- Where no parentheses are needed, the expression is as tight as what is read there. -/
theorem ceiling_le {place : Place} (written : Written marks .bare tree tokens)
    (proper : place.Proper) (free : place.groups tree = false) :
    place.level.ceiling ≤ tree.level.ceiling := by
  cases tree with
  | binary stored =>
    have joins := written.joins_of_binary
    cases place with
    | alone => exact (Level.ofOperator stored.kind).equality_le
    | left outer =>
      simp only [Place.groups, decide_eq_false_iff_not, Nat.not_lt] at free
      change (Level.ofOperator outer.kind).ceiling ≤ (Level.ofOperator stored.kind).ceiling
      rw [Level.ceiling_ofOperator proper, Level.ceiling_ofOperator joins]
      exact free
    | right outer =>
      simp only [Place.groups, decide_eq_false_iff_not, Nat.not_le] at free
      exact Level.ceiling_tighter_ofOperator_le proper joins free
    | signed | head => cases free
  | unary =>
    cases place with
    | left outer | right outer =>
      change outer.kind ∈ joining at proper
      simp only [Place.level, Expr.level]
      generalize outer.kind = kind at proper
      cases kind <;> revert proper <;> decide
    | alone => exact Level.sign.equality_le
    | signed => exact Nat.le_refl _
    | head => cases free
  | _ => exact place.level.le_chain

/-- By induction on how the part is written. -/
theorem restores {part : Part} {tree : part.Tree} (written : Written keepsFirst part tree tokens) :
    part.Restores tree tokens := by
  induction written with
  | identifier kind same =>
    exact fun rest => ⟨_, .identifier kind,
      by simp [Expr.agrees, Identifier.agrees, same, (Token.agrees_iff.mp same).2]⟩
  | integer kind same fits digits =>
    obtain ⟨-, literal⟩ := Token.agrees_iff.mp same
    exact fun rest => ⟨_, .integer kind (literal ▸ fits), by simp [Expr.agrees, same, literal]⟩
  | string kind same =>
    exact fun rest => ⟨_, .string kind,
      by simp [Expr.agrees, same, (Token.agrees_iff.mp same).2]⟩
  | truth kind same => exact fun rest => ⟨_, .truth kind, by simp [Expr.agrees, same]⟩
  | falsehood kind same => exact fun rest => ⟨_, .falsehood kind, by simp [Expr.agrees, same]⟩
  | unary sign same _ ih =>
    intro rest
    obtain ⟨right, derives, fits⟩ := ih trivial rest
    exact ⟨_, .unary sign derives,
      by simp [Expr.agrees, same, fits, (Token.agrees_iff.mp same).2]⟩
  | @binary stored operator _ _ before after joins same _ _ first second =>
    intro rest
    obtain ⟨kind, literal⟩ := Token.agrees_iff.mp same
    have proper : stored.kind ∈ joining := kind ▸ joins
    obtain ⟨left, derives, fits⟩ := first proper (operator :: after ++ rest)
    obtain ⟨right, derives', fits'⟩ := second proper rest
    simp only [List.append_assoc, List.cons_append]
    refine ⟨_, .binary derives ?_ derives', by simp [Expr.agrees, same, fits, fits', literal]⟩
    exact kind ▸ Level.mem_operators_ofOperator proper
  | @conditional _ token opening closing _ _ _ tokens middle later kind same opens closes _ _ _
      first second third =>
    intro rest
    obtain ⟨condition, derives, fits⟩ := first trivial (closing :: (middle ++ (later ++ rest)))
    obtain ⟨yes, derives', fits'⟩ := second (later ++ rest)
    obtain ⟨no, derives'', fits''⟩ := third rest
    simp only [List.append_assoc, List.cons_append]
    exact ⟨_, .conditional kind opens derives closes derives' derives'',
      by simp [Expr.agrees, same, fits, fits', fits'']⟩
  | @function _ token opening closing _ _ tokens middle kind same opens closes _ _ first second =>
    intro rest
    obtain ⟨list, derives, fits⟩ := first (closing :: (middle ++ rest))
    obtain ⟨body, derives', fits'⟩ := second rest
    simp only [List.append_assoc, List.cons_append]
    exact ⟨_, .function kind opens derives closes derives',
      by simp [Expr.agrees, same, fits, fits']⟩
  | @call _ opening closing _ _ before tokens opens same closes _ _ first second =>
    intro rest
    obtain ⟨callee, derives, fits⟩ := first trivial (opening :: (tokens ++ closing :: rest))
    obtain ⟨arguments, derives', fits'⟩ := second (closing :: rest)
    simp only [List.append_assoc, List.cons_append, List.nil_append]
    exact ⟨_, .call derives opens derives' closes, by simp [Expr.agrees, same, fits, fits']⟩
  | @array _ opening closing _ tokens opens same closes _ ih =>
    intro rest
    obtain ⟨elements, derives, fits⟩ := ih (closing :: rest)
    simp only [List.append_assoc, List.cons_append, List.nil_append]
    exact ⟨_, .array opens derives closes, by simp [Expr.agrees, same, fits]⟩
  | @hash _ opening closing _ tokens opens same closes _ ih =>
    intro rest
    obtain ⟨pairs, derives, fits⟩ := ih (closing :: rest)
    simp only [List.append_assoc, List.cons_append, List.nil_append]
    exact ⟨_, .hash opens derives closes, by simp [Expr.agrees, same, fits]⟩
  | @index _ opening closing _ _ before tokens opens same closes _ _ first second =>
    intro rest
    obtain ⟨left, derives, fits⟩ := first trivial (opening :: (tokens ++ closing :: rest))
    obtain ⟨position, derives', fits'⟩ := second trivial (closing :: rest)
    simp only [List.append_assoc, List.cons_append, List.nil_append]
    exact ⟨_, .index derives opens derives' closes, by simp [Expr.agrees, same, fits, fits']⟩
  | @slice _ opening colon closing _ _ _ before tokens later opens same divides closes _ _ _ first
      second third =>
    intro rest
    obtain ⟨left, derives, fits⟩ := first trivial
      (opening :: (tokens ++ colon :: (later ++ closing :: rest)))
    obtain ⟨lower, derives', fits'⟩ := second (colon :: (later ++ closing :: rest))
    obtain ⟨upper, derives'', fits''⟩ := third (closing :: rest)
    simp only [List.append_assoc, List.cons_append, List.nil_append]
    exact ⟨_, .slice derives opens derives' divides derives'' closes,
      by simp [Expr.agrees, same, fits, fits', fits'']⟩
  | plain free inner ih =>
    intro proper rest
    obtain ⟨read, derives, fits⟩ := ih rest
    exact ⟨read, derives.loosen (inner.ceiling_le proper free), fits⟩
  | @grouped place opening closing _ tokens opens closes _ ih =>
    intro _ rest
    obtain ⟨read, derives, fits⟩ := ih trivial (closing :: rest)
    simp only [List.append_assoc, List.cons_append, List.nil_append]
    exact ⟨read, (Derives.group opens derives closes).loosen place.level.le_chain, fits⟩
  | noItems => exact fun rest => ⟨[], .noItems, by simp [Expr.allAgree]⟩
  | someItems _ ih =>
    intro rest
    obtain ⟨read, derives, fits⟩ := ih rest
    exact ⟨read, .someItems derives, fits⟩
  | item _ ih =>
    intro rest
    obtain ⟨read, derives, fits⟩ := ih trivial rest
    exact ⟨_, .item derives, by simp [Expr.allAgree, fits]⟩
  | @moreItems comma _ _ tokens later divides _ _ first second =>
    intro rest
    obtain ⟨read, derives, fits⟩ := first trivial (comma :: (later ++ rest))
    obtain ⟨others, derives', fits'⟩ := second rest
    simp only [List.append_assoc, List.cons_append]
    exact ⟨_, .moreItems derives divides derives', by simp [Expr.allAgree, fits, fits']⟩
  | noPairs => exact fun rest => ⟨[], .noPairs, by simp [Expr.pairsAgree]⟩
  | @pair colon _ _ tokens later divides _ _ first second =>
    intro rest
    obtain ⟨key, derives, fits⟩ := first trivial (colon :: (later ++ rest))
    obtain ⟨value, derives', fits'⟩ := second trivial rest
    simp only [List.append_assoc, List.cons_append]
    exact ⟨_, .pair derives divides derives', by simp [Expr.pairsAgree, fits, fits']⟩
  | @morePairs colon comma _ _ _ _ tokens middle later divides separates _ _ _ first second third =>
    intro rest
    obtain ⟨key, derives, fits⟩ := first trivial (colon :: (middle ++ comma :: (later ++ rest)))
    obtain ⟨value, derives', fits'⟩ := second trivial (comma :: (later ++ rest))
    obtain ⟨others, derives'', fits''⟩ := third rest
    simp only [List.append_assoc, List.cons_append]
    exact ⟨_, .morePairs derives divides derives' separates derives'',
      by simp [Expr.pairsAgree, fits, fits', fits'']⟩
  | noParameters => exact fun rest => ⟨[], .noParameters, rfl⟩
  | someParameters _ ih =>
    intro rest
    obtain ⟨read, derives, fits⟩ := ih rest
    exact ⟨read, .someParameters derives, fits⟩
  | name kind same =>
    exact fun rest => ⟨_, .name kind,
      by simp [Identifier.allAgree, Identifier.agrees, same, (Token.agrees_iff.mp same).2]⟩
  | moreNames kind same divides _ ih =>
    intro rest
    obtain ⟨read, derives, fits⟩ := ih rest
    exact ⟨_, .moreNames kind divides derives,
      by simp [Identifier.allAgree, Identifier.agrees, same, fits, (Token.agrees_iff.mp same).2]⟩
  | noBound => exact fun rest => ⟨none, .noBound, by simp [Expr.valuesAgree]⟩
  | someBound _ ih =>
    intro rest
    obtain ⟨read, derives, fits⟩ := ih trivial rest
    exact ⟨some read, .someBound derives, by simp [Expr.valuesAgree, fits]⟩
  | @block _ opening closing _ tokens opens same closes _ ih =>
    intro rest
    obtain ⟨read, derives, fits⟩ := ih (closing :: rest)
    simp only [List.append_assoc, List.cons_append, List.nil_append]
    exact ⟨_, .block opens derives closes, by simp [Block.agrees, same, fits]⟩
  | noAlternative => exact fun rest => ⟨none, .noAlternative, by simp [Block.alternativesAgree]⟩
  | someAlternative kind _ ih =>
    intro rest
    obtain ⟨read, derives, fits⟩ := ih rest
    exact ⟨some read, .someAlternative kind derives, by simp [Block.alternativesAgree, fits]⟩
  | @binding _ _ _ _ _ semicolon _ _ kind same named alike assigns ends _ ih =>
    intro rest
    obtain ⟨value, derives, fits⟩ := ih trivial (semicolon :: rest)
    simp only [List.append_assoc, List.cons_append, List.nil_append]
    refine ⟨_, .binding kind named assigns derives (.semicolon ends), ?_⟩
    simp [Statement.agrees, Identifier.agrees, Expr.valuesAgree, same, alike, fits,
      (Token.agrees_iff.mp alike).2]
  | @giveBack _ _ semicolon _ _ kind same ends _ ih =>
    intro rest
    obtain ⟨value, derives, fits⟩ := ih trivial (semicolon :: rest)
    simp only [List.append_assoc, List.cons_append, List.nil_append]
    exact ⟨_, .giveBack kind derives (.semicolon ends),
      by simp [Statement.agrees, Expr.valuesAgree, same, fits]⟩
  | giveBackNothing kind same ends =>
    exact fun rest => ⟨_, .giveBackNothing kind (.semicolon ends),
      by simp [Statement.agrees, Expr.valuesAgree, same]⟩
  | @expression _ _ semicolon _ _ marked ends _ ih =>
    intro rest
    obtain ⟨value, derives, fits⟩ := ih trivial (semicolon :: rest)
    simp only [List.append_assoc, List.cons_append, List.nil_append]
    have same : Token.agrees _ _ = true := marked
    exact ⟨_, .expression derives (.semicolon ends),
      by simp [Statement.agrees, Expr.valuesAgree, same, fits]⟩
  | noStatements => exact fun rest => ⟨[], .noStatements, by simp [Statement.allAgree]⟩
  | @moreStatements _ _ tokens later _ _ first second =>
    intro rest
    obtain ⟨read, derives, fits⟩ := first (later ++ rest)
    obtain ⟨others, derives', fits'⟩ := second rest
    simp only [List.append_assoc]
    exact ⟨_, .moreStatements derives derives', by simp [Statement.allAgree, fits, fits']⟩

/-- No row of digits that stands for an integer of a tree is too long to be converted. -/
theorem short {part : Part} {tree : part.Tree} (written : Written marks part tree tokens) :
    Short tokens := by
  induction written with
  | integer kind same fits digits =>
    have literal := (Token.agrees_iff.mp same).2
    simpa [Short, literal] using fun _ => digits
  | unary sign => rcases sign with sign | sign <;> simp_all [Short]
  | binary joins =>
    have other : ∀ {kind : TokenKind}, kind ∈ joining → kind ≠ .int := by
      intro kind
      cases kind <;> decide
    simp_all [Short, or_imp, other joins]
  | _ => simp_all [Short, or_imp, forall_and]

end Written

/-- An expression that is written out, with or without a semicolon after it, is read without a
problem as one statement, and its tree is the same. -/
theorem parseTokens_written {tree : Expr} {tokens closing : List Token} (ending : Token)
    (written : Written keepsFirst (.placed .alone) tree tokens)
    (closes : closing = [] ∨ ∃ semicolon, semicolon.kind = .semicolon ∧ closing = [semicolon]) :
    ∃ first read, parseTokens (tokens ++ closing ++ [ending]) =
      ⟨⟨[.expression first (some read)]⟩, [], false⟩ ∧ read.agrees tree = true := by
  obtain ⟨read, derives, fits⟩ := written.restores trivial closing
  have ends : Ends (· ∉ continuing) closing [] := by
    rcases closes with rfl | ⟨semicolon, kind, rfl⟩
    · exact .without (by decide)
    · exact .semicolon kind
  have short : Short (tokens ++ closing) := by
    rcases closes with rfl | ⟨semicolon, kind, rfl⟩
    · simpa using written.short
    · simpa [Short, or_imp, forall_and, kind] using written.short
  have some := derives.length_lt rfl
  generalize tokens ++ closing = whole at derives short some
  obtain _ | ⟨first, others⟩ := whole
  · exact absurd some (Nat.not_lt_zero _)
  refine ⟨first, read, ?_, fits⟩
  exact parseTokens_of_derives (.moreStatements (.expression derives ends) .noStatements) short
    ending

/-- A sum that is multiplied needs its parentheses, a sign after an operator needs none. -/
theorem parseTokens_multiplied_sum :
    ∃ first read, parseTokens ([⟨.leftParen, "(", .start⟩, ⟨.ident, "a", .start⟩,
        ⟨.plus, "+", .start⟩, ⟨.ident, "b", .start⟩, ⟨.rightParen, ")", .start⟩,
        ⟨.asterisk, "*", .start⟩, ⟨.minus, "-", .start⟩, ⟨.ident, "c", .start⟩] ++ [] ++
        [⟨.eof, "", .start⟩]) = ⟨⟨[.expression first (some read)]⟩, [], false⟩ ∧
      read.agrees (.binary ⟨.asterisk, "*", .start⟩
        (.binary ⟨.plus, "+", .start⟩ (.identifier ⟨⟨.ident, "a", .start⟩, "a"⟩) .plus
          (.identifier ⟨⟨.ident, "b", .start⟩, "b"⟩)) .times
        (.unary ⟨.minus, "-", .start⟩ .minus
          (.identifier ⟨⟨.ident, "c", .start⟩, "c"⟩))) = true := by
  have name (literal : String) (place : Place) : Written keepsFirst (.placed place)
      (.identifier ⟨⟨.ident, literal, .start⟩, literal⟩) [⟨.ident, literal, .start⟩] :=
    .plain (by cases place <;> rfl) (.identifier rfl (by simp [Token.agrees]))
  have sum : Written keepsFirst .bare (.binary ⟨.plus, "+", .start⟩
      (.identifier ⟨⟨.ident, "a", .start⟩, "a"⟩) (.ofText "+")
      (.identifier ⟨⟨.ident, "b", .start⟩, "b"⟩))
      ([⟨.ident, "a", .start⟩] ++ ⟨.plus, "+", .start⟩ :: [⟨.ident, "b", .start⟩]) :=
    .binary (by decide) rfl (name "a" _) (name "b" _)
  have negative : Written keepsFirst .bare (.unary ⟨.minus, "-", .start⟩ (.ofText "-")
      (.identifier ⟨⟨.ident, "c", .start⟩, "c"⟩))
      (⟨.minus, "-", .start⟩ :: [⟨.ident, "c", .start⟩]) :=
    .unary (.inr rfl) rfl (name "c" _)
  exact parseTokens_written _ (.plain rfl (.binary (by decide) rfl
    (.grouped rfl rfl (.plain rfl sum)) (.plain rfl negative))) (.inl rfl)

/-- Parentheses at the beginning of a statement in a block are not forgotten: a tree that is read
without them can be written out with them, and what is then read is another tree. -/
theorem parse_grouped_statement :
    ∃ first tree, parse "if (x) \x7b a; \x7d" = ⟨⟨[.expression first (some tree)]⟩, [], false⟩ ∧
      Written (fun _ _ => True) (.placed .alone) tree
        (tokenize "if (x) \x7b (a); \x7d").dropLast ∧
      ¬ ∃ first read, parse "if (x) \x7b (a); \x7d" =
        ⟨⟨[.expression first (some read)]⟩, [], false⟩ ∧ read.agrees tree = true := by
  have plain : parse "if (x) \x7b a; \x7d" =
      ⟨⟨[.expression ⟨.ifKeyword, "if", ⟨1, 1⟩⟩ (some (.conditional ⟨.ifKeyword, "if", ⟨1, 1⟩⟩
        (.identifier ⟨⟨.ident, "x", ⟨1, 5⟩⟩, "x"⟩) ⟨⟨.leftBrace, "\x7b", ⟨1, 8⟩⟩,
          [.expression ⟨.ident, "a", ⟨1, 10⟩⟩ (some (.identifier ⟨⟨.ident, "a", ⟨1, 10⟩⟩, "a"⟩))]⟩
        none))]⟩, [], false⟩ := by cbv
  have tokens : (tokenize "if (x) \x7b (a); \x7d").dropLast =
      ⟨.ifKeyword, "if", ⟨1, 1⟩⟩ :: ⟨.leftParen, "(", ⟨1, 4⟩⟩ :: [⟨.ident, "x", ⟨1, 5⟩⟩] ++
        ⟨.rightParen, ")", ⟨1, 6⟩⟩ :: (⟨.leftBrace, "\x7b", ⟨1, 8⟩⟩ ::
          (⟨.leftParen, "(", ⟨1, 10⟩⟩ :: [⟨.ident, "a", ⟨1, 11⟩⟩] ++ [⟨.rightParen, ")", ⟨1, 12⟩⟩] ++
          [⟨.semicolon, ";", ⟨1, 13⟩⟩] ++ []) ++ [⟨.rightBrace, "\x7d", ⟨1, 15⟩⟩]) ++ [] := by cbv
  refine ⟨_, _, plain, ?_, ?_⟩
  · rw [tokens]
    have inner : Written (fun _ _ => True) (.placed .alone)
        (.identifier ⟨⟨.ident, "a", ⟨1, 10⟩⟩, "a"⟩) [⟨.ident, "a", ⟨1, 11⟩⟩] :=
      .plain rfl (.identifier rfl (by decide))
    refine .plain rfl (.conditional rfl (by decide) rfl rfl
      (.plain rfl (.identifier rfl (by decide))) ?_ .noAlternative)
    refine .block rfl (by decide) rfl (.moreStatements ?_ .noStatements)
    exact .expression trivial rfl (.grouped rfl rfl inner)
  · intro read
    obtain ⟨first, read, grouped, same⟩ := read
    have other : parse "if (x) \x7b (a); \x7d" =
        ⟨⟨[.expression ⟨.ifKeyword, "if", ⟨1, 1⟩⟩ (some (.conditional ⟨.ifKeyword, "if", ⟨1, 1⟩⟩
          (.identifier ⟨⟨.ident, "x", ⟨1, 5⟩⟩, "x"⟩) ⟨⟨.leftBrace, "\x7b", ⟨1, 8⟩⟩,
            [.expression ⟨.leftParen, "(", ⟨1, 10⟩⟩
              (some (.identifier ⟨⟨.ident, "a", ⟨1, 11⟩⟩, "a"⟩))]⟩
          none))]⟩, [], false⟩ := by cbv
    rw [other] at grouped
    simp only [Parsed.mk.injEq, Program.mk.injEq, List.cons.injEq, Statement.expression.injEq,
      Option.some.injEq, and_true] at grouped
    rw [← grouped.2] at same
    simp [Expr.agrees, Block.agrees, Statement.allAgree, Statement.agrees, Token.agrees] at same

end Monkey

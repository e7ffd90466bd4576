import Monkey.Syntax.Reading

/-!
The grammar of the language, apart from how it is read. A derivation says which tokens from the
front of a row make up a phrase, which tree the phrase has and which tokens are left over. The
tokens left over matter in one place only: a statement may leave its semicolon out where nothing
that comes after could carry it on.
-/

namespace Monkey

/-- The levels of expressions, from the loosest. Below the four levels of operators between two
operands stand the operators before one, and below those the chains of calls and indices. -/
inductive Level where
  | equality | comparison | sum | product | sign | chain

namespace Level

/-- The level of the operands of a level. -/
def tighter : Level → Level
  | equality => comparison
  | comparison => sum
  | sum => product
  | product => sign
  | sign | chain => chain

/-- The operators that join two operands on a level. -/
def operators : Level → List TokenKind
  | equality => [.equal, .notEqual]
  | comparison => [.less, .greater]
  | sum => [.plus, .minus]
  | product => [.asterisk, .slash]
  | sign | chain => []

end Level

/-- What the grammar has rules for. -/
inductive Phrase where
  | expression (level : Level)
  /-- Expressions between commas, maybe none. -/
  | row
  /-- Expressions between commas, one at least. -/
  | items
  | pairs
  | parameters
  /-- Names between commas, one at least. -/
  | names
  /-- An expression that may be left out. -/
  | bound
  | block
  /-- An `else` with its block, which may be left out. -/
  | alternative
  | statement
  | statements
  | program

@[reducible] def Phrase.Tree : Phrase → Type
  | expression _ => Expr
  | row | items => List Expr
  | pairs => List (Expr × Expr)
  | parameters | names => List Identifier
  | bound => Option Expr
  | block => Block
  | alternative => Option Block
  | statement => Statement
  | statements => List Statement
  | program => Program

/-- The kind of the token that comes next. The end of the text comes after all tokens. -/
def following (tokens : List Token) : TokenKind := (tokens.head?.map Token.kind).getD .eof

@[simp] theorem following_nil : following [] = .eof := rfl

@[simp] theorem following_cons (token : Token) (tokens : List Token) :
    following (token :: tokens) = token.kind := rfl

/-- The tokens that carry on an expression before them. -/
def continuing : List TokenKind :=
  [.plus, .minus, .asterisk, .slash, .equal, .notEqual, .less, .greater, .leftParen, .leftBracket]

/-- How a statement ends: with its semicolon, or without one before a token that allows it. -/
inductive Ends (allowed : TokenKind → Prop) : List Token → List Token → Prop
  | semicolon {token : Token} {rest : List Token} (kind : token.kind = .semicolon) :
      Ends allowed (token :: rest) rest
  | without {rest : List Token} (stops : allowed (following rest)) : Ends allowed rest rest

/-- The rules of the grammar. `Derives phrase tokens tree rest` says that `tokens` begin with a
phrase that has this tree, and that `rest` are the tokens after it. -/
inductive Derives : (phrase : Phrase) → List Token → phrase.Tree → List Token → Prop
  -- Expressions of the levels of operators.
  | tighter {level : Level} {tokens rest : List Token} {tree : Expr}
      (inner : Derives (.expression level.tighter) tokens tree rest) :
      Derives (.expression level) tokens tree rest
  | binary {level : Level} {tokens middle rest : List Token} {operator : Token} {left right : Expr}
      (first : Derives (.expression level) tokens left (operator :: middle))
      (joins : operator.kind ∈ level.operators)
      (second : Derives (.expression level.tighter) middle right rest) :
      Derives (.expression level) tokens
        (.binary operator left (.ofText operator.literal) right) rest
  | unary {tokens rest : List Token} {operator : Token} {right : Expr}
      (sign : operator.kind = .bang ∨ operator.kind = .minus)
      (inner : Derives (.expression .sign) tokens right rest) :
      Derives (.expression .sign) (operator :: tokens)
        (.unary operator (.ofText operator.literal) right) rest
  -- Chains of calls, indices and slices.
  | call {tokens middle rest : List Token} {opening closing : Token} {callee : Expr}
      {arguments : List Expr}
      (first : Derives (.expression .chain) tokens callee (opening :: middle))
      (opens : opening.kind = .leftParen)
      (second : Derives .row middle arguments (closing :: rest))
      (closes : closing.kind = .rightParen) :
      Derives (.expression .chain) tokens (.call opening callee arguments) rest
  | index {tokens middle rest : List Token} {opening closing : Token} {left position : Expr}
      (first : Derives (.expression .chain) tokens left (opening :: middle))
      (opens : opening.kind = .leftBracket)
      (second : Derives (.expression .equality) middle position (closing :: rest))
      (closes : closing.kind = .rightBracket) :
      Derives (.expression .chain) tokens (.index opening left position) rest
  | slice {tokens middle later rest : List Token} {opening colon closing : Token} {left : Expr}
      {lower upper : Option Expr}
      (first : Derives (.expression .chain) tokens left (opening :: middle))
      (opens : opening.kind = .leftBracket)
      (second : Derives .bound middle lower (colon :: later))
      (divides : colon.kind = .colon)
      (third : Derives .bound later upper (closing :: rest))
      (closes : closing.kind = .rightBracket) :
      Derives (.expression .chain) tokens (.slice opening left lower upper) rest
  -- What chains begin with.
  | identifier {token : Token} {rest : List Token} (kind : token.kind = .ident) :
      Derives (.expression .chain) (token :: rest) (.identifier ⟨token, token.literal⟩) rest
  | integer {token : Token} {rest : List Token} (kind : token.kind = .int)
      (fits : Nat.ofDigitChars 10 token.literal.toList 0 ≤ maxInteger) :
      Derives (.expression .chain) (token :: rest)
        (.integer token (Nat.ofDigitChars 10 token.literal.toList 0)) rest
  | string {token : Token} {rest : List Token} (kind : token.kind = .string) :
      Derives (.expression .chain) (token :: rest) (.string token token.literal) rest
  | truth {token : Token} {rest : List Token} (kind : token.kind = .trueKeyword) :
      Derives (.expression .chain) (token :: rest) (.boolean token true) rest
  | falsehood {token : Token} {rest : List Token} (kind : token.kind = .falseKeyword) :
      Derives (.expression .chain) (token :: rest) (.boolean token false) rest
  | group {tokens rest : List Token} {opening closing : Token} {tree : Expr}
      (opens : opening.kind = .leftParen)
      (inner : Derives (.expression .equality) tokens tree (closing :: rest))
      (closes : closing.kind = .rightParen) :
      Derives (.expression .chain) (opening :: tokens) tree rest
  | conditional {tokens middle later rest : List Token} {token opening closing : Token}
      {condition : Expr} {consequence : Block} {alternative : Option Block}
      (kind : token.kind = .ifKeyword) (opens : opening.kind = .leftParen)
      (first : Derives (.expression .equality) tokens condition (closing :: middle))
      (closes : closing.kind = .rightParen)
      (second : Derives .block middle consequence later)
      (third : Derives .alternative later alternative rest) :
      Derives (.expression .chain) (token :: opening :: tokens)
        (.conditional token condition consequence alternative) rest
  | function {tokens middle rest : List Token} {token opening closing : Token}
      {names : List Identifier} {body : Block}
      (kind : token.kind = .fnKeyword) (opens : opening.kind = .leftParen)
      (first : Derives .parameters tokens names (closing :: middle))
      (closes : closing.kind = .rightParen)
      (second : Derives .block middle body rest) :
      Derives (.expression .chain) (token :: opening :: tokens) (.function token names body) rest
  | array {tokens rest : List Token} {opening closing : Token} {elements : List Expr}
      (opens : opening.kind = .leftBracket)
      (inner : Derives .row tokens elements (closing :: rest))
      (closes : closing.kind = .rightBracket) :
      Derives (.expression .chain) (opening :: tokens) (.array opening elements) rest
  | hash {tokens rest : List Token} {opening closing : Token} {pairs : List (Expr × Expr)}
      (opens : opening.kind = .leftBrace)
      (inner : Derives .pairs tokens pairs (closing :: rest))
      (closes : closing.kind = .rightBrace) :
      Derives (.expression .chain) (opening :: tokens) (.hash opening pairs) rest
  -- The parts of brackets.
  | noItems {rest : List Token} : Derives .row rest [] rest
  | someItems {tokens rest : List Token} {trees : List Expr}
      (inner : Derives .items tokens trees rest) : Derives .row tokens trees rest
  | item {tokens rest : List Token} {tree : Expr}
      (inner : Derives (.expression .equality) tokens tree rest) : Derives .items tokens [tree] rest
  | moreItems {tokens middle rest : List Token} {comma : Token} {tree : Expr} {trees : List Expr}
      (first : Derives (.expression .equality) tokens tree (comma :: middle))
      (divides : comma.kind = .comma)
      (second : Derives .items middle trees rest) :
      Derives .items tokens (tree :: trees) rest
  | noPairs {rest : List Token} : Derives .pairs rest [] rest
  | pair {tokens middle rest : List Token} {colon : Token} {key value : Expr}
      (first : Derives (.expression .equality) tokens key (colon :: middle))
      (divides : colon.kind = .colon)
      (second : Derives (.expression .equality) middle value rest) :
      Derives .pairs tokens [(key, value)] rest
  /-- After a comma there may be no pair any more. -/
  | morePairs {tokens middle later rest : List Token} {colon comma : Token} {key value : Expr}
      {pairs : List (Expr × Expr)}
      (first : Derives (.expression .equality) tokens key (colon :: middle))
      (divides : colon.kind = .colon)
      (second : Derives (.expression .equality) middle value (comma :: later))
      (separates : comma.kind = .comma)
      (third : Derives .pairs later pairs rest) :
      Derives .pairs tokens ((key, value) :: pairs) rest
  | noParameters {rest : List Token} : Derives .parameters rest [] rest
  | someParameters {tokens rest : List Token} {names : List Identifier}
      (inner : Derives .names tokens names rest) : Derives .parameters tokens names rest
  | name {token : Token} {rest : List Token} (kind : token.kind = .ident) :
      Derives .names (token :: rest) [⟨token, token.literal⟩] rest
  | moreNames {token comma : Token} {tokens rest : List Token} {names : List Identifier}
      (kind : token.kind = .ident) (divides : comma.kind = .comma)
      (inner : Derives .names tokens names rest) :
      Derives .names (token :: comma :: tokens) (⟨token, token.literal⟩ :: names) rest
  | noBound {rest : List Token} : Derives .bound rest none rest
  | someBound {tokens rest : List Token} {tree : Expr}
      (inner : Derives (.expression .equality) tokens tree rest) :
      Derives .bound tokens (some tree) rest
  | block {tokens rest : List Token} {opening closing : Token} {statements : List Statement}
      (opens : opening.kind = .leftBrace)
      (inner : Derives .statements tokens statements (closing :: rest))
      (closes : closing.kind = .rightBrace) :
      Derives .block (opening :: tokens) ⟨opening, statements⟩ rest
  | noAlternative {rest : List Token} : Derives .alternative rest none rest
  | someAlternative {token : Token} {tokens rest : List Token} {body : Block}
      (kind : token.kind = .elseKeyword) (inner : Derives .block tokens body rest) :
      Derives .alternative (token :: tokens) (some body) rest
  -- Statements.
  | binding {token name assign : Token} {tokens middle rest : List Token} {value : Expr}
      (kind : token.kind = .letKeyword) (named : name.kind = .ident)
      (assigns : assign.kind = .assign)
      (inner : Derives (.expression .equality) tokens value middle)
      (ends : Ends (· ∉ continuing) middle rest) :
      Derives .statement (token :: name :: assign :: tokens)
        (.binding token ⟨name, name.literal⟩ (some value)) rest
  | giveBack {token : Token} {tokens middle rest : List Token} {value : Expr}
      (kind : token.kind = .returnKeyword)
      (inner : Derives (.expression .equality) tokens value middle)
      (ends : Ends (· ∉ continuing) middle rest) :
      Derives .statement (token :: tokens) (.giveBack token (some value)) rest
  | giveBackNothing {token : Token} {tokens rest : List Token}
      (kind : token.kind = .returnKeyword)
      (ends : Ends (· ∈ [.semicolon, .rightBrace, .eof]) tokens rest) :
      Derives .statement (token :: tokens) (.giveBack token none) rest
  | expression {token : Token} {tokens middle rest : List Token} {value : Expr}
      (inner : Derives (.expression .equality) (token :: tokens) value middle)
      (ends : Ends (· ∉ continuing) middle rest) :
      Derives .statement (token :: tokens) (.expression token (some value)) rest
  | noStatements {rest : List Token} : Derives .statements rest [] rest
  | moreStatements {tokens middle rest : List Token} {statement : Statement}
      {statements : List Statement}
      (first : Derives .statement tokens statement middle)
      (second : Derives .statements middle statements rest) :
      Derives .statements tokens (statement :: statements) rest
  /-- A program is the statements before the token that stands for the end of the text. -/
  | program {tokens : List Token} {ending : Token} {statements : List Statement}
      (inner : Derives .statements tokens statements [])
      (ends : ending.kind = .eof) :
      Derives .program (tokens ++ [ending]) ⟨statements⟩ []

theorem Ends.suffix {allowed : TokenKind → Prop} {tokens rest : List Token}
    (ends : Ends allowed tokens rest) : rest <:+ tokens := by
  cases ends with
  | semicolon => exact List.suffix_cons _ _
  | without => exact List.suffix_rfl

/-- The tokens that an expression can begin with. -/
def starters : List TokenKind :=
  [.ident, .int, .string, .trueKeyword, .falseKeyword, .bang, .minus, .leftParen, .ifKeyword,
    .fnKeyword, .leftBracket, .leftBrace]

namespace Phrase

/-- Whether a phrase can be made up of no tokens at all. -/
def nullable : Phrase → Bool
  | row | pairs | parameters | bound | alternative | statements => true
  | _ => false

/-- What an expression or a statement can begin with. -/
def opens : Phrase → TokenKind → Prop
  | expression _, kind | items, kind => kind ∈ starters
  | statement, kind => kind ∈ .letKeyword :: .returnKeyword :: starters
  | _, _ => True

end Phrase

namespace Derives

variable {phrase : Phrase} {tokens rest : List Token}

/-- What is left over are the last of the tokens. -/
theorem suffix {tree : phrase.Tree} (derives : Derives phrase tokens tree rest) :
    rest <:+ tokens := by
  have past {token : Token} {middle whole : List Token} (found : token :: middle <:+ whole) :
      middle <:+ whole := (List.suffix_cons token middle).trans found
  induction derives with
  | tighter _ ih | someItems _ ih | item _ ih | someParameters _ ih | someBound _ ih => exact ih
  | binary _ _ _ first second | moreItems _ _ _ first second | pair _ _ _ first second =>
    exact second.trans (past first)
  | call _ _ _ _ first second | index _ _ _ _ first second =>
    exact past (second.trans (past first))
  | slice _ _ _ _ _ _ first second third =>
    exact past (third.trans (past (second.trans (past first))))
  | unary _ _ ih | someAlternative _ _ ih => exact ih.trans (List.suffix_cons _ _)
  | identifier | integer | string | truth | falsehood | name => exact List.suffix_cons _ _
  | group _ _ _ ih | array _ _ _ ih | hash _ _ _ ih | block _ _ _ ih =>
    exact (past ih).trans (List.suffix_cons _ _)
  | conditional _ _ _ _ _ _ first second third =>
    exact (third.trans (second.trans (past first))).trans (past (List.suffix_cons _ _))
  | function _ _ _ _ _ first second =>
    exact (second.trans (past first)).trans (past (List.suffix_cons _ _))
  | noItems | noPairs | noParameters | noBound | noAlternative | noStatements =>
    exact List.suffix_rfl
  | morePairs _ _ _ _ _ first second third =>
    exact third.trans (past (second.trans (past first)))
  | moreNames _ _ _ ih => exact ih.trans (past (List.suffix_cons _ _))
  | binding _ _ _ _ ends ih =>
    exact (ends.suffix.trans ih).trans (past (past (List.suffix_cons _ _)))
  | giveBack _ _ ends ih => exact (ends.suffix.trans ih).trans (List.suffix_cons _ _)
  | giveBackNothing _ ends => exact ends.suffix.trans (List.suffix_cons _ _)
  | expression _ ends ih => exact ends.suffix.trans ih
  | moreStatements _ _ first second => exact second.trans first
  | program => exact List.nil_suffix

theorem length_le {tree : phrase.Tree} (derives : Derives phrase tokens tree rest) :
    rest.length ≤ tokens.length := derives.suffix.length_le

/-- A phrase that cannot be empty takes a token at least. -/
theorem length_lt {tree : phrase.Tree} (derives : Derives phrase tokens tree rest)
    (solid : phrase.nullable = false) : rest.length < tokens.length := by
  induction derives with
  | tighter _ ih | item _ ih => exact ih rfl
  | expression _ ends ih => exact Nat.lt_of_le_of_lt ends.suffix.length_le (ih rfl)
  | identifier | integer | string | truth | falsehood | name => exact Nat.lt_succ_self _
  | unary _ inner => exact Nat.lt_succ_of_le inner.length_le
  | group _ inner | array _ inner | hash _ inner | block _ inner =>
    exact Nat.lt_succ_of_lt inner.length_le
  | binary first _ second | call first _ second | index first _ second | moreItems first _ second
  | function _ _ first _ second =>
    have left := first.length_le
    have right := second.length_le
    simp only [List.length_cons] at *
    omega
  | slice first _ second _ third | conditional _ _ first _ second third =>
    have left := first.length_le
    have middle := second.length_le
    have right := third.length_le
    simp only [List.length_cons] at *
    omega
  | moreNames _ _ inner => exact Nat.lt_succ_of_lt (Nat.lt_succ_of_le inner.length_le)
  | binding _ _ _ inner ends =>
    have left := inner.length_le
    have right := ends.suffix.length_le
    simp only [List.length_cons]
    omega
  | giveBack _ inner ends =>
    exact Nat.lt_succ_of_le (Nat.le_trans ends.suffix.length_le inner.length_le)
  | giveBackNothing _ ends => exact Nat.lt_succ_of_le ends.suffix.length_le
  | program => simp
  | _ => contradiction

/-- A phrase begins with a token that it can begin with. -/
theorem opens {tree : phrase.Tree} (derives : Derives phrase tokens tree rest) :
    phrase.opens (following tokens) := by
  induction derives with
  | tighter _ ih => exact ih
  | binary _ _ _ first | call _ _ _ _ first | index _ _ _ _ first | moreItems _ _ _ first =>
    exact first
  | slice _ _ _ _ _ _ first => exact first
  | unary sign =>
    rcases sign with sign | sign <;> simp [Phrase.opens, starters, sign]
  | item _ ih => exact ih
  | expression _ _ ih => exact List.mem_cons_of_mem _ (List.mem_cons_of_mem _ ih)
  | _ => simp_all [Phrase.opens, starters]

end Derives

end Monkey

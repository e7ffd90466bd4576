import Monkey.Proofs.Lexemes
import Monkey.Proofs.Reading.Composition

/-!
The trees that program texts give. The types of syntax trees admit more than that; in a well-formed
tree nothing is missing, and names, numbers and operators are those of the language. Whatever
problems a text has, the statements that are read from it are well-formed.
-/

namespace Monkey

namespace Operator

/-- The operators that are written before an operand. -/
def prefixes : List Operator := [bang, minus]

/-- The operators that are written between operands. -/
def infixes : List Operator := [plus, minus, times, divide, less, greater, equal, notEqual]

end Operator

def Identifier.wellFormed (name : Identifier) : Bool := name.name = name.token.literal

mutual

def Expr.wellFormed : Expr → Bool
  | .identifier name => name.wellFormed
  | .integer _ value => 0 ≤ value && value ≤ maxInteger
  | .boolean _ _ | .string _ _ => true
  | .unary _ operator right => operator ∈ Operator.prefixes && right.wellFormed
  | .binary _ left operator right =>
    left.wellFormed && operator ∈ Operator.infixes && right.wellFormed
  | .conditional _ condition consequence alternative =>
    condition.wellFormed && consequence.wellFormed && Block.alternativeWellFormed alternative
  | .function _ parameters body => parameters.all Identifier.wellFormed && body.wellFormed
  | .call _ callee arguments => callee.wellFormed && Expr.allWellFormed arguments
  | .array _ elements => Expr.allWellFormed elements
  | .hash _ pairs => Expr.pairsWellFormed pairs
  | .index _ left position => left.wellFormed && position.wellFormed
  | .slice _ left lower upper =>
    left.wellFormed && Expr.boundWellFormed lower && Expr.boundWellFormed upper
  | .unknown => false

/-- What may be left out. -/
def Expr.boundWellFormed : Option Expr → Bool
  | none => true
  | some bound => bound.wellFormed

def Expr.allWellFormed : List Expr → Bool
  | [] => true
  | expr :: rest => expr.wellFormed && Expr.allWellFormed rest

def Expr.pairsWellFormed : List (Expr × Expr) → Bool
  | [] => true
  | (key, value) :: rest => key.wellFormed && value.wellFormed && Expr.pairsWellFormed rest

/-- Only a `return` can do without a value. -/
def Statement.wellFormed : Statement → Bool
  | .binding _ name value => name.wellFormed && Expr.valueWellFormed value
  | .giveBack _ value => Expr.boundWellFormed value
  | .expression _ value => Expr.valueWellFormed value
  | .block body => body.wellFormed

/-- What must not be left out. -/
def Expr.valueWellFormed : Option Expr → Bool
  | none => false
  | some value => value.wellFormed

def Statement.allWellFormed : List Statement → Bool
  | [] => true
  | statement :: rest => statement.wellFormed && Statement.allWellFormed rest

def Block.wellFormed : Block → Bool
  | ⟨_, statements⟩ => Statement.allWellFormed statements

def Block.alternativeWellFormed : Option Block → Bool
  | none => true
  | some block => block.wellFormed

end

def Program.wellFormed (program : Program) : Bool := Statement.allWellFormed program.statements

theorem Statement.allWellFormed_append (first rest : List Statement) :
    allWellFormed (first ++ rest) = (allWellFormed first && allWellFormed rest) := by
  induction first with
  | nil => rfl
  | cons statement first ih => simp [allWellFormed, ih, Bool.and_assoc]

/-- The kinds that are named as they are written. -/
def TokenKind.symbols : List TokenKind :=
  [assign, plus, minus, bang, asterisk, slash, less, greater, equal, notEqual, comma, semicolon,
    colon, leftParen, rightParen, leftBrace, rightBrace, leftBracket, rightBracket]

def Token.Genuine (token : Token) : Prop :=
  token.kind ∈ TokenKind.symbols → token.literal = token.kind.name

theorem Token.genuine_ending (place : Position) : (ending place).Genuine :=
  fun listed => absurd listed (show TokenKind.eof ∉ TokenKind.symbols by decide)

theorem Lexeme.Spelled.genuine {lexeme : Lexeme} {rest : List Char} (spelled : lexeme.Spelled rest)
    (place : Position) : Token.Genuine ⟨lexeme.kind, String.ofList lexeme.literal, place⟩ := by
  cases spelled with
  | word =>
    have unlisted : ∀ kind ∈ TokenKind.ident :: keywords.map Prod.snd, kind ∉ TokenKind.symbols := by
      decide
    exact fun listed => absurd listed (unlisted _ (TokenKind.lookup_keywords_mem _))
  | symbol named => exact fun _ => named.symm
  | equal | notEqual => exact fun _ => rfl
  | number | closed | unclosed | illegal =>
    exact fun (listed : _ ∈ TokenKind.symbols) => by
      revert listed
      simp [TokenKind.symbols, plain]

theorem Piece.genuine {place : Position} {pieces : List Piece}
    (spelled : ∀ piece ∈ pieces, ∃ rest, piece.lexeme.Spelled rest) :
    ∀ token ∈ tokens place pieces, token.Genuine := by
  induction pieces generalizing place with
  | nil => exact fun _ member => absurd member List.not_mem_nil
  | cons piece pieces ih =>
    intro token member
    rcases List.mem_cons.mp member with rfl | member
    · obtain ⟨rest, first⟩ := spelled piece List.mem_cons_self
      exact first.genuine _
    · exact ih (fun other among => spelled other (List.mem_cons_of_mem _ among)) token member

theorem tokenize_genuine (source : String) : ∀ token ∈ tokenize source, token.Genuine := by
  obtain ⟨pieces, trailing, lays⟩ := exists_lays source.toList
  rw [tokenize_eq_of_lays lays]
  intro token member
  rcases List.mem_append.mp member with member | member
  · exact Piece.genuine (fun piece => lays.exists_rule) token member
  · rw [List.mem_singleton.mp member]
    exact Token.genuine_ending _


/-- What a reader can give, and when it is as it has to be. -/
class Formed (α : Type) where
  formed : α → Prop

export Formed (formed)

instance : Formed Unit := ⟨fun _ => True⟩
instance : Formed Bool := ⟨fun _ => True⟩
instance : Formed Token := ⟨Token.Genuine⟩
instance : Formed Identifier := ⟨fun name => name.wellFormed = true⟩
instance : Formed (List Identifier) := ⟨fun names => names.all Identifier.wellFormed = true⟩
instance : Formed Expr := ⟨fun tree => tree.wellFormed = true⟩
instance : Formed (Option Expr) := ⟨fun bound => Expr.boundWellFormed bound = true⟩
instance : Formed (List Expr) := ⟨fun trees => Expr.allWellFormed trees = true⟩
instance : Formed (List (Expr × Expr)) := ⟨fun pairs => Expr.pairsWellFormed pairs = true⟩
instance : Formed Statement := ⟨fun tree => tree.wellFormed = true⟩
instance : Formed (Option Statement) := ⟨fun tree => Statement.allWellFormed tree.toList = true⟩
instance : Formed (List Statement) := ⟨fun trees => Statement.allWellFormed trees = true⟩
instance : Formed Block := ⟨fun tree => tree.wellFormed = true⟩

theorem formed_append {first : Option Statement} {rest : List Statement} (fine : formed first)
    (others : formed rest) : formed (first.toList ++ rest) :=
  (Statement.allWellFormed_append _ _).trans (Bool.and_eq_true_iff.mpr ⟨fine, others⟩)

theorem formed_cons {first : Expr} {rest : List Expr} (fine : formed first) (others : formed rest) :
    formed (first :: rest) :=
  Bool.and_eq_true_iff.mpr ⟨fine, others⟩

/-- What binds at all is an operator between operands, or it opens a bracket. -/
theorem Precedence.ofText_mem_infixes {kind : TokenKind} (binds : lowest.rank < (ofKind kind).rank)
    (unopened : kind ≠ .leftParen) (unbracketed : kind ≠ .leftBracket) :
    kind ∈ TokenKind.symbols ∧ Operator.ofText kind.name ∈ Operator.infixes := by
  cases kind <;> first | decide | exact absurd rfl ‹_› | exact absurd binds (by decide)

namespace Reading

variable {α β : Type} [Formed α] [Formed β]

/-- From genuine tokens the reader gives nothing that is not well-formed. -/
def Forms (reader : Reading α) : Prop :=
  ∀ stream, (∀ token ∈ stream.ahead, token.Genuine) →
    ∀ value, (reader stream).1 = some value → formed value

namespace Forms

theorem pure {value : α} (fine : formed value) : Forms (Pure.pure value) := by
  rintro _ _ _ ⟨⟩
  exact fine

theorem fail : Forms (Reading.fail : Reading α) := by
  rintro _ _ _ ⟨⟩

theorem bind {first : Reading α} {next : α → Reading β} [Composed first] (start : Forms first)
    (others : ∀ value, formed value → Forms (next value)) : Forms (first >>= next) := by
  intro stream genuine result given
  cases outcome : first stream with
  | mk found later =>
    cases found with
    | none =>
      rw [bind_none outcome] at given
      cases given
    | some value =>
      rw [bind_some outcome] at given
      have suffix := ahead_suffix first stream
      rw [outcome] at suffix
      have fine := start stream genuine value (by rw [outcome])
      exact others value fine later (fun token member => genuine token (suffix.subset member))
        result given

theorem genuine_next {stream : Stream} (genuine : ∀ token ∈ stream.ahead, token.Genuine) :
    stream.next.Genuine := by
  obtain ⟨ahead, finish, problems, refused⟩ := stream
  cases ahead with
  | nil => exact Token.genuine_ending finish
  | cons token rest => exact genuine token List.mem_cons_self

theorem peek : Forms Reading.peek := by
  rintro stream genuine _ ⟨⟩
  exact genuine_next genuine

theorem take : Forms Reading.take := by
  rintro stream genuine _ ⟨⟩
  exact genuine_next genuine

theorem note (problem : Problem) : Forms (Reading.note problem) := fun _ _ _ _ => trivial

theorem refuse : Forms Reading.refuse := fun _ _ _ _ => trivial

theorem map {change : α → β} {reader : Reading α} [Composed reader] (inner : Forms reader)
    (fine : ∀ value, formed value → formed (change value)) : Forms (change <$> reader) :=
  inner.bind fun value good => .pure (fine value good)

theorem expect (kind : TokenKind) : Forms (Reading.expect kind) := by
  refine peek.bind fun token genuine => ?_
  split
  · exact take
  · exact (note _).bind fun _ _ => fail

theorem takeIf (kind : TokenKind) : Forms (Reading.takeIf kind) := by
  refine peek.bind fun token genuine => ?_
  split
  · exact take.bind fun _ _ => pure trivial
  · exact pure trivial

/-- The token that was looked at is the one that is taken. -/
theorem peekTake {next : Token → Reading β} {other : Reading β} {chosen : Token → Prop}
    [DecidablePred chosen] (taken : ∀ token, token.Genuine → chosen token → Forms (next token))
    (left : Forms other) :
    Forms (Reading.peek >>= fun token => if chosen token then Reading.take >>= next else other) := by
  intro stream genuine result given
  change ((if chosen stream.next then Reading.take >>= next else other) stream).1 = _ at given
  split at given
  · rename_i choice
    refine taken stream.next (genuine_next genuine) choice _ (fun token member => ?_) result given
    exact genuine token (List.mem_of_mem_tail member)
  · exact left stream genuine result given

theorem attempt {reader : Reading Statement} (inner : Forms reader) :
    Forms (Reading.attempt reader) := by
  rintro stream genuine _ ⟨⟩
  change Statement.allWellFormed (reader stream).1.toList = true
  cases given : (reader stream).1 with
  | none => rfl
  | some tree =>
    have fine : tree.wellFormed = true := inner stream genuine tree given
    simp [Statement.allWellFormed, fine]

end Forms

/-! The readers of the language. -/

theorem forms_integer (token : Token) : Forms (integer token) := by
  unfold integer
  split
  · exact .bind .refuse fun _ _ => .fail
  · dsimp only
    split
    · exact .bind (.note _) fun _ _ => .fail
    · rename_i fits
      refine .pure ?_
      change (Expr.integer _ _).wellFormed = true
      simp only [Expr.wellFormed, Bool.and_eq_true, decide_eq_true_eq]
      exact ⟨Int.natCast_nonneg _, Int.ofNat_le.mpr (Nat.le_of_not_lt fits)⟩

section
variable {expression : Reading Expr} [Composed expression]

section
variable (inner : Forms expression)
include inner

theorem forms_statement : Forms (statement expression) := by
  refine .bind .peek fun first _ => ?_
  split
  · refine .bind .take fun token _ => .bind (.expect _) fun name _ => ?_
    refine .bind (.expect _) fun _ _ => .bind inner fun value fine => ?_
    refine .bind (.takeIf _) fun _ _ => .pure ?_
    change (Statement.binding _ _ _).wellFormed = true
    simp only [Statement.wellFormed, Identifier.wellFormed, Bool.and_eq_true, decide_eq_true_eq]
    exact ⟨trivial, fine⟩
  · refine .bind .take fun token _ => .bind .peek fun next _ => ?_
    have ending (value : Option Expr) (fine : formed value) : Forms (takeIf .semicolon >>=
        fun _ => Pure.pure (Statement.giveBack token value)) :=
      .bind (.takeIf _) fun _ _ => .pure fine
    dsimp only
    split
    · exact ending none rfl
    · exact ending none rfl
    · exact ending none rfl
    · exact .bind (.map inner fun _ fine => fine) ending
  · refine .bind inner fun value fine => ?_
    exact .bind (.takeIf _) fun _ _ => .pure fine

theorem forms_untilBrace (limit : Nat) : Forms (untilBrace (statement expression) limit) := by
  have missing : Forms untilBrace.missingBrace :=
    .bind .peek fun _ _ => .bind (.note _) fun _ _ => .pure rfl
  induction limit with
  | zero => exact missing
  | succ limit ih =>
    refine .bind .peek fun next _ => ?_
    split
    · exact .bind .take fun _ _ => .pure rfl
    · exact missing
    · refine .bind (.attempt (forms_statement inner)) fun first fine => ?_
      exact .bind ih fun rest others => .pure (formed_append fine others)

theorem forms_untilEnd (limit : Nat) : Forms (untilEnd (statement expression) limit) := by
  induction limit with
  | zero => exact .pure rfl
  | succ limit ih =>
    refine .bind .peek fun next _ => ?_
    split
    · exact .pure rfl
    · refine .bind (.attempt (forms_statement inner)) fun first fine => ?_
      exact .bind ih fun rest others => .pure (formed_append fine others)

theorem forms_block (limit : Nat) : Forms (block limit expression) :=
  .bind (.expect _) fun _ _ => .bind (forms_untilBrace inner limit) fun _ fine => .pure fine

theorem forms_moreExpressions (limit : Nat) : Forms (moreExpressions expression limit) := by
  induction limit with
  | zero => exact .pure rfl
  | succ limit ih =>
    refine .bind (.takeIf _) fun found _ => ?_
    split
    · exact .bind inner fun _ fine => .bind ih fun _ others => .pure (formed_cons fine others)
    · exact .pure rfl

theorem forms_expressions (limit : Nat) (closing : TokenKind) :
    Forms (expressions limit expression closing) := by
  refine .bind (.takeIf _) fun found _ => ?_
  split
  · exact .pure rfl
  · refine .bind inner fun _ fine => .bind (forms_moreExpressions inner limit) fun _ others => ?_
    exact .bind (.expect _) fun _ _ => .pure (formed_cons fine others)

theorem forms_pairs (limit : Nat) : Forms (pairs expression limit) := by
  have longer {key value : Expr} {rest : List (Expr × Expr)} (fine : formed key)
      (good : formed value) (others : formed rest) : formed ((key, value) :: rest) :=
    Bool.and_eq_true_iff.mpr ⟨Bool.and_eq_true_iff.mpr ⟨fine, good⟩, others⟩
  induction limit with
  | zero => exact .pure rfl
  | succ limit ih =>
    refine .bind .peek fun _ _ => ?_
    split
    · exact .pure rfl
    refine .bind inner fun key fine => .bind (.expect _) fun _ _ => ?_
    refine .bind inner fun value good => .bind .peek fun _ _ => ?_
    split
    · exact .pure (longer fine good rfl)
    · exact .bind (.expect _) fun _ _ => .bind ih fun _ others => .pure (longer fine good others)

end

theorem forms_parameter : Forms parameter :=
  .bind (.expect _) fun token _ => .pure (decide_eq_true (rfl : token.literal = token.literal))

theorem forms_moreParameters (limit : Nat) : Forms (moreParameters limit) := by
  induction limit with
  | zero => exact .pure rfl
  | succ limit ih =>
    refine .bind (.takeIf _) fun found _ => ?_
    split
    · refine .bind forms_parameter fun _ fine => .bind ih fun _ others => ?_
      exact .pure (Bool.and_eq_true_iff.mpr ⟨fine, others⟩)
    · exact .pure rfl

theorem forms_parameters (limit : Nat) : Forms (parameters limit) := by
  refine .bind (.takeIf _) fun found _ => ?_
  split
  · exact .pure rfl
  · refine .bind forms_parameter fun _ fine => .bind (forms_moreParameters limit) fun _ others => ?_
    exact .bind (.expect _) fun _ _ => .pure (Bool.and_eq_true_iff.mpr ⟨fine, others⟩)

section
variable (inner : Forms expression)
include inner

theorem forms_conditional (limit : Nat) (token : Token) :
    Forms (conditional limit expression token) := by
  refine .bind (.expect _) fun _ _ => .bind inner fun condition fine => ?_
  refine .bind (.expect _) fun _ _ => .bind (forms_block inner limit) fun yes good => ?_
  refine .bind (.takeIf _) fun found _ => ?_
  have whole {no : Option Block} (otherwise : Block.alternativeWellFormed no = true) :
      formed (Expr.conditional token condition yes no) :=
    Bool.and_eq_true_iff.mpr ⟨Bool.and_eq_true_iff.mpr ⟨fine, good⟩, otherwise⟩
  split
  · exact .bind (forms_block inner limit) fun _ otherwise => .pure (whole otherwise)
  · exact .pure (whole rfl)

theorem forms_function (limit : Nat) (token : Token) :
    Forms (function limit expression token) := by
  refine .bind (.expect _) fun _ _ => .bind (forms_parameters limit) fun _ fine => ?_
  exact .bind (forms_block inner limit) fun _ good =>
    .pure (Bool.and_eq_true_iff.mpr ⟨fine, good⟩)

variable {left : Expr} (first : formed left)
include first

theorem forms_slice (token : Token) (lower : Option Expr) (low : formed lower) :
    Forms (slice expression token left lower) := by
  have whole {upper : Option Expr} (high : formed upper) :
      formed (Expr.slice token left lower upper) :=
    Bool.and_eq_true_iff.mpr ⟨Bool.and_eq_true_iff.mpr ⟨first, low⟩, high⟩
  refine .bind .peek fun next _ => ?_
  split
  · have absent : formed (none : Option Expr) := rfl
    exact .bind (.pure absent) fun _ high => .bind (.expect _) fun _ _ => .pure (whole high)
  · refine .bind (.map (β := Option Expr) inner fun _ fine => fine) fun _ high => ?_
    exact .bind (.expect _) fun _ _ => .pure (whole high)

theorem forms_indexOrSlice (token : Token) : Forms (indexOrSlice expression token left) := by
  refine .bind (.takeIf _) fun found _ => ?_
  split
  · exact forms_slice inner first token none rfl
  · refine .bind inner fun position fine => .bind (.takeIf _) fun found _ => ?_
    split
    · exact forms_slice inner first token (some position) fine
    · exact .bind (.expect _) fun _ _ => .pure (Bool.and_eq_true_iff.mpr ⟨first, fine⟩)

end
end

section
variable {expression : Precedence → Reading Expr}
variable [∀ surroundings, Composed (expression surroundings)]
variable (inner : ∀ surroundings, Forms (expression surroundings))
include inner

theorem forms_operation (limit : Nat) {token : Token} (genuine : token.Genuine)
    (binds : Precedence.lowest.rank < (Precedence.ofKind token.kind).rank) {left : Expr}
    (first : formed left) : Forms (operation limit expression token left) := by
  unfold operation
  split
  · refine .bind (forms_expressions (inner .lowest) limit _) fun _ fine => .pure ?_
    exact Bool.and_eq_true_iff.mpr ⟨first, fine⟩
  · exact forms_indexOrSlice (inner .lowest) first token
  · rename_i unopened unbracketed
    have listed := Precedence.ofText_mem_infixes binds unopened unbracketed
    rw [← genuine listed.1] at listed
    refine .bind (inner _) fun _ fine => .pure ?_
    change (Expr.binary _ _ _ _).wellFormed = true
    simp only [Expr.wellFormed, Bool.and_eq_true, decide_eq_true_eq]
    exact ⟨⟨first, listed.2⟩, fine⟩

theorem forms_operations (limit : Nat) (surroundings : Precedence) (count : Nat) {left : Expr}
    (first : formed left) : Forms (operations limit expression surroundings count left) := by
  induction count generalizing left with
  | zero => exact .pure first
  | succ count ih =>
    refine .peekTake (fun token genuine binds => ?_) (.pure first)
    have looser : Precedence.lowest.rank ≤ surroundings.rank := by cases surroundings <;> decide
    have operation := forms_operation inner limit genuine (looser.trans_lt binds) first
    exact operation.bind fun whole fine => ih fine

theorem forms_operand (limit : Nat) : Forms (operand limit expression) := by
  refine .bind .take fun token genuine => ?_
  have sign (kind : token.kind = .bang ∨ token.kind = .minus) : Forms (expression .sign >>=
      fun right => Pure.pure (Expr.unary token (.ofText token.literal) right)) := by
    have listed : Operator.ofText token.literal ∈ Operator.prefixes := by
      rcases kind with kind | kind <;> rw [genuine (by rw [kind]; decide), kind] <;> decide
    refine .bind (inner .sign) fun right fine => .pure ?_
    change (Expr.unary _ _ _).wellFormed = true
    simp only [Expr.wellFormed, Bool.and_eq_true, decide_eq_true_eq]
    exact ⟨listed, fine⟩
  split
  · exact .pure (decide_eq_true (rfl : token.literal = token.literal))
  · exact forms_integer token
  · exact .pure rfl
  · exact .pure rfl
  · exact .pure rfl
  · exact sign (.inl ‹_›)
  · exact sign (.inr ‹_›)
  · exact .bind (inner .lowest) fun _ fine => .bind (.expect _) fun _ _ => .pure fine
  · exact forms_conditional (inner .lowest) limit token
  · exact forms_function (inner .lowest) limit token
  · exact .bind (forms_expressions (inner .lowest) limit _) fun _ fine => .pure fine
  · refine .bind (forms_pairs (inner .lowest) limit) fun _ fine => ?_
    exact .bind (.expect _) fun _ _ => .pure fine
  · exact .bind (.note _) fun _ _ => .fail

end

theorem forms_expression (bound : Nat) (surroundings : Precedence) :
    Forms (expression bound surroundings) := by
  induction bound generalizing surroundings with
  | zero => exact .fail
  | succ bound ih =>
    exact .bind (forms_operand ih bound) fun _ first =>
      forms_operations ih bound surroundings bound first

end Reading

/-- Whatever is wrong with a text, the tree that is read from it is well-formed. -/
theorem parse_wellFormed (source : String) : (parse source).program.wellFormed = true := by
  have genuine : ∀ token ∈ (Stream.ofTokens (tokenize source)).ahead, token.Genuine :=
    fun token member => tokenize_genuine source token ((List.dropLast_subset _) member)
  have forms := Reading.forms_untilEnd (Reading.forms_expression
    ((Stream.ofTokens (tokenize source)).ahead.length + 1) .lowest)
    (Stream.ofTokens (tokenize source)).ahead.length _ genuine
  change Statement.allWellFormed (Option.getD (Reading.untilEnd _ _ _).1 []) = true
  cases given : (Reading.untilEnd _ _ (Stream.ofTokens (tokenize source))).1 with
  | none => rfl
  | some statements => exact forms statements given

end Monkey

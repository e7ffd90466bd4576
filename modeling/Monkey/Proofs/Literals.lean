import Monkey.Proofs.Reading.Bounds
import Monkey.Proofs.Recognition
import Monkey.Shell

/-!
Rows of digits. Every one of them is taken as an operand: no reader skips one, and none passes one
by. What comes of it depends on the row alone. It is a number of the language, or a problem is noted
for it, or it has too many digits to be converted; the last is the one thing for which a text is
refused.
-/

namespace Monkey

namespace Token

/-- The number that a row of digits writes out. -/
def number (token : Token) : Nat := Nat.ofDigitChars 10 token.literal.toList 0

/-- A row of digits that is not converted. -/
def overlong (token : Token) : Bool := token.kind = .int && maxDigits < token.literal.length

/-- A row of digits of which the number does not fit the language. -/
def excessive (token : Token) : Bool :=
  token.kind = .int && token.literal.length ≤ maxDigits && maxInteger < token.number

/-- A row of digits that is a number of the language. -/
def fitting (token : Token) : Bool :=
  token.kind = .int && token.literal.length ≤ maxDigits && token.number ≤ maxInteger

def counted (token : Token) : Token × Int := (token, token.number)

end Token

/-- The numbers of the language in a row of tokens. -/
def numbers (tokens : List Token) : List (Token × Int) :=
  (tokens.filter Token.fitting).map Token.counted

/-- The problems about the numbers in a row of tokens that do not fit. -/
def excesses (tokens : List Token) : List Problem :=
  (tokens.filter Token.excessive).map fun token => .integerTooLarge token.literal token.position

def Problem.ofInteger : Problem → Bool
  | integerTooLarge _ _ => true
  | _ => false

/-- What holds integers of a program, each with the token it was read from, in the order in which
they were written. -/
class Holding (α : Type) where
  integers : α → List (Token × Int)

export Holding (integers)

mutual

def Expr.integers : Expr → List (Token × Int)
  | .identifier _ | .boolean _ _ | .string _ _ | .unknown => []
  | .integer token value => [(token, value)]
  | .unary _ _ right => right.integers
  | .binary _ left _ right => left.integers ++ right.integers
  | .conditional _ condition consequence alternative =>
    condition.integers ++ consequence.integers ++ Block.alternativeIntegers alternative
  | .function _ _ body => body.integers
  | .call _ callee arguments => callee.integers ++ Expr.allIntegers arguments
  | .array _ elements => Expr.allIntegers elements
  | .hash _ pairs => Expr.pairsIntegers pairs
  | .index _ left position => left.integers ++ position.integers
  | .slice _ left lower upper =>
    left.integers ++ Expr.valueIntegers lower ++ Expr.valueIntegers upper

def Expr.valueIntegers : Option Expr → List (Token × Int)
  | none => []
  | some value => value.integers

def Expr.allIntegers : List Expr → List (Token × Int)
  | [] => []
  | expr :: rest => expr.integers ++ Expr.allIntegers rest

def Expr.pairsIntegers : List (Expr × Expr) → List (Token × Int)
  | [] => []
  | (key, value) :: rest => key.integers ++ value.integers ++ Expr.pairsIntegers rest

def Statement.integers : Statement → List (Token × Int)
  | .binding _ _ value | .giveBack _ value | .expression _ value => Expr.valueIntegers value
  | .block body => body.integers

def Statement.allIntegers : List Statement → List (Token × Int)
  | [] => []
  | statement :: rest => statement.integers ++ Statement.allIntegers rest

def Block.integers : Block → List (Token × Int)
  | ⟨_, statements⟩ => Statement.allIntegers statements

def Block.alternativeIntegers : Option Block → List (Token × Int)
  | none => []
  | some block => block.integers

end

namespace Holding

instance : Holding Token := ⟨fun _ => []⟩
instance : Holding Bool := ⟨fun _ => []⟩
instance : Holding Identifier := ⟨fun _ => []⟩
instance : Holding (List Identifier) := ⟨fun _ => []⟩
instance : Holding Expr := ⟨Expr.integers⟩
instance : Holding (Option Expr) := ⟨Expr.valueIntegers⟩
instance : Holding (List Expr) := ⟨Expr.allIntegers⟩
instance : Holding (List (Expr × Expr)) := ⟨Expr.pairsIntegers⟩
instance : Holding Block := ⟨Block.integers⟩
instance : Holding (Option Block) := ⟨Block.alternativeIntegers⟩
instance : Holding Statement := ⟨Statement.integers⟩
instance : Holding (List Statement) := ⟨Statement.allIntegers⟩
instance : Holding (Option Statement) := ⟨fun statement => Statement.allIntegers statement.toList⟩
instance : Holding Program := ⟨fun program => Statement.allIntegers program.statements⟩

end Holding

attribute [local simp] integers Expr.integers Expr.valueIntegers Expr.allIntegers Expr.pairsIntegers
  Statement.integers Statement.allIntegers Block.integers Block.alternativeIntegers

theorem Statement.allIntegers_append (first second : List Statement) :
    allIntegers (first ++ second) = allIntegers first ++ allIntegers second := by
  induction first with
  | nil => rfl
  | cons statement rest ih => simp [ih]

namespace Reading

/-- From one stream to a later one these tokens are taken, and the rows of digits among them are
accounted for. -/
structure Took (taken : List Token) (stream later : Stream) : Prop where
  ahead : stream.ahead = taken ++ later.ahead
  refused : later.refused = (stream.refused || taken.any Token.overlong)
  problems : later.problems.filter Problem.ofInteger =
    (excesses taken).reverse ++ stream.problems.filter Problem.ofInteger

namespace Took

variable {stream middle later : Stream}

theorem nil (stream : Stream) : Took [] stream stream := ⟨rfl, by simp, rfl⟩

/-- A token that is no row of digits may be passed by. -/
theorem skip (other : following stream.ahead ≠ .int) :
    Took (stream.ahead.take 1) stream { stream with ahead := stream.ahead.tail } := by
  cases ahead : stream.ahead with
  | nil => exact ⟨by simp [ahead], by simp, by simp [excesses]⟩
  | cons token rest =>
    have kind : token.kind ≠ .int := by rwa [ahead] at other
    refine ⟨by simp [ahead], ?_, ?_⟩
    · simp [Token.overlong, kind]
    · simp [excesses, Token.excessive, kind]

theorem trans {first second : List Token} (start : Took first stream middle)
    (further : Took second middle later) : Took (first ++ second) stream later where
  ahead := by rw [start.ahead, further.ahead, List.append_assoc]
  refused := by rw [further.refused, start.refused, List.any_append, Bool.or_assoc]
  problems := by
    rw [further.problems, start.problems]
    simp [excesses]

end Took

/-- The reader takes some of the tokens and accounts for the rows of digits among them; what it
gives holds such rows and those that are held from before. -/
def Accounts {α : Type} [Holding α] (reader : Reading α) (tokens : List Token)
    (held : List (Token × Int)) : Prop :=
  ∀ stream : Stream, stream.ahead = tokens → ∃ taken, Took taken stream (reader stream).2 ∧
    ∀ value, (reader stream).1 = some value → (integers value).Sublist (held ++ numbers taken)

namespace Accounts

variable {α β : Type} [Holding α] [Holding β] {tokens : List Token} {held : List (Token × Int)}

theorem pure {value : α} (same : integers value = held) :
    Accounts (Pure.pure value) tokens held := by
  intro stream _
  refine ⟨[], .nil stream, fun other given => ?_⟩
  obtain rfl : value = other := Option.some.inj given
  simp [same, numbers]

theorem bind_held {first : Reading α} {next : α → Reading β} {earlier : List (Token × Int)}
    (start : Accounts first tokens earlier)
    (further : ∀ value rest, Accounts (next value) rest (held ++ integers value)) :
    Accounts (first >>= next) tokens (held ++ earlier) := by
  intro stream ahead
  obtain ⟨taken, took, holds⟩ := start stream ahead
  cases outcome : first stream with
  | mk result later =>
    rw [outcome] at took holds
    cases result with
    | none =>
      rw [bind_none outcome]
      exact ⟨taken, took, fun _ given => nomatch given⟩
    | some value =>
      rw [bind_some outcome]
      obtain ⟨more, took', holds'⟩ := further value later.ahead later rfl
      refine ⟨taken ++ more, took.trans took', fun result given => (holds' result given).trans ?_⟩
      have all : numbers (taken ++ more) = numbers taken ++ numbers more := by simp [numbers]
      have inner := ((holds value rfl).append_right (numbers more)).append_left held
      simpa only [all, List.append_assoc] using inner

theorem bind {first : Reading α} {next : α → Reading β} (start : Accounts first tokens [])
    (further : ∀ value rest, Accounts (next value) rest (held ++ integers value)) :
    Accounts (first >>= next) tokens held :=
  held.append_nil ▸ start.bind_held further

theorem map {reader : Reading α} (change : α → β) (same : ∀ value, integers (change value) =
    integers value) (inner : Accounts reader tokens []) : Accounts (change <$> reader) tokens [] :=
  inner.bind fun value _ => pure (same value)

theorem fail : Accounts (Reading.fail : Reading α) tokens held :=
  fun stream _ => ⟨[], .nil stream, fun _ given => nomatch given⟩

theorem peek {next : Token → Reading β}
    (further : ∀ token, token.kind = following tokens → Accounts (next token) tokens held) :
    Accounts (Reading.peek >>= next) tokens held := by
  intro stream ahead
  exact further stream.next (ahead ▸ stream.next_kind) stream ahead

/-- A token of another kind is taken without any account of it. -/
theorem take {next : Token → Reading β} (other : following tokens ≠ .int)
    (further : ∀ token rest, token.kind = following tokens → Accounts (next token) rest held) :
    Accounts (Reading.take >>= next) tokens held := by
  intro stream ahead
  have skipped : Took (tokens.take 1) stream { stream with ahead := stream.ahead.tail } :=
    ahead ▸ .skip (ahead ▸ other)
  obtain ⟨taken, took, holds⟩ := further stream.next stream.ahead.tail (ahead ▸ stream.next_kind)
    { stream with ahead := stream.ahead.tail } rfl
  refine ⟨tokens.take 1 ++ taken, skipped.trans took, fun value given => ?_⟩
  have fewer : (numbers taken).Sublist (numbers (tokens.take 1 ++ taken)) :=
    ((List.sublist_append_right _ taken).filter _).map _
  exact (holds value given).trans (fewer.append_left held)

theorem note {next : Unit → Reading β} {problem : Problem} (other : problem.ofInteger = false)
    (further : Accounts (next ()) tokens held) :
    Accounts (Reading.note problem >>= next) tokens held := by
  intro stream ahead
  obtain ⟨taken, took, holds⟩ :=
    further { stream with problems := problem :: stream.problems } ahead
  refine ⟨taken, ⟨took.ahead, took.refused, took.problems.trans ?_⟩, holds⟩
  rw [List.filter_cons_of_neg (by simp [other])]

theorem expect {kind : TokenKind} (other : kind ≠ .int) {next : Token → Reading β}
    (further : ∀ token rest, Accounts (next token) rest held) :
    Accounts (Reading.expect kind >>= next) tokens held := by
  have expected : Accounts (Reading.expect kind) tokens [] := by
    refine peek fun token shown => ?_
    split
    · rename_i same
      change Accounts (Reading.take >>= Pure.pure) tokens []
      exact take (by rwa [← shown, same]) fun token rest _ => pure rfl
    · exact note rfl fail
  exact expected.bind fun token rest => by simpa using further token rest

theorem takeIf {kind : TokenKind} (other : kind ≠ .int) {next : Bool → Reading β}
    (further : ∀ found rest, Accounts (next found) rest held) :
    Accounts (Reading.takeIf kind >>= next) tokens held := by
  have chosen : Accounts (Reading.takeIf kind) tokens [] := by
    refine peek fun token shown => ?_
    split
    · rename_i same
      exact take (by rwa [← shown, same]) fun _ _ _ => pure rfl
    · exact pure rfl
  exact chosen.bind fun found rest => by simpa using further found rest

theorem attempt {reader : Reading Statement} (inner : Accounts reader tokens []) :
    Accounts (Reading.attempt reader) tokens [] := by
  intro stream ahead
  obtain ⟨taken, took, holds⟩ := inner stream ahead
  refine ⟨taken, took, fun value given => ?_⟩
  obtain rfl : (reader stream).1 = value := Option.some.inj given
  cases outcome : (reader stream).1 with
  | none => exact List.nil_sublist _
  | some statement => simpa using holds statement outcome

end Accounts

/-! The readers of the language. -/

section
variable {expression : Reading Expr} {tokens : List Token} {held : List (Token × Int)}

section
variable (inner : ∀ tokens, Accounts expression tokens [])
include inner

theorem accounts_statement : Accounts (statement expression) tokens [] := by
  refine .peek fun first shown => ?_
  split
  · rename_i kind
    refine .take (by simp [← shown, kind]) fun token rest _ => ?_
    refine .expect (by decide) fun name rest => .expect (by decide) fun assign rest => ?_
    refine (inner rest).bind fun value rest => .takeIf (by decide) fun ended rest => ?_
    exact .pure (by simp)
  · rename_i kind
    refine .take (by simp [← shown, kind]) fun token rest _ => .peek fun next shown => ?_
    have given : Accounts (some <$> expression) rest [] := (inner rest).map some fun _ => rfl
    dsimp only
    split
    · exact .takeIf (by decide) fun ended rest => .pure rfl
    · exact .takeIf (by decide) fun ended rest => .pure rfl
    · exact .takeIf (by decide) fun ended rest => .pure rfl
    · refine given.bind fun value rest => .takeIf (by decide) fun ended rest => ?_
      exact .pure (by simp)
  · refine (inner tokens).bind fun value rest => .takeIf (by decide) fun ended rest => ?_
    exact .pure (by simp)

theorem accounts_untilBrace (limit : Nat) :
    Accounts (untilBrace (statement expression) limit) tokens [] := by
  have missing (tokens : List Token) : Accounts untilBrace.missingBrace tokens [] :=
    .peek fun token _ => .note rfl (.pure rfl)
  induction limit generalizing tokens with
  | zero => exact missing tokens
  | succ limit ih =>
    refine .peek fun next shown => ?_
    split
    · rename_i kind
      exact .take (by simp [← shown, kind]) fun _ _ _ => .pure rfl
    · exact missing tokens
    · refine (Accounts.attempt (accounts_statement inner)).bind fun first rest => ?_
      refine ih.bind fun others rest => .pure ?_
      simp [Statement.allIntegers_append]

theorem accounts_untilEnd (limit : Nat) :
    Accounts (untilEnd (statement expression) limit) tokens [] := by
  induction limit generalizing tokens with
  | zero => exact .pure rfl
  | succ limit ih =>
    refine .peek fun next _ => ?_
    split
    · exact .pure rfl
    · refine (Accounts.attempt (accounts_statement inner)).bind fun first rest => ?_
      refine ih.bind fun others rest => .pure ?_
      simp [Statement.allIntegers_append]

theorem accounts_block (limit : Nat) : Accounts (block limit expression) tokens [] :=
  .expect (by decide) fun token rest => (accounts_untilBrace inner limit).bind
    fun statements rest => .pure (by simp)

theorem accounts_moreExpressions (limit : Nat) :
    Accounts (moreExpressions expression limit) tokens [] := by
  induction limit generalizing tokens with
  | zero => exact .pure rfl
  | succ limit ih =>
    refine .takeIf (by decide) fun found rest => ?_
    split
    · refine (inner rest).bind fun first rest => ih.bind fun others rest => .pure ?_
      simp
    · exact .pure rfl

theorem accounts_expressions (limit : Nat) {closing : TokenKind} (other : closing ≠ .int) :
    Accounts (expressions limit expression closing) tokens [] := by
  refine .takeIf other fun found rest => ?_
  split
  · exact .pure rfl
  · refine (inner rest).bind fun first rest => ?_
    refine (accounts_moreExpressions inner limit).bind fun others rest => ?_
    exact .expect other fun token rest => .pure (by simp)

theorem accounts_pairs (limit : Nat) : Accounts (pairs expression limit) tokens [] := by
  induction limit generalizing tokens with
  | zero => exact .pure rfl
  | succ limit ih =>
    refine .peek fun next _ => ?_
    split
    · exact .pure rfl
    refine (inner tokens).bind fun key rest => .expect (by decide) fun colon rest => ?_
    refine (inner rest).bind fun value rest => .peek fun next _ => ?_
    split
    · exact .pure (by simp)
    · refine .expect (by decide) fun comma rest => ih.bind fun others rest => .pure ?_
      simp

end

theorem accounts_parameter : Accounts parameter tokens [] :=
  .expect (by decide) fun token rest => .pure rfl

theorem accounts_moreParameters (limit : Nat) : Accounts (moreParameters limit) tokens [] := by
  induction limit generalizing tokens with
  | zero => exact .pure rfl
  | succ limit ih =>
    refine .takeIf (by decide) fun found rest => ?_
    split
    · exact accounts_parameter.bind fun first rest => ih.bind fun others rest => .pure rfl
    · exact .pure rfl

theorem accounts_parameters (limit : Nat) : Accounts (parameters limit) tokens [] := by
  refine .takeIf (by decide) fun found rest => ?_
  split
  · exact .pure rfl
  · refine accounts_parameter.bind fun first rest => ?_
    refine (accounts_moreParameters limit).bind fun others rest => ?_
    exact .expect (by decide) fun token rest => .pure rfl

section
variable (inner : ∀ tokens, Accounts expression tokens [])
include inner

theorem accounts_conditional (limit : Nat) (token : Token) :
    Accounts (conditional limit expression token) tokens [] := by
  have block (rest : List Token) : Accounts (block limit expression) rest [] :=
    accounts_block inner limit
  refine .expect (by decide) fun opening rest => (inner rest).bind fun condition rest => ?_
  refine .expect (by decide) fun closing rest => (block rest).bind fun yes rest => ?_
  refine .takeIf (by decide) fun found rest => ?_
  split
  · refine (block rest).bind fun no rest => .pure ?_
    simp
  · exact .pure (by simp)

theorem accounts_function (limit : Nat) (token : Token) :
    Accounts (function limit expression token) tokens [] := by
  refine .expect (by decide) fun opening rest => ?_
  refine (accounts_parameters limit).bind fun names rest => ?_
  exact (accounts_block inner limit).bind fun body rest => .pure (by simp)

theorem accounts_slice (token : Token) (left : Expr) (lower : Option Expr) :
    Accounts (slice expression token left lower) tokens (left.integers ++ integers lower) := by
  have given : Accounts (some <$> expression) tokens [] := (inner tokens).map some fun _ => rfl
  refine .peek fun next _ => ?_
  split
  · refine .expect (by decide) fun closing rest => .pure ?_
    simp
  · refine given.bind fun upper rest => .expect (by decide) fun closing rest => .pure ?_
    simp

theorem accounts_indexOrSlice (token : Token) (left : Expr) :
    Accounts (indexOrSlice expression token left) tokens left.integers := by
  refine .takeIf (by decide) fun found rest => ?_
  split
  · simpa using accounts_slice inner token left none
  · refine (inner rest).bind fun position rest => .takeIf (by decide) fun found rest => ?_
    split
    · exact accounts_slice inner token left (some position)
    · exact .expect (by decide) fun closing rest => .pure (by simp)

end
end

section
variable {expression : Precedence → Reading Expr} {tokens : List Token}
variable (inner : ∀ surroundings tokens, Accounts (expression surroundings) tokens [])
include inner

theorem accounts_operation (limit : Nat) (token : Token) (left : Expr) :
    Accounts (operation limit expression token left) tokens left.integers := by
  unfold operation
  split
  · refine (accounts_expressions (inner .lowest) limit (by decide)).bind fun arguments rest => ?_
    exact .pure (by simp)
  · exact accounts_indexOrSlice (inner .lowest) token left
  · exact (inner _ tokens).bind fun right rest => .pure (by simp)

/-- An operator is no row of digits: those bind nothing. -/
theorem accounts_operations (limit : Nat) (surroundings : Precedence) (count : Nat) (left : Expr) :
    Accounts (operations limit expression surroundings count left) tokens left.integers := by
  induction count generalizing left tokens with
  | zero => exact .pure rfl
  | succ count ih =>
    refine .peek fun next shown => ?_
    split
    · rename_i binds
      have other : following tokens ≠ .int := by
        intro digits
        rw [shown, digits] at binds
        exact Nat.not_lt.mpr surroundings.rank_pos binds
      refine .take other fun token rest _ => ?_
      change Accounts _ _ ([] ++ _)
      exact (accounts_operation inner limit token left).bind_held fun whole rest => ih whole
    · exact .pure rfl

end

/-- Three things can come of a row of digits. -/
theorem integer_apply (token : Token) (stream : Stream) :
    integer token stream =
      if maxDigits < token.literal.length then (none, { stream with refused := true })
      else if token.number ≤ maxInteger then (some (.integer token token.number), stream)
      else (none, { stream with
        problems := .integerTooLarge token.literal token.position :: stream.problems }) := by
  by_cases long : maxDigits < token.literal.length
  · rw [if_pos long, integer_of_long long]
    rfl
  have digits := Nat.le_of_not_lt long
  rw [if_neg long]
  by_cases fits : token.number ≤ maxInteger
  · rw [if_pos fits, integer_of_fits digits fits]
    rfl
  · rw [if_neg fits, integer_of_large digits (Nat.lt_of_not_le fits)]
    rfl

theorem accounts_operand_of_int (limit : Nat) (expression : Precedence → Reading Expr)
    {token : Token} {tokens : List Token} (kind : token.kind = .int) :
    Accounts (operand limit expression) (token :: tokens) [] := by
  intro stream ahead
  have next : stream.next = token := by rw [Stream.next, ahead]; rfl
  have tail : stream.ahead.tail = tokens := by rw [ahead]; rfl
  rw [operand_of_int limit expression (by rw [next, kind]), integer_apply, next, tail]
  refine ⟨[token], ?_⟩
  split
  · rename_i long
    refine ⟨⟨ahead, ?_, ?_⟩, fun _ given => by cases given⟩
    · simp [Token.overlong, kind, long]
    · simp [excesses, Token.excessive, Nat.not_le.mpr long]
  · rename_i short
    split
    · rename_i fits
      refine ⟨⟨ahead, ?_, ?_⟩, fun value given => ?_⟩
      · simp [Token.overlong, short]
      · simp [excesses, Token.excessive, Nat.not_lt.mpr fits]
      · obtain rfl : Expr.integer token token.number = value := Option.some.inj given
        have chosen : token.fitting = true := by simp_all [Token.fitting]
        simp [numbers, chosen, Token.counted]
    · rename_i large
      refine ⟨⟨ahead, ?_, ?_⟩, fun _ given => by cases given⟩
      · simp [Token.overlong, short]
      · have chosen : token.excessive = true := by simp_all [Token.excessive]
        rw [excesses, List.filter_cons_of_pos chosen]
        exact List.filter_cons_of_pos rfl

theorem accounts_operand {expression : Precedence → Reading Expr} {tokens : List Token}
    (inner : ∀ surroundings tokens, Accounts (expression surroundings) tokens []) (limit : Nat) :
    Accounts (operand limit expression) tokens [] := by
  by_cases digits : following tokens = .int
  · cases tokens with
    | nil => exact nomatch digits
    | cons token rest => exact accounts_operand_of_int limit expression digits
  have sign (token : Token) (rest : List Token) : Accounts (expression .sign >>= fun right =>
      pure (Expr.unary token (.ofText token.literal) right)) rest [] :=
    (inner .sign rest).bind fun right rest => .pure (by simp)
  refine .take digits fun token rest shown => ?_
  split
  · exact .pure rfl
  · rename_i kind
    exact absurd (shown.symm.trans kind) digits
  · exact .pure rfl
  · exact .pure rfl
  · exact .pure rfl
  · exact sign token rest
  · exact sign token rest
  · refine (inner .lowest rest).bind fun tree rest => .expect (by decide) fun closing rest => ?_
    exact .pure (by simp)
  · exact accounts_conditional (inner .lowest) limit token
  · exact accounts_function (inner .lowest) limit token
  · refine (accounts_expressions (inner .lowest) limit (by decide)).bind fun elements rest => ?_
    exact .pure (by simp)
  · refine (accounts_pairs (inner .lowest) limit).bind fun pairs rest => ?_
    exact .expect (by decide) fun closing rest => .pure (by simp)
  · exact .note rfl .fail

theorem accounts_expression (bound : Nat) (surroundings : Precedence) (tokens : List Token) :
    Accounts (expression bound surroundings) tokens [] := by
  induction bound generalizing surroundings tokens with
  | zero => exact .fail
  | succ bound ih =>
    exact (accounts_operand ih bound).bind fun left rest =>
      accounts_operations ih bound surroundings bound left

/-- Before the end of the text a statement is read, and then the others. -/
theorem untilEnd_of_more {statement : Reading Statement} {limit : Nat} {stream : Stream}
    (more : stream.next.kind ≠ .eof) : untilEnd statement (limit + 1) stream =
      (untilEnd statement limit >>= fun rest => pure ((statement stream).1.toList ++ rest))
        (statement stream).2 := by
  have looked : peek stream = (some stream.next, stream) := rfl
  refine (bind_some looked).trans ?_
  cases kind : stream.next.kind with
  | eof => exact absurd kind more
  | _ => rfl

/-- The statements up to the end of the text are read in any case. -/
theorem exists_untilEnd_eq (statement : Reading Statement) (limit : Nat) (stream : Stream) :
    ∃ trees later, untilEnd statement limit stream = (some trees, later) := by
  induction limit generalizing stream with
  | zero => exact ⟨[], stream, rfl⟩
  | succ limit ih =>
    by_cases ended : stream.next.kind = .eof
    · refine ⟨[], stream, (bind_some rfl).trans ?_⟩
      rw [ended]
      rfl
    · obtain ⟨trees, later, others⟩ := ih (statement stream).2
      exact ⟨_, later, (untilEnd_of_more ended).trans (bind_some others)⟩

/-- Up to the end of the text all tokens are taken. -/
theorem untilEnd_ahead {statement : Reading Statement} [Composed statement]
    (shrinks : Shrinks statement) (limit : Nat) (stream : Stream)
    (enough : stream.ahead.length ≤ limit) (inside : ∀ token ∈ stream.ahead, token.kind ≠ .eof) :
    (untilEnd statement limit stream).2.ahead = [] := by
  induction limit generalizing stream with
  | zero => exact List.eq_nil_of_length_eq_zero (Nat.le_zero.mp enough)
  | succ limit ih =>
    by_cases ended : stream.ahead = []
    · exact List.suffix_nil.mp (ended ▸ ahead_suffix (untilEnd statement (limit + 1)) stream)
    have more : stream.next.kind ≠ .eof := by
      obtain ⟨token, rest, ahead⟩ := List.exists_cons_of_ne_nil ended
      rw [Stream.next, ahead]
      exact inside token (ahead ▸ List.mem_cons_self)
    have shorter := shrinks stream ended
    have suffix := ahead_suffix statement stream
    have rest := ih (statement stream).2 (by omega) fun token member =>
      inside token (suffix.subset member)
    rw [untilEnd_of_more more]
    exact List.suffix_nil.mp (rest ▸ ahead_suffix_bind _ _ _)

theorem accounts_text {tokens : List Token} (count : Nat) : Accounts (text count) tokens [] :=
  accounts_untilEnd (accounts_expression (count + 1) .lowest) count

theorem text_ahead (stream : Stream) (inside : ∀ token ∈ stream.ahead, token.kind ≠ .eof) :
    (text stream.ahead.length stream).2.ahead = [] :=
  untilEnd_ahead (shrinks_statement (shrinks_expression _ .lowest)) _ stream (Nat.le_refl _) inside

end Reading

/-- Of a text without an end inside all rows of digits are accounted for. -/
theorem parseTokens_accounts {tokens : List Token} (inside : ∀ token ∈ tokens, token.kind ≠ .eof)
    (ending : Token) :
    (parseTokens (tokens ++ [ending])).refused = tokens.any Token.overlong ∧
      (parseTokens (tokens ++ [ending])).problems.filter Problem.ofInteger = excesses tokens ∧
      (integers (parseTokens (tokens ++ [ending])).program).Sublist (numbers tokens) := by
  obtain ⟨taken, took, holds⟩ := Reading.accounts_text tokens.length
    ⟨tokens, ending.position, [], false⟩ rfl
  have ended := Reading.text_ahead ⟨tokens, ending.position, [], false⟩ inside
  -- Nothing is left ahead, so the tokens that were taken are all of them.
  obtain rfl : tokens = taken := by
    have all := took.ahead
    rwa [ended, List.append_nil] at all
  rw [parseTokens_eq_text (Nat.le_refl _) ending]
  refine ⟨took.refused.trans (Bool.false_or _), ?_, ?_⟩
  · have problems := congrArg List.reverse took.problems
    rw [← List.filter_reverse] at problems
    simpa using problems
  · cases given : (Reading.text tokens.length ⟨tokens, ending.position, [], false⟩).1 with
    | none => exact List.nil_sublist _
    | some statements => exact holds statements given

/-- All rows of digits with their numbers. -/
def rows (tokens : List Token) : List (Token × Int) :=
  (tokens.filter (·.kind = .int)).map Token.counted

theorem rows_append (first second : List Token) :
    rows (first ++ second) = rows first ++ rows second := by
  simp [rows]

theorem rows_cons_of_ne {token : Token} (tokens : List Token) (other : token.kind ≠ .int) :
    rows (token :: tokens) = rows tokens := by
  simp [rows, other]

theorem rows_cons_of_eq {token : Token} (tokens : List Token) (kind : token.kind = .int) :
    rows (token :: tokens) = token.counted :: rows tokens := by
  simp [rows, kind]

def Phrase.integers : (phrase : Phrase) → phrase.Tree → List (Token × Int)
  | expression _, tree => Holding.integers (α := Expr) tree
  | row, trees | items, trees => Holding.integers (α := List Expr) trees
  | pairs, list => Holding.integers (α := List (Expr × Expr)) list
  | parameters, list | names, list => Holding.integers (α := List Identifier) list
  | bound, tree => Holding.integers (α := Option Expr) tree
  | block, tree => Holding.integers (α := Block) tree
  | alternative, tree => Holding.integers (α := Option Block) tree
  | statement, tree => Holding.integers (α := Statement) tree
  | statements, trees => Holding.integers (α := List Statement) trees
  | program, tree => Holding.integers (α := Program) tree

theorem Ends.rows_eq {allowed : TokenKind → Prop} {tokens rest : List Token}
    (ends : Ends allowed tokens rest) : rows tokens = rows rest := by
  cases ends with
  | semicolon kind => exact rows_cons_of_ne _ (by simp [kind])
  | without => rfl

/-- The tree of a phrase has all rows of digits that the phrase was made of. -/
theorem Derives.rows_eq {phrase : Phrase} {tokens rest : List Token} {tree : phrase.Tree}
    (derives : Derives phrase tokens tree rest) :
    rows tokens = phrase.integers tree ++ rows rest := by
  have joined {level : Level} {operator : Token} (joins : operator.kind ∈ level.operators) :
      operator.kind ≠ .int := by
    intro kind
    rw [kind] at joins
    cases level <;> exact absurd joins (by decide)
  induction derives with
  | tighter _ ih | someItems _ ih | someParameters _ ih | someBound _ ih => exact ih
  | integer kind => exact rows_cons_of_eq _ kind
  | noStatements => rfl
  | binary _ joins _ first second =>
    rw [first, rows_cons_of_ne _ (joined joins), second]
    simp [Phrase.integers]
  | unary sign _ ih =>
    rcases sign with sign | sign <;> rw [rows_cons_of_ne _ (by simp [sign]), ih] <;> rfl
  | moreStatements _ _ first second =>
    rw [first, second]
    simp [Phrase.integers]
  | binding kind named assigns _ ends ih =>
    rw [rows_cons_of_ne _ (by simp [kind]), rows_cons_of_ne _ (by simp [named]),
      rows_cons_of_ne _ (by simp [assigns]), ih, ends.rows_eq]
    rfl
  | giveBack kind _ ends ih =>
    rw [rows_cons_of_ne _ (by simp [kind]), ih, ends.rows_eq]
    rfl
  | giveBackNothing kind ends =>
    rw [rows_cons_of_ne _ (by simp [kind]), ends.rows_eq]
    rfl
  | expression _ ends ih =>
    rw [ih, ends.rows_eq]
    rfl
  | @program tokens ending statements _ ends ih =>
    have nothing : rows [ending] = [] := rows_cons_of_ne [] (by simp [ends])
    rw [rows_append, ih, nothing]
    exact List.append_assoc _ _ _
  | _ => simp_all [rows_cons_of_ne, Phrase.integers]

/-- Some row of digits in a text has too many of them. -/
def Overlong (source : String) : Prop := ∃ token ∈ tokenize source, token.overlong = true

theorem accepted_eq_refused {parsed : Parsed} :
    parsed.accepted = .error .refused ↔ parsed.refused = true := by
  unfold Parsed.accepted
  split
  · simp_all
  · split <;> simp_all

theorem accepted_eq_problems {parsed : Parsed} {found : List Problem} :
    parsed.accepted = .error (.problems found) ↔
      parsed.refused = false ∧ parsed.problems ≠ [] ∧ parsed.problems = found := by
  unfold Parsed.accepted
  split
  · simp_all
  · split <;> simp_all

theorem accepted_eq_ok {parsed : Parsed} {program : Program} :
    parsed.accepted = .ok program ↔
      parsed.refused = false ∧ parsed.problems = [] ∧ parsed.program = program := by
  unfold Parsed.accepted
  split
  · simp_all
  · split <;> simp_all

theorem parse_accounts (source : String) :
    ((parse source).refused = true ↔ Overlong source) ∧
      (parse source).problems.filter Problem.ofInteger = excesses (tokenize source) ∧
      (integers (parse source).program).Sublist (numbers (tokenize source)) := by
  obtain ⟨tokens, ending, whole, kind, inside⟩ := (Cursor.ofText source.toList).exists_tokens_eq
  obtain ⟨refused, problems, held⟩ := parseTokens_accounts inside ending
  have whole : tokenize source = tokens ++ [ending] := whole
  have unlike : ending.kind ≠ .int := by simp [kind]
  rw [← whole] at refused problems held
  unfold Overlong
  rw [parse, refused, problems, whole]
  refine ⟨?_, ?_, ?_⟩
  · simp [Token.overlong, unlike]
  · simp [excesses, Token.excessive, unlike]
  · rw [← whole]
    refine held.trans ?_
    simp [whole, numbers]

theorem short_of_read {source : String} (read : (parse source).refused = false) :
    Short (tokenize source) := by
  intro token member kind
  by_contra long
  have overlong : token.overlong = true := by simp_all [Token.overlong]
  have refused := (parse_accounts source).1.mpr ⟨token, member, overlong⟩
  exact absurd (refused.symm.trans read) (by decide)

/-- A text without problems that is not refused has all rows of digits in its tree. -/
theorem integers_of_clean {source : String} (read : (parse source).refused = false)
    (clean : (parse source).problems = []) :
    integers (parse source).program = rows (tokenize source) := by
  obtain ⟨tokens, ending, whole, kind, inside⟩ := (Cursor.ofText source.toList).exists_tokens_eq
  have whole : tokenize source = tokens ++ [ending] := whole
  have short : Short tokens := fun token member =>
    short_of_read read token (whole ▸ List.mem_append_left _ member)
  rw [parse, whole] at clean ⊢
  obtain ⟨statements, derives⟩ := derives_of_parseTokens short inside clean
  have nothing : rows [ending] = [] := rows_cons_of_ne [] (by simp [kind])
  rw [parseTokens_of_derives derives short ending, rows_append, nothing, derives.rows_eq]
  simp [Phrase.integers, rows]

theorem runText_error_iff (depth level : Nat) (source : String) :
    runText depth level source = .error .refused ↔ Overlong source := by
  rw [← (parse_accounts source).1, ← accepted_eq_refused]
  unfold runText
  cases (parse source).accepted <;> simp [Except.map]

theorem Shell.enter_error_iff (depth : Nat) (shell : Shell) (line : String) :
    (∃ rejection, shell.enter depth line = .error rejection) ↔
      Command.ofLine line = .program line ∧ Overlong line := by
  rw [← (parse_accounts line).1, ← accepted_eq_refused]
  have whole {source : String} (read : Command.ofLine line = .program source) : source = line := by
    revert read
    unfold Command.ofLine
    dsimp only
    split_ifs <;> simp_all
  unfold enter
  cases command : Command.ofLine line with
  | blank | exit | ending => simp
  | program source =>
    obtain rfl := whole command
    cases accepted : (parse source).accepted with
    | ok program => simp [accepted]
    | error rejection => cases rejection <;> simp [accepted]

/-- Every row of digits in a text is converted, noted as too large or, if it has too many digits,
what the text is refused for; and for nothing else is a text refused. -/
theorem refused_iff_overlong (source : String) :
    ((parse source).refused = true ↔ Overlong source) ∧
      (∀ depth level, runText depth level source = .error .refused ↔ Overlong source) ∧
      (∀ depth (shell : Shell), (∃ rejection, shell.enter depth source = .error rejection) ↔
        Shell.Command.ofLine source = .program source ∧ Overlong source) ∧
      (∀ limit expression (stream : Stream), stream.next.kind = .int →
        stream.next.literal.length ≤ maxDigits →
        Reading.operand limit expression stream =
          if stream.next.number ≤ maxInteger then
            (some (.integer stream.next stream.next.number),
              { stream with ahead := stream.ahead.tail })
          else
            (none, { stream with
              ahead := stream.ahead.tail
              problems := .integerTooLarge stream.next.literal stream.next.position ::
                stream.problems })) ∧
      ((parse source).refused = false →
        (((parse source).problems.filter Problem.ofInteger).map Problem.message =
          ((tokenize source).filter Token.excessive).map fun token =>
            "could not parse " ++ token.literal ++ " as integer at " ++ token.position.text) ∧
        (integers (parse source).program).Sublist (numbers (tokenize source)) ∧
        ((parse source).problems = [] →
          integers (parse source).program = rows (tokenize source))) := by
  obtain ⟨refused, problems, held⟩ := parse_accounts source
  refine ⟨refused, fun depth level => runText_error_iff depth level source,
    fun depth shell => shell.enter_error_iff depth source, ?_, fun read => ⟨?_, held, ?_⟩⟩
  · intro limit expression stream kind short
    rw [Reading.operand_of_int limit expression kind, Reading.integer_apply,
      if_neg (Nat.not_lt.mpr short)]
  · rw [problems, excesses, List.map_map]
    rfl
  · exact integers_of_clean read

theorem Cursor.next_ofText_ones (count : Nat) :
    (ofText (List.replicate (count + 1) '1')).next.1 =
      ⟨.int, String.ofList (List.replicate (count + 1) '1'), .start⟩ := by
  have row : (List.replicate count '1').takeWhile isDigit = List.replicate count '1' := by
    rw [List.takeWhile_eq_self_iff]
    intro c member
    rw [List.eq_of_mem_replicate member]
    rfl
  have split (text : List Char) : (ofText ('1' :: text)).next.1 =
      ⟨.int, String.ofList ('1' :: text.takeWhile isDigit), .start⟩ := rfl
  rw [List.replicate_succ, split, row]

/-- A single row of one digit too many brings everything down. -/
theorem row_of_ones_is_refused :
    (parse (String.ofList (List.replicate (maxDigits + 1) '1'))).refused = true ∧
      runText callDepth 0 (String.ofList (List.replicate (maxDigits + 1) '1')) =
        .error .refused := by
  have overlong : Overlong (String.ofList (List.replicate (maxDigits + 1) '1')) := by
    refine ⟨⟨.int, String.ofList (List.replicate (maxDigits + 1) '1'), .start⟩, ?_, ?_⟩
    · rw [tokenize, String.toList_ofList, Cursor.tokens, Cursor.next_ofText_ones,
        if_neg (by decide)]
      exact List.mem_cons_self
    · simp [Token.overlong]
  exact ⟨(parse_accounts _).1.mpr overlong, (runText_error_iff _ _ _).mpr overlong⟩

end Monkey

import Monkey.Proofs.Grammar
import Monkey.Proofs.Reading.Composition

/-!
Readers that succeed. A reader that takes certain tokens from the front of a stream and nothing else
is described by the tokens before and after; such descriptions follow one another as the readers
do.
-/

namespace Monkey

/-- The stream with other tokens to be read. -/
def Stream.leaving (stream : Stream) (tokens : List Token) : Stream :=
  { stream with ahead := tokens }

@[simp] theorem Stream.leaving_ahead (stream : Stream) (tokens : List Token) :
    (stream.leaving tokens).ahead = tokens := rfl

theorem Stream.next_kind (stream : Stream) : stream.next.kind = following stream.ahead := by
  unfold Stream.next following
  cases stream.ahead <;> rfl

namespace Reading

/-- The reader takes the tokens up to `rest`, whatever else the stream holds. -/
def Reads {α : Type} (reader : Reading α) (tokens : List Token) (value : α)
    (rest : List Token) : Prop :=
  ∀ stream : Stream, reader (stream.leaving tokens) = (some value, stream.leaving rest)

namespace Reads

variable {α β : Type} {tokens middle rest : List Token}

theorem pure (value : α) (tokens : List Token) : Reads (Pure.pure value) tokens value tokens :=
  fun _ => rfl

theorem bind {first : Reading α} {next : α → Reading β} {value : α} {result : β}
    (start : Reads first tokens value middle) (further : Reads (next value) middle result rest) :
    Reads (first >>= next) tokens result rest :=
  fun stream => (bind_some (start stream)).trans (further stream)

theorem peek {next : Token → Reading β} {result : β}
    (further : ∀ token, token.kind = following tokens → Reads (next token) tokens result rest) :
    Reads (Reading.peek >>= next) tokens result rest :=
  fun stream => further _ (stream.leaving tokens).next_kind stream

theorem peek_cons {next : Token → Reading β} {result : β} {token : Token}
    (further : Reads (next token) (token :: tokens) result rest) :
    Reads (Reading.peek >>= next) (token :: tokens) result rest :=
  fun stream => further stream

theorem take (token : Token) (tokens : List Token) :
    Reads Reading.take (token :: tokens) token tokens := fun _ => rfl

theorem expect {token : Token} {kind : TokenKind} (same : token.kind = kind)
    (tokens : List Token) : Reads (Reading.expect kind) (token :: tokens) token tokens := by
  refine peek fun next shown => ?_
  rw [if_pos (shown.trans same)]
  exact take token tokens

theorem takeIf_of_eq {token : Token} {kind : TokenKind} (same : token.kind = kind)
    (tokens : List Token) : Reads (Reading.takeIf kind) (token :: tokens) true tokens := by
  refine peek fun next shown => ?_
  rw [if_pos (shown.trans same)]
  exact bind (take token tokens) (pure true tokens)

theorem takeIf_of_ne {kind : TokenKind} (other : following tokens ≠ kind) :
    Reads (Reading.takeIf kind) tokens false tokens := by
  refine peek fun next shown => ?_
  rw [if_neg (shown ▸ other)]
  exact pure false tokens

end Reads

/-! Rows between brackets. The reader of the parts is a parameter, as it is for the rows. -/

section
variable {expression : Reading Expr} {limit : Nat} {closing : TokenKind}
variable {tokens middle later rest : List Token} {token comma colon : Token}
variable {first key value : Expr} {others : List Expr} 
variable {remaining : List (Expr × Expr)} {name : Identifier} {names : List Identifier}

theorem reads_expressions_nil (closes : token.kind = closing) :
    Reads (expressions limit expression closing) (token :: rest) [] rest :=
  .bind (.takeIf_of_eq closes rest) (.pure [] rest)

theorem reads_expressions (unclosed : following tokens ≠ closing)
    (start : Reads expression tokens first middle)
    (further : Reads (moreExpressions expression limit) middle others (token :: rest))
    (closes : token.kind = closing) :
    Reads (expressions limit expression closing) tokens (first :: others) rest := by
  refine .bind (.takeIf_of_ne unclosed) (.bind start (.bind further ?_))
  exact .bind (.expect closes rest) (.pure _ rest)

theorem reads_moreExpressions_nil (limit : Nat) (stops : following tokens ≠ .comma) :
    Reads (moreExpressions expression limit) tokens [] tokens := by
  cases limit with
  | zero => exact .pure [] tokens
  | succ limit => exact .bind (.takeIf_of_ne stops) (.pure [] tokens)

theorem reads_moreExpressions (divides : comma.kind = .comma)
    (start : Reads expression tokens first middle)
    (further : Reads (moreExpressions expression limit) middle others rest) :
    Reads (moreExpressions expression (limit + 1)) (comma :: tokens) (first :: others) rest :=
  .bind (.takeIf_of_eq divides tokens) (.bind start (.bind further (.pure _ rest)))

theorem reads_pairs_nil (limit : Nat) (closes : following tokens = .rightBrace) :
    Reads (pairs expression limit) tokens [] tokens := by
  cases limit with
  | zero => exact .pure [] tokens
  | succ limit =>
    apply Reads.peek
    intro next shown
    rw [if_pos (shown.trans closes)]
    exact .pure [] tokens

theorem reads_pairs_one (limit : Nat) (more : following tokens ≠ .rightBrace)
    (start : Reads expression tokens key (colon :: middle)) (divides : colon.kind = .colon)
    (further : Reads expression middle value rest) (closes : following rest = .rightBrace) :
    Reads (pairs expression (limit + 1)) tokens [(key, value)] rest := by
  apply Reads.peek
  intro next shown
  rw [if_neg (shown ▸ more)]
  refine .bind start (.bind (.expect divides middle) (.bind further (.peek fun next shown => ?_)))
  rw [if_pos (shown.trans closes)]
  exact .pure _ rest

theorem reads_pairs (more : following tokens ≠ .rightBrace)
    (start : Reads expression tokens key (colon :: middle)) (divides : colon.kind = .colon)
    (further : Reads expression middle value (comma :: later)) (separates : comma.kind = .comma)
    (ending : Reads (pairs expression limit) later remaining rest) :
    Reads (pairs expression (limit + 1)) tokens ((key, value) :: remaining) rest := by
  apply Reads.peek
  intro next shown
  rw [if_neg (shown ▸ more)]
  refine .bind start (.bind (.expect divides middle) (.bind further (.peek fun next shown => ?_)))
  rw [if_neg (by rw [shown, following_cons, separates]; decide)]
  exact .bind (.expect separates later) (.bind ending (.pure _ rest))

theorem reads_parameter (kind : token.kind = .ident) (rest : List Token) :
    Reads parameter (token :: rest) ⟨token, token.literal⟩ rest :=
  .bind (.expect kind rest) (.pure _ rest)

theorem reads_moreParameters_nil (limit : Nat) (stops : following tokens ≠ .comma) :
    Reads (moreParameters limit) tokens [] tokens := by
  cases limit with
  | zero => exact .pure [] tokens
  | succ limit => exact .bind (.takeIf_of_ne stops) (.pure [] tokens)

theorem reads_moreParameters (divides : comma.kind = .comma)
    (start : Reads parameter tokens name middle)
    (further : Reads (moreParameters limit) middle names rest) :
    Reads (moreParameters (limit + 1)) (comma :: tokens) (name :: names) rest :=
  .bind (.takeIf_of_eq divides tokens) (.bind start (.bind further (.pure _ rest)))

theorem reads_parameters_nil (closes : token.kind = .rightParen) :
    Reads (parameters limit) (token :: rest) [] rest :=
  .bind (.takeIf_of_eq closes rest) (.pure [] rest)

theorem reads_parameters (unclosed : following tokens ≠ .rightParen)
    (start : Reads parameter tokens name middle)
    (further : Reads (moreParameters limit) middle names (token :: rest))
    (closes : token.kind = .rightParen) :
    Reads (parameters limit) tokens (name :: names) rest := by
  refine .bind (.takeIf_of_ne unclosed) (.bind start (.bind further ?_))
  exact .bind (.expect closes rest) (.pure _ rest)

/-! Statements and blocks. -/

/-- Past its semicolon a statement does not look. -/
theorem reads_ending {allowed : TokenKind → Prop} {tree : Statement}
    (ends : Ends allowed tokens rest) (other : tokens = rest → following rest ≠ .semicolon) :
    Reads (takeIf .semicolon >>= fun _ => pure tree) tokens tree rest := by
  cases ends with
  | semicolon kind => exact .bind (.takeIf_of_eq kind rest) (.pure tree rest)
  | without => exact .bind (.takeIf_of_ne (other rfl)) (.pure tree _)

theorem reads_binding {assign named : Token} (kind : token.kind = .letKeyword)
    (ident : named.kind = .ident) (assigns : assign.kind = .assign)
    (inner : Reads expression tokens value middle) (ends : Ends (· ∉ continuing) middle rest)
    (other : middle = rest → following rest ≠ .semicolon) :
    Reads (statement expression) (token :: named :: assign :: tokens)
      (.binding token ⟨named, named.literal⟩ (some value)) rest := by
  apply Reads.peek
  intro first shown
  simp only [shown, following_cons, kind]
  refine .bind (.take token _) (.bind (.expect ident _) (.bind (.expect assigns tokens) ?_))
  exact .bind inner (reads_ending ends other)

theorem reads_giveBack (kind : token.kind = .returnKeyword)
    (given : following tokens ∉ [.semicolon, .rightBrace, .eof])
    (inner : Reads expression tokens value middle) (ends : Ends (· ∉ continuing) middle rest)
    (other : middle = rest → following rest ≠ .semicolon) :
    Reads (statement expression) (token :: tokens) (.giveBack token (some value)) rest := by
  apply Reads.peek
  intro first shown
  simp only [shown, following_cons, kind]
  refine .bind (.take token tokens) (.peek fun next shown => ?_)
  rw [← shown] at given
  split <;> simp_all
  exact .bind (.bind inner (.pure _ middle)) (reads_ending ends other)

theorem reads_giveBackNothing (kind : token.kind = .returnKeyword)
    (ends : Ends (· ∈ [.semicolon, .rightBrace, .eof]) tokens rest)
    (other : tokens = rest → following rest ≠ .semicolon) :
    Reads (statement expression) (token :: tokens) (.giveBack token none) rest := by
  apply Reads.peek
  intro first shown
  simp only [shown, following_cons, kind]
  refine .bind (.take token tokens) (.peek fun next shown => ?_)
  have none : next.kind ∈ [.semicolon, .rightBrace, .eof] := by
    rw [shown]
    cases ends with
    | semicolon kind => simp [kind]
    | without stops => exact stops
  simp only [List.mem_cons, List.not_mem_nil, or_false] at none
  rcases none with none | none | none <;> simp only [none]
  all_goals exact .bind (.pure _ tokens) (reads_ending ends other)

theorem reads_expression (starts : token.kind ∈ starters)
    (inner : Reads expression (token :: tokens) value middle)
    (ends : Ends (· ∉ continuing) middle rest)
    (other : middle = rest → following rest ≠ .semicolon) :
    Reads (statement expression) (token :: tokens) (.expression token (some value)) rest := by
  apply Reads.peek_cons
  split
  · simp_all [starters]
  · simp_all [starters]
  · exact .bind inner (reads_ending ends other)

theorem reads_attempt {α : Type} {reader : Reading α} {result : α}
    (inner : Reads reader tokens result rest) :
    Reads (attempt reader) tokens (some result) rest := by
  intro stream
  change (some (reader (stream.leaving tokens)).1, (reader (stream.leaving tokens)).2) = _
  rw [inner stream]

variable {statement : Reading Statement} {tree : Statement} {trees : List Statement}

theorem reads_untilBrace_nil (closes : token.kind = .rightBrace) :
    Reads (untilBrace statement (limit + 1)) (token :: rest) [] rest := by
  apply Reads.peek_cons
  simp only [closes]
  exact .bind (.take token rest) (.pure [] rest)

theorem reads_untilBrace (more : following tokens ∉ [.rightBrace, .eof])
    (start : Reads statement tokens tree middle)
    (further : Reads (untilBrace statement limit) middle trees rest) :
    Reads (untilBrace statement (limit + 1)) tokens (tree :: trees) rest := by
  apply Reads.peek
  intro next shown
  rw [← shown] at more
  split <;> simp_all
  exact .bind (reads_attempt start) (.bind further (.pure _ rest))

theorem reads_untilEnd_nil (limit : Nat) : Reads (untilEnd statement limit) [] [] [] := by
  cases limit with
  | zero => exact .pure [] []
  | succ limit =>
    apply Reads.peek
    intro next shown
    simp only [shown, following_nil]
    exact .pure [] []

theorem reads_untilEnd (more : following tokens ≠ .eof)
    (start : Reads statement tokens tree middle)
    (further : Reads (untilEnd statement limit) middle trees rest) :
    Reads (untilEnd statement (limit + 1)) tokens (tree :: trees) rest := by
  apply Reads.peek
  intro next shown
  rw [← shown] at more
  split <;> simp_all
  exact .bind (reads_attempt start) (.bind further (.pure _ rest))

theorem reads_block (opens : token.kind = .leftBrace)
    (inner : Reads (untilBrace (Reading.statement expression) limit) tokens trees rest) :
    Reads (block limit expression) (token :: tokens) ⟨token, trees⟩ rest :=
  .bind (.expect opens tokens) (.bind inner (.pure _ rest))

end

end Reading
end Monkey

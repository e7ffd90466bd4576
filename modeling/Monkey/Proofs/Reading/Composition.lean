import Monkey.Syntax.Reading

/-!
All readers are put together from the same few steps. What holds of each step and is kept when one
reader goes on after another therefore holds of every reader: problems are only added, and what is
left to read is the end of what there was.
-/

namespace Monkey.Reading

/-- The readers that are made of single steps. It is a class, so that the steps of a reader are
found by looking at how it is written. -/
class inductive Composed : {α : Type} → Reading α → Prop
  | pure {α : Type} (value : α) : Composed (Pure.pure value : Reading α)
  | bind {α β : Type} {first : Reading α} {next : α → Reading β} (start : Composed first)
      (further : ∀ value, Composed (next value)) : Composed (first >>= next)
  | fail {α : Type} : Composed (fail : Reading α)
  | peek : Composed peek
  | take : Composed take
  | note (problem : Problem) : Composed (note problem)
  | refuse : Composed refuse
  | attempt {α : Type} {reader : Reading α} (inner : Composed reader) : Composed (attempt reader)

theorem bind_some {α β : Type} {first : Reading α} {next : α → Reading β} {stream later : Stream}
    {value : α} (start : first stream = (some value, later)) :
    (first >>= next) stream = next value later := by
  dsimp only [Bind.bind]
  rw [start]

theorem bind_none {α β : Type} {first : Reading α} {next : α → Reading β} {stream later : Stream}
    (start : first stream = (none, later)) : (first >>= next) stream = (none, later) := by
  dsimp only [Bind.bind]
  rw [start]

namespace Composed

variable {α : Type} {reader : Reading α}

/-- What every step keeps, every reader keeps. -/
theorem invariant (composed : Composed reader) (kept : Stream → Stream → Prop)
    (stays : ∀ stream, kept stream stream)
    (joins : ∀ first second third, kept first second → kept second third → kept first third)
    (takes : ∀ stream, kept stream { stream with ahead := stream.ahead.tail })
    (notes : ∀ stream problem, kept stream { stream with problems := problem :: stream.problems })
    (refuses : ∀ stream, kept stream { stream with refused := true }) (stream : Stream) :
    kept stream (reader stream).2 := by
  induction composed generalizing stream with
  | pure | fail | peek => exact stays stream
  | take => exact takes stream
  | note problem => exact notes stream problem
  | refuse => exact refuses stream
  | attempt _ ih => exact ih stream
  | @bind _ _ first next _ _ start further =>
    have reached := start stream
    cases outcome : first stream with
    | mk result later =>
      rw [outcome] at reached
      cases result with
      | none => rwa [bind_none outcome]
      | some value =>
        rw [bind_some outcome]
        exact joins _ _ _ reached (further value later)

end Composed

/-- Problems are only added. -/
theorem problems_suffix {α : Type} (reader : Reading α) [composed : Composed reader]
    (stream : Stream) : stream.problems <:+ (reader stream).2.problems :=
  composed.invariant (fun first second => first.problems <:+ second.problems)
    (fun _ => List.suffix_rfl) (fun _ _ _ => List.IsSuffix.trans) (fun _ => List.suffix_rfl)
    (fun _ _ => List.suffix_cons _ _) (fun _ => List.suffix_rfl) stream

/-- Tokens are only taken from the front. -/
theorem ahead_suffix {α : Type} (reader : Reading α) [composed : Composed reader]
    (stream : Stream) : (reader stream).2.ahead <:+ stream.ahead :=
  composed.invariant (fun first second => second.ahead <:+ first.ahead)
    (fun _ => List.suffix_rfl) (fun _ _ _ first second => second.trans first)
    (fun _ => List.tail_suffix _) (fun _ _ => List.suffix_rfl) (fun _ => List.suffix_rfl) stream

section
variable {α β : Type} (first : Reading α) (next : α → Reading β) [∀ value, Composed (next value)]

theorem problems_suffix_bind (stream : Stream) :
    (first stream).2.problems <:+ ((first >>= next) stream).2.problems := by
  cases outcome : first stream with
  | mk result later =>
    cases result with
    | none =>
      have same : (first >>= next) stream = (none, later) := bind_none outcome
      exact same ▸ List.suffix_rfl
    | some value =>
      rw [bind_some outcome]
      exact problems_suffix (next value) later

theorem ahead_suffix_bind (stream : Stream) :
    ((first >>= next) stream).2.ahead <:+ (first stream).2.ahead := by
  cases outcome : first stream with
  | mk result later =>
    cases result with
    | none =>
      have same : (first >>= next) stream = (none, later) := bind_none outcome
      exact same ▸ List.suffix_rfl
    | some value =>
      rw [bind_some outcome]
      exact ahead_suffix (next value) later

end

section
variable {α β : Type} {first second : Reading α}

instance (value : α) : Composed (pure value : Reading α) := .pure value

instance {next : α → Reading β} [Composed first] [∀ value, Composed (next value)] :
    Composed (first >>= next) := .bind inferInstance inferInstance

instance (change : α → β) [Composed first] : Composed (change <$> first) :=
  .bind inferInstance fun _ => .pure _

instance {condition : Prop} [Decidable condition] [Composed first] [Composed second] :
    Composed (if condition then first else second) := by
  split <;> infer_instance

instance : Composed (fail : Reading α) := .fail

instance : Composed peek := .peek

instance : Composed take := .take

instance (problem : Problem) : Composed (note problem) := .note problem

instance : Composed refuse := .refuse

instance [Composed first] : Composed (attempt first) := .attempt inferInstance

end

/-! The readers of the language. -/

section
variable {expression : Reading Expr} [Composed expression]

instance (kind : TokenKind) : Composed (expect kind) := by
  unfold expect
  infer_instance

instance (kind : TokenKind) : Composed (takeIf kind) := by
  unfold takeIf
  infer_instance

instance (token : Token) : Composed (integer token) := by
  unfold integer
  infer_instance

instance : Composed (statement expression) := by
  apply Composed.bind .peek
  intro first
  split
  · infer_instance
  · apply Composed.bind .take
    intro token
    apply Composed.bind .peek
    intro next
    dsimp only
    split <;> infer_instance
  · infer_instance

instance {statement : Reading Statement} [Composed statement] (limit : Nat) :
    Composed (untilBrace statement limit) := by
  have missing : Composed untilBrace.missingBrace := by
    unfold untilBrace.missingBrace
    infer_instance
  induction limit with
  | zero => exact missing
  | succ limit ih =>
    apply Composed.bind .peek
    intro next
    split <;> infer_instance

instance {statement : Reading Statement} [Composed statement] (limit : Nat) :
    Composed (untilEnd statement limit) := by
  induction limit with
  | zero => exact .pure _
  | succ limit ih =>
    apply Composed.bind .peek
    intro next
    split <;> infer_instance

instance (limit : Nat) : Composed (block limit expression) := by
  unfold block
  infer_instance

instance (limit : Nat) : Composed (moreExpressions expression limit) := by
  induction limit <;> (unfold moreExpressions; infer_instance)

instance (limit : Nat) (closing : TokenKind) : Composed (expressions limit expression closing) := by
  unfold expressions
  infer_instance

instance (limit : Nat) : Composed (pairs expression limit) := by
  induction limit with
  | zero => exact .pure _
  | succ limit ih =>
    apply Composed.bind .peek
    intro next
    split <;> infer_instance

instance : Composed parameter := by
  unfold parameter
  infer_instance

instance (limit : Nat) : Composed (moreParameters limit) := by
  induction limit <;> (unfold moreParameters; infer_instance)

instance (limit : Nat) : Composed (parameters limit) := by
  unfold parameters
  infer_instance

instance (limit : Nat) (token : Token) : Composed (conditional limit expression token) := by
  unfold conditional
  infer_instance

instance (limit : Nat) (token : Token) : Composed (function limit expression token) := by
  unfold function
  infer_instance

instance (token : Token) (left : Expr) (lower : Option Expr) :
    Composed (slice expression token left lower) := by
  unfold slice
  infer_instance

instance (token : Token) (left : Expr) : Composed (indexOrSlice expression token left) := by
  unfold indexOrSlice
  infer_instance

end

section
variable {expression : Precedence → Reading Expr}
variable [∀ surroundings, Composed (expression surroundings)]

instance (limit : Nat) : Composed (operand limit expression) := by
  apply Composed.bind .take
  intro token
  split <;> infer_instance

instance (limit : Nat) (token : Token) (left : Expr) :
    Composed (operation limit expression token left) := by
  unfold operation
  split <;> infer_instance

instance (limit : Nat) (surroundings : Precedence) (count : Nat) (left : Expr) :
    Composed (operations limit expression surroundings count left) := by
  induction count generalizing left <;> (unfold operations; infer_instance)

end

instance (bound : Nat) (surroundings : Precedence) : Composed (expression bound surroundings) := by
  induction bound generalizing surroundings <;> (unfold expression; infer_instance)

/-! Operands that are settled by their first token. -/

section
variable (limit : Nat) (expression : Precedence → Reading Expr) {stream : Stream}

theorem operand_of_int (kind : stream.next.kind = .int) :
    operand limit expression stream =
      integer stream.next { stream with ahead := stream.ahead.tail } := by
  unfold operand
  refine (bind_some rfl).trans ?_
  simp only [kind]

variable {token : Token}

theorem integer_of_long (long : maxDigits < token.literal.length) :
    integer token = (refuse >>= fun _ => fail) := if_pos long

theorem integer_of_large (digits : token.literal.length ≤ maxDigits)
    (large : maxInteger < Nat.ofDigitChars 10 token.literal.toList 0) :
    integer token = (note (.integerTooLarge token.literal token.position) >>= fun _ => fail) :=
  (if_neg (Nat.not_lt.mpr digits)).trans (if_pos large)

theorem integer_of_fits (digits : token.literal.length ≤ maxDigits)
    (fits : Nat.ofDigitChars 10 token.literal.toList 0 ≤ maxInteger) :
    integer token = pure (.integer token (Nat.ofDigitChars 10 token.literal.toList 0)) :=
  (if_neg (Nat.not_lt.mpr digits)).trans (if_neg (Nat.not_lt.mpr fits))

end

end Monkey.Reading

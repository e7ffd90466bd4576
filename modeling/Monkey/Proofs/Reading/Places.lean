import Mathlib.Data.List.Forall2
import Monkey.Proofs.Reading.Bounds
import Monkey.Syntax.Agreement

/-!
Places are not looked at while reading. Two rows of tokens that differ in nothing but places are
read as trees that differ in nothing but places, and the problems noted on the way are told in the
same words. Problems stand where tokens do, so if the places of the tokens are related in some way,
those of the problems are related in the same way.
-/

namespace Monkey

namespace Problem

/-- The same problem at another place. -/
def moved (place : Position) : Problem → Problem
  | unexpected expected found _ => unexpected expected found place
  | noExpression found _ => noExpression found place
  | integerTooLarge digits _ => integerTooLarge digits place

theorem moved_place (problem : Problem) : problem.moved problem.place = problem := by
  cases problem <;> rfl

/-- What is told about a problem ends in its place and is the same otherwise. -/
theorem exists_words_moved (problem : Problem) :
    ∃ words, ∀ place, (problem.moved place).message = words ++ " at " ++ place.text := by
  cases problem with
  | unexpected expected found =>
    refine ⟨"expected next token to be " ++ expected.name ++ ", got " ++ found.name ++ " instead",
      fun place => ?_⟩
    rw [@String.append_assoc _ " instead" " at "]
    rfl
  | noExpression found =>
    exact ⟨"no parse function for token kind " ++ found.name, fun _ => rfl⟩
  | integerTooLarge digits =>
    refine ⟨"could not parse " ++ digits ++ " as integer", fun place => ?_⟩
    rw [@String.append_assoc _ " as integer" " at "]
    rfl

theorem exists_message_moved (problem : Problem) :
    ∃ words, ∀ place, (problem.moved place).message = words ++ place.text := by
  obtain ⟨words, told⟩ := problem.exists_words_moved
  exact ⟨words ++ " at ", told⟩

def Alike (first second : Problem) : Prop := second = first.moved second.place

/-- The same problem at places that are related. -/
def Matched (places : Position → Position → Prop) (first second : Problem) : Prop :=
  first.Alike second ∧ places first.place second.place

end Problem

/-- What can be compared apart from places. -/
class Placed (α : Type) where
  alike : α → α → Prop

export Placed (alike)

instance : Placed Bool := ⟨Eq⟩
instance : Placed Unit := ⟨Eq⟩
instance : Placed Token := ⟨fun first second => first.agrees second = true⟩
instance : Placed Identifier := ⟨fun first second => first.agrees second = true⟩
instance : Placed (List Identifier) := ⟨fun first second => Identifier.allAgree first second = true⟩
instance : Placed Expr := ⟨fun first second => first.agrees second = true⟩
instance : Placed (Option Expr) := ⟨fun first second => Expr.valuesAgree first second = true⟩
instance : Placed (List Expr) := ⟨fun first second => Expr.allAgree first second = true⟩
instance : Placed (List (Expr × Expr)) :=
  ⟨fun first second => Expr.pairsAgree first second = true⟩
instance : Placed Block := ⟨fun first second => first.agrees second = true⟩
instance : Placed Statement := ⟨fun first second => first.agrees second = true⟩
instance : Placed (List Statement) := ⟨fun first second => Statement.allAgree first second = true⟩
instance : Placed (Option Statement) :=
  ⟨fun first second => Statement.allAgree first.toList second.toList = true⟩

/-- What can be compared where places are related. This tells on tokens only, since trees are
compared apart from places all the same. -/
class Located (α : Type) where
  matched : (Position → Position → Prop) → α → α → Prop

export Located (matched)

instance (priority := low) {α : Type} [Placed α] : Located α := ⟨fun _ => alike⟩
instance : Located Token :=
  ⟨fun places first second => first.agrees second = true ∧ places first.position second.position⟩

attribute [local simp] alike matched Identifier.agrees Identifier.allAgree Expr.agrees
  Expr.valuesAgree Expr.allAgree Expr.pairsAgree Block.agrees Block.alternativesAgree
  Statement.agrees Statement.allAgree

/-- Two streams that differ in places only, and whose places are related. -/
structure Stream.Alike (places : Position → Position → Prop) (first second : Stream) : Prop where
  ahead : List.Forall₂ (matched places) first.ahead second.ahead
  finish : places first.finish second.finish
  problems : List.Forall₂ (Problem.Matched places) first.problems second.problems
  refused : first.refused = second.refused

section
variable {places : Position → Position → Prop} {first second : Stream}

theorem Stream.Alike.next (same : first.Alike places second) :
    matched places first.next second.next := by
  have ahead := same.ahead
  unfold Stream.next
  generalize first.ahead = tokens, second.ahead = others at ahead
  cases ahead with
  | nil => exact ⟨rfl, same.finish⟩
  | cons token _ => exact token

theorem Stream.Alike.tail (same : first.Alike places second) :
    Alike places { first with ahead := first.ahead.tail }
      { second with ahead := second.ahead.tail } := by
  refine ⟨?_, same.finish, same.problems, same.refused⟩
  have ahead := same.ahead
  dsimp only
  generalize first.ahead = tokens, second.ahead = others at ahead
  cases ahead with
  | nil => exact .nil
  | cons _ rest => exact rest

end

namespace Reading

variable {places : Position → Position → Prop}

/-- From streams that differ in places only the readers go the same way. -/
def Unplaced {α : Type} [Located α] (places : Position → Position → Prop)
    (first second : Reading α) : Prop :=
  ∀ stream twin : Stream, stream.Alike places twin →
    Option.Rel (matched places) (first stream).1 (second twin).1 ∧
      (first stream).2.Alike places (second twin).2

namespace Unplaced

variable {α β : Type} [Located α] [Located β]

theorem pure {value other : α} (same : matched places value other) :
    Unplaced places (Pure.pure value) (Pure.pure other) :=
  fun _ _ alike => ⟨.some same, alike⟩

theorem fail : Unplaced places (Reading.fail : Reading α) Reading.fail :=
  fun _ _ alike => ⟨.none, alike⟩

theorem bind {first second : Reading α} {next others : α → Reading β}
    (start : Unplaced places first second)
    (further : ∀ value other, matched places value other →
      Unplaced places (next value) (others other)) :
    Unplaced places (first >>= next) (second >>= others) := by
  intro stream twin same
  obtain ⟨results, later⟩ := start stream twin same
  cases outcome : first stream with
  | mk result reached =>
    cases outcome' : second twin with
    | mk result' reached' =>
      rw [outcome, outcome'] at results later
      cases results with
      | none =>
        rw [bind_none outcome, bind_none outcome']
        exact ⟨.none, later⟩
      | some same =>
        rw [bind_some outcome, bind_some outcome']
        exact further _ _ same reached reached' later

theorem peek {next others : Token → Reading β}
    (further : ∀ token other : Token, token.kind = other.kind → matched places token other →
      Unplaced places (next token) (others other)) :
    Unplaced places (Reading.peek >>= next) (Reading.peek >>= others) :=
  fun stream twin same => further stream.next twin.next
    (Token.agrees_iff.mp same.next.1).1 same.next stream twin same

theorem take : Unplaced places Reading.take Reading.take :=
  fun _ _ same => ⟨.some same.next, same.tail⟩

theorem note {problem other : Problem} (same : problem.Matched places other) :
    Unplaced places (Reading.note problem) (Reading.note other) :=
  fun _ _ alike => ⟨.some rfl, alike.ahead, alike.finish, .cons same alike.problems, alike.refused⟩

theorem refuse : Unplaced places Reading.refuse Reading.refuse :=
  fun _ _ alike => ⟨.some rfl, alike.ahead, alike.finish, alike.problems, rfl⟩

theorem expect (kind : TokenKind) :
    Unplaced places (Reading.expect kind) (Reading.expect kind) := by
  refine peek fun token other same shown => ?_
  rw [← same]
  split
  · exact take
  · exact .bind (note ⟨rfl, shown.2⟩) fun _ _ _ => fail

theorem takeIf (kind : TokenKind) :
    Unplaced places (Reading.takeIf kind) (Reading.takeIf kind) := by
  refine peek fun token other same _ => ?_
  rw [← same]
  split
  · exact take.bind fun _ _ _ => pure rfl
  · exact pure rfl

theorem attempt {first second : Reading Statement} (inner : Unplaced places first second) :
    Unplaced places (Reading.attempt first) (Reading.attempt second) := by
  intro stream twin same
  obtain ⟨results, later⟩ := inner stream twin same
  refine ⟨.some ?_, later⟩
  generalize (first stream).1 = result, (second twin).1 = other at results
  cases results with
  | none => simp
  | some same => simpa using same

end Unplaced

/-! The readers of the language. -/

theorem unplaced_integer {token other : Token} (same : matched places token other) :
    Unplaced places (integer token) (integer other) := by
  obtain ⟨same, near⟩ := same
  obtain ⟨-, literal⟩ := Token.agrees_iff.mp same
  unfold integer
  rw [← literal]
  split
  · exact Unplaced.refuse.bind fun _ _ _ => .fail
  · dsimp only
    split
    · exact .bind (.note ⟨rfl, near⟩) fun _ _ _ => .fail
    · exact .pure (by simp [same])

theorem allAgree_append {first first' : Option Statement} {rest rest' : List Statement}
    (same : alike first first') (same' : alike rest rest') :
    alike (first.toList ++ rest) (first'.toList ++ rest') := by
  cases first <;> cases first' <;> simp_all

section
variable {first second : Reading Expr} (inner : Unplaced places first second)
include inner

theorem unplaced_statement : Unplaced places (statement first) (statement second) := by
  refine .peek fun token other same agree => ?_
  rw [← same]
  split
  · refine Unplaced.take.bind fun _ _ token => (Unplaced.expect _).bind fun name _ named => ?_
    refine (Unplaced.expect _).bind fun _ _ _ => inner.bind fun value _ valued => ?_
    refine (Unplaced.takeIf _).bind fun _ _ _ => .pure ?_
    obtain ⟨_, literal⟩ := Token.agrees_iff.mp named.1
    simp_all
  · have given : Unplaced places (some <$> first) (some <$> second) :=
      inner.bind fun value _ valued => .pure (by simpa using valued)
    refine Unplaced.take.bind fun token other same => .peek fun next _ same' _ => ?_
    have ended (value value' : Option Expr) (valued : alike value value') :
        Unplaced places (takeIf .semicolon >>= fun _ => pure (Statement.giveBack token value))
          (takeIf .semicolon >>= fun _ => pure (Statement.giveBack other value')) := by
      refine (Unplaced.takeIf _).bind fun _ _ _ => .pure ?_
      simp_all
    have nothing := ended none none (by simp)
    rw [← same']
    dsimp only
    split
    · exact nothing
    · exact nothing
    · exact nothing
    · exact given.bind ended
  · refine inner.bind fun value _ valued => (Unplaced.takeIf _).bind fun _ _ _ => .pure ?_
    simp_all

theorem unplaced_untilBrace (limit : Nat) :
    Unplaced places (untilBrace (statement first) limit) (untilBrace (statement second) limit) := by
  have missing : Unplaced places untilBrace.missingBrace untilBrace.missingBrace :=
    .peek fun _ _ _ same => .bind (.note ⟨rfl, same.2⟩) fun _ _ _ => .pure (by simp)
  induction limit with
  | zero => exact missing
  | succ limit ih =>
    refine .peek fun next _ same _ => ?_
    rw [← same]
    split
    · exact Unplaced.take.bind fun _ _ _ => .pure (by simp)
    · exact missing
    · refine (Unplaced.attempt (unplaced_statement inner)).bind fun first _ alike => ?_
      exact ih.bind fun others _ alike' => .pure (allAgree_append alike alike')

theorem unplaced_untilEnd (limit : Nat) :
    Unplaced places (untilEnd (statement first) limit) (untilEnd (statement second) limit) := by
  induction limit with
  | zero => exact .pure (by simp)
  | succ limit ih =>
    refine .peek fun next _ same _ => ?_
    rw [← same]
    split
    · exact .pure (by simp)
    · refine (Unplaced.attempt (unplaced_statement inner)).bind fun first _ alike => ?_
      exact ih.bind fun others _ alike' => .pure (allAgree_append alike alike')

theorem unplaced_block (limit : Nat) :
    Unplaced places (block limit first) (block limit second) := by
  refine (Unplaced.expect _).bind fun token _ same => ?_
  refine (unplaced_untilBrace inner limit).bind fun statements _ same' => .pure ?_
  simp_all

theorem unplaced_moreExpressions (limit : Nat) :
    Unplaced places (moreExpressions first limit) (moreExpressions second limit) := by
  induction limit with
  | zero => exact .pure (by simp)
  | succ limit ih =>
    refine (Unplaced.takeIf _).bind fun found _ same => ?_
    subst same
    split
    · refine inner.bind fun value _ same => ih.bind fun others _ same' => .pure ?_
      simp_all
    · exact .pure (by simp)

theorem unplaced_expressions (limit : Nat) (closing : TokenKind) :
    Unplaced places (expressions limit first closing) (expressions limit second closing) := by
  refine (Unplaced.takeIf _).bind fun found _ same => ?_
  subst same
  split
  · exact .pure (by simp)
  · refine inner.bind fun value _ same => ?_
    refine (unplaced_moreExpressions inner limit).bind fun others _ same' => ?_
    exact (Unplaced.expect _).bind fun _ _ _ => .pure (by simp_all)

theorem unplaced_pairs (limit : Nat) :
    Unplaced places (pairs first limit) (pairs second limit) := by
  induction limit with
  | zero => exact .pure (by simp)
  | succ limit ih =>
    refine .peek fun next _ same _ => ?_
    rw [← same]
    split
    · exact .pure (by simp)
    refine inner.bind fun key _ same => (Unplaced.expect _).bind fun _ _ _ => ?_
    refine inner.bind fun value _ same' => .peek fun next _ same'' _ => ?_
    rw [← same'']
    split
    · exact .pure (by simp_all)
    · refine (Unplaced.expect _).bind fun _ _ _ => ih.bind fun others _ _ => .pure ?_
      simp_all

end

theorem unplaced_parameter : Unplaced places parameter parameter := by
  refine (Unplaced.expect _).bind fun token _ same => .pure ?_
  obtain ⟨_, literal⟩ := Token.agrees_iff.mp same.1
  simp_all

theorem unplaced_moreParameters (limit : Nat) :
    Unplaced places (moreParameters limit) (moreParameters limit) := by
  induction limit with
  | zero => exact .pure rfl
  | succ limit ih =>
    refine (Unplaced.takeIf _).bind fun found _ same => ?_
    subst same
    split
    · refine unplaced_parameter.bind fun name _ same => ih.bind fun others _ same' => .pure ?_
      simp_all
    · exact .pure rfl

theorem unplaced_parameters (limit : Nat) :
    Unplaced places (parameters limit) (parameters limit) := by
  refine (Unplaced.takeIf _).bind fun found _ same => ?_
  subst same
  split
  · exact .pure rfl
  · refine unplaced_parameter.bind fun name _ same => ?_
    refine (unplaced_moreParameters limit).bind fun others _ same' => ?_
    exact (Unplaced.expect _).bind fun _ _ _ => .pure (by simp_all)

section
variable {first second : Reading Expr} (inner : Unplaced places first second) {token other : Token}
variable (same : token.agrees other = true)
include inner same

theorem unplaced_conditional (limit : Nat) :
    Unplaced places (conditional limit first token) (conditional limit second other) := by
  have block : Unplaced places (block limit first) (block limit second) :=
    unplaced_block inner limit
  refine (Unplaced.expect _).bind fun _ _ _ => inner.bind fun condition _ _ => ?_
  refine (Unplaced.expect _).bind fun _ _ _ => block.bind fun yes _ _ => ?_
  refine (Unplaced.takeIf _).bind fun found _ found' => ?_
  subst found'
  split
  · refine block.bind fun no _ _ => .pure ?_
    simp_all
  · exact .pure (by simp_all)

theorem unplaced_function (limit : Nat) :
    Unplaced places (function limit first token) (function limit second other) := by
  refine (Unplaced.expect _).bind fun _ _ _ => (unplaced_parameters limit).bind fun names _ _ => ?_
  refine (unplaced_block inner limit).bind fun body _ _ => .pure ?_
  simp_all

variable {left left' : Expr} (lefts : left.agrees left' = true)
include lefts

theorem unplaced_slice {lower lower' : Option Expr}
    (lowers : Expr.valuesAgree lower lower' = true) :
    Unplaced places (slice first token left lower) (slice second other left' lower') := by
  have given : Unplaced places (some <$> first) (some <$> second) :=
    inner.bind fun value _ valued => .pure (by simpa using valued)
  refine .peek fun next _ kinds _ => ?_
  rw [← kinds]
  have ended (upper upper' : Option Expr) (uppers : alike upper upper') :
      Unplaced places (expect .rightBracket >>= fun _ => pure (Expr.slice token left lower upper))
        (expect .rightBracket >>= fun _ => pure (Expr.slice other left' lower' upper')) :=
    (Unplaced.expect _).bind fun _ _ _ => .pure (by simp_all)
  split
  · exact ended none none (by simp)
  · exact given.bind ended

theorem unplaced_indexOrSlice :
    Unplaced places (indexOrSlice first token left) (indexOrSlice second other left') := by
  refine (Unplaced.takeIf _).bind fun found _ found' => ?_
  subst found'
  split
  · exact unplaced_slice inner same lefts (by simp)
  · refine inner.bind fun position _ positions => (Unplaced.takeIf _).bind fun found _ found' => ?_
    subst found'
    split
    · exact unplaced_slice inner same lefts (by simpa using positions)
    · exact (Unplaced.expect _).bind fun _ _ _ => .pure (by simp_all)

end

section
variable {first second : Precedence → Reading Expr}
variable (inner : ∀ surroundings, Unplaced places (first surroundings) (second surroundings))
include inner

theorem unplaced_operand (limit : Nat) :
    Unplaced places (operand limit first) (operand limit second) := by
  refine Unplaced.take.bind fun token other same => ?_
  obtain ⟨same, near⟩ := same
  obtain ⟨kind, literal⟩ := Token.agrees_iff.mp same
  have lowest := inner .lowest
  have sign : Unplaced places
      (first .sign >>= fun right => pure (Expr.unary token (.ofText token.literal) right))
      (second .sign >>= fun right => pure (Expr.unary other (.ofText other.literal) right)) :=
    (inner .sign).bind fun right _ _ => .pure (by simp_all)
  rw [← kind]
  split
  · exact .pure (by simp_all)
  · exact unplaced_integer ⟨same, near⟩
  · exact .pure (by simp_all)
  · exact .pure (by simp_all)
  · exact .pure (by simp_all)
  · exact sign
  · exact sign
  · exact lowest.bind fun tree _ trees => (Unplaced.expect _).bind fun _ _ _ => .pure trees
  · exact unplaced_conditional lowest same limit
  · exact unplaced_function lowest same limit
  · refine (unplaced_expressions lowest limit _).bind fun elements _ _ => .pure ?_
    simp_all
  · refine (unplaced_pairs lowest limit).bind fun pairs _ _ => ?_
    exact (Unplaced.expect _).bind fun _ _ _ => .pure (by simp_all)
  · exact .bind (.note ⟨rfl, near⟩) fun _ _ _ => .fail

theorem unplaced_operation (limit : Nat) {token other : Token} (same : token.agrees other = true)
    {left left' : Expr} (lefts : left.agrees left' = true) :
    Unplaced places (operation limit first token left) (operation limit second other left') := by
  obtain ⟨kind, literal⟩ := Token.agrees_iff.mp same
  unfold operation
  rw [← kind]
  split
  · refine (unplaced_expressions (inner .lowest) limit _).bind fun arguments _ _ => .pure ?_
    simp_all
  · exact unplaced_indexOrSlice (inner .lowest) same lefts
  · exact (inner _).bind fun right _ _ => .pure (by simp_all)

theorem unplaced_operations (limit : Nat) (surroundings : Precedence) (count : Nat)
    {left left' : Expr} (lefts : left.agrees left' = true) :
    Unplaced places (operations limit first surroundings count left)
      (operations limit second surroundings count left') := by
  induction count generalizing left left' with
  | zero => exact .pure lefts
  | succ count ih =>
    refine .peek fun next _ kinds _ => ?_
    rw [← kinds]
    split
    · refine Unplaced.take.bind fun token other same => ?_
      exact (unplaced_operation inner limit same.1 lefts).bind fun whole _ wholes => ih wholes
    · exact .pure lefts

end

theorem unplaced_expression (bound : Nat) (surroundings : Precedence) :
    Unplaced places (expression bound surroundings) (expression bound surroundings) := by
  induction bound generalizing surroundings with
  | zero => exact .fail
  | succ bound ih =>
    exact (unplaced_operand ih bound).bind fun left _ lefts =>
      unplaced_operations ih bound surroundings bound lefts

theorem unplaced_text (count : Nat) : Unplaced places (text count) (text count) :=
  unplaced_untilEnd (unplaced_expression (count + 1) .lowest) count

end Reading

/-- Rows of tokens that differ in places only are read alike, and the places of their problems are
related as the places of the tokens are. -/
theorem parseTokens_matched {places : Position → Position → Prop} {tokens others : List Token}
    {ending ending' : Token} (rows : List.Forall₂ (matched places) tokens others)
    (ends : places ending.position ending'.position) :
    Program.agrees (parseTokens (tokens ++ [ending])).program
        (parseTokens (others ++ [ending'])).program = true ∧
      List.Forall₂ (Problem.Matched places) (parseTokens (tokens ++ [ending])).problems
        (parseTokens (others ++ [ending'])).problems ∧
      (parseTokens (tokens ++ [ending])).refused = (parseTokens (others ++ [ending'])).refused := by
  obtain ⟨results, later⟩ := Reading.unplaced_text tokens.length
    ⟨tokens, ending.position, [], false⟩ ⟨others, ending'.position, [], false⟩
    ⟨rows, ends, .nil, rfl⟩
  rw [parseTokens_eq_text (Nat.le_refl _), parseTokens_eq_text (Nat.le_of_eq rows.length_eq.symm)]
  refine ⟨?_, List.forall₂_reverse_iff.mpr later.problems, later.refused⟩
  generalize (Reading.text _ _).1 = result,
    (Reading.text _ ⟨others, _, _, _⟩).1 = result' at results
  cases results with
  | none => simp [Program.agrees]
  | some same => exact same

theorem parseTokens_alike {tokens others : List Token} (rows : List.Forall₂ alike tokens others)
    (ending ending' : Token) :
    Program.agrees (parseTokens (tokens ++ [ending])).program
        (parseTokens (others ++ [ending'])).program = true ∧
      List.Forall₂ Problem.Alike (parseTokens (tokens ++ [ending])).problems
        (parseTokens (others ++ [ending'])).problems ∧
      (parseTokens (tokens ++ [ending])).refused = (parseTokens (others ++ [ending'])).refused := by
  obtain ⟨agree, problems, refused⟩ := @parseTokens_matched (fun _ _ => True) _ _ ending ending'
    (rows.imp fun _ _ same => ⟨same, trivial⟩) trivial
  exact ⟨agree, problems.imp fun _ _ same => same.1, refused⟩

end Monkey

import Monkey.Proofs.Literals
import Monkey.Proofs.Positions
import Monkey.Proofs.Reading.Notes
import Monkey.Proofs.Reading.Places
import Monkey.Proofs.Reading.Trails

/-!
The problems of a text. Whatever the text, all of it is read, token by token; there are no more
problems than tokens, and they stand in the order of the tokens that they are about.
-/

namespace Monkey

open Reading

/-- What has come of reading the statements of a text. -/
def Parsed.ofOutcome (outcome : Option (List Statement) × Stream) : Parsed :=
  ⟨⟨outcome.1.getD []⟩, outcome.2.problems.reverse, outcome.2.refused⟩

/-- The stream that a text is read from. -/
def Stream.opening (source : String) : Stream := .ofTokens (tokenize source)

section
variable (source : String)

theorem Stream.exists_opening : ∃ ending : Token, ending.kind = .eof ∧
    tokenize source = solid (tokenize source) ++ [ending] ∧
    opening source = ⟨solid (tokenize source), ending.position, [], false⟩ := by
  obtain ⟨tokens, ending, same, kind, inside⟩ := (Cursor.ofText source.toList).exists_tokens_eq
  have whole : tokenize source = tokens ++ [ending] := same
  have solid_eq : solid (tokenize source) = tokens := by
    have last : solid [ending] = [] := by simp [solid, kind]
    rw [whole]
    unfold solid at last ⊢
    rw [List.filter_append, last, List.append_nil]
    exact solid_of_inside inside
  refine ⟨ending, kind, by rw [solid_eq, whole], ?_⟩
  rw [solid_eq, opening, whole, ofTokens_append]

theorem solid_inside (tokens : List Token) : ∀ token ∈ solid tokens, token.kind ≠ .eof :=
  fun _ member => of_decide_eq_true (List.mem_filter.mp member).2

variable {source} {count : Nat} (enough : (solid (tokenize source)).length ≤ count)
include enough

/-- The bounds on the length of rows do not decide anything. -/
theorem parse_eq_ofOutcome : parse source = .ofOutcome (text count (.opening source)) := by
  obtain ⟨ending, -, whole, opened⟩ := Stream.exists_opening source
  rw [opened]
  exact (congrArg parseTokens whole).trans (parseTokens_eq_text enough ending)

/-- At the end nothing is left. -/
theorem text_opening_ahead : (text count (.opening source)).2.ahead = [] := by
  obtain ⟨ending, -, -, opened⟩ := Stream.exists_opening source
  rw [opened, ← text_eq_of_le enough _ (Nat.le_refl _)]
  exact text_ahead ⟨_, ending.position, [], false⟩ (solid_inside _)

/-- All tokens are taken, each once and in order. -/
theorem solid_of_takes {taken : List Token} (takes : Takes (text count) (.opening source) taken) :
    solid taken = solid (tokenize source) := by
  obtain ⟨ending, -, -, opened⟩ := Stream.exists_opening source
  have inside : ∀ token ∈ (Stream.opening source).ahead, token.kind ≠ .eof := by
    rw [opened]
    exact solid_inside _
  have all := takes.ahead_eq inside
  rwa [text_opening_ahead enough, List.append_nil, opened] at all

end

/-- The problems of a text are noted along its tokens, no more than there are. -/
theorem along_problems (source : String) :
    (parse source).problems.length ≤ (solid (tokenize source)).length ∧
      ∃ left, Along ((tokenize source).map Token.position) left
        ((parse source).problems.map Problem.place) := by
  obtain ⟨ending, -, whole, opened⟩ := Stream.exists_opening source
  have ended := text_opening_ahead (Nat.le_refl (solid (tokenize source)).length)
  obtain ⟨taken, noted, went, paid, -⟩ :=
    tells_text (solid (tokenize source)).length (Stream.opening source)
  rw [parse_eq_ofOutcome (Nat.le_refl _), Parsed.ofOutcome]
  obtain ⟨ahead, problems, along⟩ := went
  have places : (Stream.opening source).places = (tokenize source).map Token.position := by
    rw [opened]
    exact (List.map_append.symm.trans (congrArg _ whole.symm))
  have all : solid (tokenize source) = taken := by
    rw [ended, List.append_nil, opened] at ahead
    exact ahead
  have found : (text (solid (tokenize source)).length (.opening source)).2.problems.reverse =
      noted := by
    rw [problems, opened, List.append_nil, List.reverse_reverse]
  rw [found, ← places]
  refine ⟨?_, _, along⟩
  rw [all]
  simpa using paid

/-- A statement that is dropped has left a problem. -/
theorem noted_of_dropped {bound : Nat} {stream : Stream} (short : Short stream.ahead)
    (fits : stream.ahead.length < bound)
    (dropped : (statement (expression bound .lowest) stream).1 = none) :
    stream.problems.length <
      (statement (expression bound .lowest) stream).2.problems.length := by
  have composed : Composed (statement (expression bound .lowest)) := inferInstance
  have same := composed.frame { stream with problems := [] } stream.problems
  change statement (expression bound .lowest) stream = _ at same
  have explains := explains_statement (explains_expression bound) fits short
    { stream with problems := [] } rfl
  rw [same] at dropped ⊢
  dsimp only at dropped
  rw [dropped] at explains
  have noted : (statement (expression bound .lowest) { stream with problems := [] }).2.problems ≠
      [] := by
    intro clean
    obtain ⟨_, given, -⟩ := explains clean
    cases given
  have := List.length_pos_iff.mpr noted
  simp only [List.length_append]
  omega

theorem not_refused_of_short {source : String} (short : Short (tokenize source)) :
    (parse source).refused = false := by
  rw [← Bool.not_eq_true, (parse_accounts source).1]
  rintro ⟨token, member, long⟩
  simp only [Token.overlong, Bool.and_eq_true, decide_eq_true_eq] at long
  exact Nat.not_lt.mpr (short token member long.1) long.2

/-- The reading of a text comes to its end. Every token but the end of the text is taken just once,
in order, and then the end comes next. There are no more problems than tokens; each is told with the
position of a token or of the end, and these positions never go back. A statement that is dropped
has left a problem. Only texts with a number of too many digits are left aside. -/
theorem reading_notes_problems_in_order (source : String) (short : Short (tokenize source)) :
    (∀ count, (solid (tokenize source)).length ≤ count →
      parse source = .ofOutcome (text count (.opening source)) ∧
      (text count (.opening source)).2.next.kind = .eof ∧
      (∃ taken, Takes (text count) (.opening source) taken) ∧
      ∀ taken, Takes (text count) (.opening source) taken →
        solid taken = solid (tokenize source)) ∧
    (parse source).refused = false ∧
    (parse source).problems.length ≤ (solid (tokenize source)).length ∧
    (∀ problem ∈ (parse source).problems, ∃ token ∈ tokenize source,
      problem.place = token.position ∧
        ∃ words, problem.message = words ++ " at " ++ token.position.text) ∧
    ((parse source).problems.Pairwise fun first second =>
      first.place = second.place ∨ first.place.Before second.place) ∧
    ∀ bound stream, Short stream.ahead → stream.ahead.length < bound →
      (statement (expression bound .lowest) stream).1 = none →
        stream.problems.length <
          (statement (expression bound .lowest) stream).2.problems.length := by
  obtain ⟨few, left, along⟩ := along_problems source
  refine ⟨fun count enough => ⟨parse_eq_ofOutcome enough, ?_, ?_, ?_⟩,
    not_refused_of_short short, few, fun problem member => ?_, ?_, fun _ _ => noted_of_dropped⟩
  · rw [Stream.next, text_opening_ahead enough]
    rfl
  · have composed : Composed (text count) := inferInstance
    exact composed.exists_takes _
  · exact fun taken => solid_of_takes enough
  · obtain ⟨token, inside, place⟩ := List.mem_map.mp
      (along.subset (List.mem_map_of_mem member))
    obtain ⟨words, told⟩ := problem.exists_words_moved
    refine ⟨token, inside, place.symm, words, ?_⟩
    rw [place, ← told, problem.moved_place]
  · have ordered : ((tokenize source).map Token.position).Pairwise Position.Before :=
      List.pairwise_map.mpr (tokenize_pairwise source)
    exact List.pairwise_map.mp (along.pairwise ordered)

/-- A statement that is dropped, and a block that the text ends in. -/
def unfinished : String := "let 5; if (x) \x7b"

/-- Both of its problems are about tokens in order, the second about the end. -/
theorem unfinished_has_two_problems : Short (tokenize unfinished) ∧
    (parse unfinished).problems =
      [.unexpected .ident .int ⟨1, 5⟩, .unexpected .rightBrace .eof ⟨1, 16⟩] ∧
    (parse unfinished).problems.length ≤ (solid (tokenize unfinished)).length ∧
    ((parse unfinished).problems.Pairwise fun first second =>
      first.place = second.place ∨ first.place.Before second.place) ∧
    (statement (expression 9 .lowest) (.opening unfinished)).1 = none ∧
    0 < (statement (expression 9 .lowest) (.opening unfinished)).2.problems.length := by
  have tokens : tokenize unfinished = [⟨.letKeyword, "let", ⟨1, 1⟩⟩, ⟨.int, "5", ⟨1, 5⟩⟩,
      ⟨.semicolon, ";", ⟨1, 6⟩⟩, ⟨.ifKeyword, "if", ⟨1, 8⟩⟩, ⟨.leftParen, "(", ⟨1, 11⟩⟩,
      ⟨.ident, "x", ⟨1, 12⟩⟩, ⟨.rightParen, ")", ⟨1, 13⟩⟩, ⟨.leftBrace, "\x7b", ⟨1, 15⟩⟩,
      ⟨.eof, "", ⟨1, 16⟩⟩] := by cbv
  have short : Short (tokenize unfinished) := by simp +decide [tokens, Short]
  have noted : (parse unfinished).problems =
      [.unexpected .ident .int ⟨1, 5⟩, .unexpected .rightBrace .eof ⟨1, 16⟩] := by cbv
  have dropped : (statement (expression 9 .lowest) (.opening unfinished)).1 = none := by cbv
  have ahead : (Stream.opening unfinished).ahead = (tokenize unfinished).dropLast := rfl
  obtain ⟨-, -, few, -, ordered, drops⟩ := reading_notes_problems_in_order unfinished short
  refine ⟨short, noted, few, ordered, dropped, drops 9 _ ?_ ?_ dropped⟩
  · exact fun token member => short token (List.dropLast_subset _ (ahead ▸ member))
  · rw [ahead, tokens]
    decide

end Monkey

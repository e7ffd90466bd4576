import Monkey.Proofs.Sessions

/-!
Layout. Blanks move tokens about and do nothing else, and no reader and no evaluation looks at the
place of a token. So texts with the same tokens are the same program, or go wrong in the same ways;
only messages tell the places.
-/

namespace Monkey

/-- Two problems that are told in the same words up to their places. -/
def Problem.Echoes (problem other : Problem) : Prop :=
  ∃ words, problem.message = words ++ " at " ++ problem.place.text ∧
    other.message = words ++ " at " ++ other.place.text

theorem Problem.Alike.echoes {problem other : Problem} (alike : problem.Alike other) :
    problem.Echoes other := by
  obtain ⟨words, told⟩ := problem.exists_words_moved
  have first := told problem.place
  have second := told other.place
  rw [problem.moved_place] at first
  rw [← alike] at second
  exact ⟨words, first, second⟩

/-- The tokens of two texts agree one by one: they differ in nothing but places. -/
def SameTokens (source other : String) : Prop :=
  List.Forall₂ (fun token token' => token.agrees token' = true) (tokenize source) (tokenize other)

namespace SameTokens

variable {source other : String}

/-- Each text ends in a token of its own, and those before agree. -/
theorem exists_inside (same : SameTokens source other) : ∃ tokens tokens' ending ending',
    tokenize source = tokens ++ [ending] ∧ tokenize other = tokens' ++ [ending'] ∧
      List.Forall₂ alike tokens tokens' := by
  obtain ⟨ending, whole, -⟩ := tokenize_eq source
  obtain ⟨ending', whole', -⟩ := tokenize_eq other
  unfold SameTokens at same
  rw [whole, whole'] at same
  have reversed := List.forall₂_reverse_iff.mpr same
  rw [List.reverse_concat, List.reverse_concat] at reversed
  cases reversed with
  | cons _ inside => exact ⟨_, _, _, _, whole, whole', List.forall₂_reverse_iff.mp inside⟩

theorem parse_alike (same : SameTokens source other) :
    (parse source).program.agrees (parse other).program = true ∧
      List.Forall₂ Problem.Alike (parse source).problems (parse other).problems ∧
      (parse source).refused = (parse other).refused := by
  obtain ⟨tokens, tokens', ending, ending', whole, whole', rows⟩ := same.exists_inside
  unfold parse
  rw [whole, whole']
  exact parseTokens_alike rows ending ending'

/-- If one of the texts is a program, so is the other. -/
theorem accepted (same : SameTokens source other) (readable : isProgram source = true) :
    (parse source).accepted = .ok (parse source).program ∧
      (parse other).accepted = .ok (parse other).program := by
  have first := accepted_of_isProgram readable
  obtain ⟨read, clean, -⟩ := accepted_eq_ok.mp first
  obtain ⟨-, problems, refused⟩ := same.parse_alike
  rw [clean] at problems
  exact ⟨first, accepted_eq_ok.mpr
    ⟨refused.symm.trans read, List.forall₂_nil_left_iff.mp problems, rfl⟩⟩

end SameTokens

/-- Texts with the same tokens are read as the same tree, whatever is wrong with them, and have the
same problems in the same order, told in the same words up to their places. When they are programs,
they come to the same result and print, bind and trace the same. -/
theorem layout_does_not_matter (source other : String) (same : SameTokens source other) :
    (parse source).program.agrees (parse other).program = true ∧
      List.Forall₂ Problem.Echoes (parse source).problems (parse other).problems ∧
      (parse source).refused = (parse other).refused ∧
      (isProgram source = true → ∀ depth level, ∃ ending session ending' session',
        runText depth level source = .ok (ending, session) ∧
        runText depth level other = .ok (ending', session') ∧
        ending.Alike Eq ending' ∧ session.state.Alike Eq session'.state ∧
        session.Alike session') := by
  obtain ⟨agree, problems, refused⟩ := same.parse_alike
  refine ⟨agree, problems.imp fun _ _ moved => moved.echoes, refused, ?_⟩
  intro readable depth level
  obtain ⟨accepted, accepted'⟩ := same.accepted readable
  have started := Session.start_alike Session.biUnique_eq (fun _ => rfl) level
  obtain ⟨endings, states⟩ := Session.run_alike depth started agree
  exact ⟨_, _, _, _, runText_of_accepted accepted depth level,
    runText_of_accepted accepted' depth level, endings, states, Session.alike_of_states states⟩

/-- A function is defined, bound and called, once in one line and once over several. -/
theorem layout_of_function :
    SameTokens "let f=fn(x)\x7bx+1\x7d;f(2)" "let f = fn(x) \x7b\n\tx + 1\n\x7d;\n\nf(2)\n" ∧
      ∀ depth level, ∃ ending session ending' session',
        runText depth level "let f=fn(x)\x7bx+1\x7d;f(2)" = .ok (ending, session) ∧
        runText depth level "let f = fn(x) \x7b\n\tx + 1\n\x7d;\n\nf(2)\n" =
          .ok (ending', session') ∧
        ending.Alike Eq ending' ∧ session.state.Alike Eq session'.state ∧
        session.Alike session' := by
  have same : SameTokens "let f=fn(x)\x7bx+1\x7d;f(2)"
      "let f = fn(x) \x7b\n\tx + 1\n\x7d;\n\nf(2)\n" := by
    have unplaced : (tokenize "let f=fn(x)\x7bx+1\x7d;f(2)").map Token.unplaced =
        (tokenize "let f = fn(x) \x7b\n\tx + 1\n\x7d;\n\nf(2)\n").map Token.unplaced := by cbv
    exact alike_iff_unplaced.mpr unplaced
  have readable : isProgram "let f=fn(x)\x7bx+1\x7d;f(2)" = true := by cbv
  exact ⟨same, (layout_does_not_matter _ _ same).2.2.2 readable⟩

end Monkey

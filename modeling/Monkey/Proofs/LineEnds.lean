import Monkey.Proofs.Layout
import Monkey.Proofs.Respacing

/-!
Texts from files. A file holds a text in UTF-8, and its line ends are made one before it is read.
Outside strings a line end is a blank like any other, so no more than places changes by that; in a
string the line ends are part of what it says.
-/

namespace Monkey

open Text

/-- Runs what a file holds, if that is a text. -/
def runBytes (depth level : Nat) (bytes : ByteArray) :
    Option (Except Rejection (Ending × Session)) :=
  (String.fromUTF8? bytes).map (runFileText depth level)

theorem fromUTF8?_toUTF8 (text : String) : String.fromUTF8? text.toUTF8 = some text :=
  dif_pos text.isValidUTF8

/-- The text with all its line ends made line feeds. -/
def unified (source : String) : String := String.ofList (unifyNewlines source.toList)

/-- What the strings of a text say. -/
def stringLiterals (source : String) : List String :=
  ((tokenize source).filter (·.kind = .string)).map Token.literal

/-- No string of the text goes over a carriage return. -/
def PlainStrings (source : String) : Prop :=
  ∀ literal ∈ stringLiterals source, '\r' ∉ literal.toList

/-! Tokens. -/

theorem Blank.unified {text : List Char} (blank : Blank text) : Blank (unifyNewlines text) := by
  intro c member
  rcases mem_unifyNewlines member with same | rfl
  · exact blank c same
  · rfl

theorem Lexeme.Spelled.unified {lexeme : Lexeme} {rest : List Char}
    (spelled : lexeme.Spelled rest) : lexeme.Spelled (unifyNewlines rest) := by
  refine spelled.before_feed (fun c first => mem_head?_unifyNewlines first) fun _ ended => ?_
  rw [ended]
  rfl

/-- By induction on the pieces: only the blanks between them change. -/
theorem Lays.unified {text trailing : List Char} {pieces : List Piece}
    (lays : Lays Lexeme.Spelled text pieces trailing)
    (plain : ∀ piece ∈ pieces, '\r' ∉ piece.lexeme.written) : ∃ moved ending,
      Lays Lexeme.Spelled (unifyNewlines text) moved ending ∧
        moved.map Piece.reported = pieces.map Piece.reported := by
  induction lays with
  | done blank => exact ⟨[], _, .done (Blank.unified blank), rfl⟩
  | @piece blanks rest trailing lexeme pieces blank first _ ih =>
    obtain ⟨here, later⟩ := List.forall_mem_cons.mp plain
    obtain ⟨moved, ending, laid, reported⟩ := ih later
    have unfed : (lexeme.written ++ rest).head? ≠ some '\n' := by
      obtain ⟨c, letters, written, solid⟩ := first.exists_cons
      rw [written, List.cons_append, List.head?_cons]
      rintro ⟨rfl⟩
      exact absurd solid (by decide)
    rw [unifyNewlines_append _ unfed, unifyNewlines_append_of_not_mem here]
    refine ⟨_, ending, .piece (Blank.unified blank) first.unified laid, ?_⟩
    rw [List.map_cons, reported]
    rfl

theorem PlainStrings.pieces {source : String} (plain : PlainStrings source)
    {pieces : List Piece} {trailing : List Char}
    (lays : Lays Lexeme.Spelled source.toList pieces trailing) :
    ∀ piece ∈ pieces, '\r' ∉ piece.lexeme.written := by
  intro piece member
  obtain ⟨rest, spelled⟩ := lays.exists_rule member
  by_cases quoted : piece.lexeme.kind = .string
  · have listed : (TokenKind.string, String.ofList piece.lexeme.literal) ∈
        (tokenize source).map Token.unplaced := by
      rw [unplaced_tokenize_of_lays lays, List.map_map]
      have reported := List.mem_map_of_mem (f := Prod.map id String.ofList ∘ Piece.reported) member
      exact List.mem_append_left _ (quoted ▸ reported)
    obtain ⟨token, among, same⟩ := List.mem_map.mp listed
    obtain ⟨kind, literal⟩ := Prod.mk.inj same
    have quotes : token.literal ∈ stringLiterals source :=
      List.mem_map_of_mem (List.mem_filter.mpr ⟨among, decide_eq_true kind⟩)
    have clean := plain _ quotes
    rw [literal, String.toList_ofList] at clean
    rcases (spelled.shows.quoted quoted).2 with written | ⟨written, -⟩ <;>
      simpa [written] using clean
  · exact fun found => absurd (spelled.solid quoted _ found).1 (by decide)

/-- Where no string goes over a carriage return, making line ends one moves tokens and does nothing
else to them. -/
theorem PlainStrings.sameTokens {source : String} (plain : PlainStrings source) :
    SameTokens source (unified source) := by
  obtain ⟨pieces, trailing, lays⟩ := exists_lays source.toList
  obtain ⟨moved, ending, laid, reported⟩ := lays.unified (plain.pieces lays)
  have whole : unifyNewlines source.toList = (unified source).toList :=
    String.toList_ofList.symm
  rw [whole] at laid
  refine alike_iff_unplaced.mpr ?_
  rw [unplaced_tokenize_of_lays lays, unplaced_tokenize_of_lays laid, reported]

/-! Runs. -/

/-- Two runs that differ in nothing but where problems and functions stand in the text. -/
inductive RunsAlike :
    Except Rejection (Ending × Session) → Except Rejection (Ending × Session) → Prop
  | refused : RunsAlike (.error .refused) (.error .refused)
  | problems {found others : List Problem} (told : List.Forall₂ Problem.Echoes found others) :
      RunsAlike (.error (.problems found)) (.error (.problems others))
  | value {value value' : Value} {session session' : Session} (values : value.Alike Eq value')
      (kinds : value.kind = value'.kind) (inspected : value.inspect = value'.inspect)
      (sessions : session.Alike session') :
      RunsAlike (.ok (.value value, session)) (.ok (.value value', session'))
  | depthExceeded {session session' : Session} (sessions : session.Alike session') :
      RunsAlike (.ok (.depthExceeded, session)) (.ok (.depthExceeded, session'))
  | unknownNode {session session' : Session} (sessions : session.Alike session') :
      RunsAlike (.ok (.unknownNode, session)) (.ok (.unknownNode, session'))

theorem RunsAlike.of_endings {ending ending' : Ending} {session session' : Session}
    (endings : ending.Alike Eq ending') (sessions : session.Alike session') :
    RunsAlike (.ok (ending, session)) (.ok (ending', session')) := by
  cases endings with
  | value values => exact .value values values.kind_eq values.inspect_eq sessions
  | depthExceeded => exact .depthExceeded sessions
  | unknownNode => exact .unknownNode sessions

/-- Texts with the same tokens run alike, or are not run for the same reasons. -/
theorem SameTokens.runs_alike {source other : String} (same : SameTokens source other)
    (depth level : Nat) : RunsAlike (runText depth level source) (runText depth level other) := by
  obtain ⟨agree, problems, refused⟩ := same.parse_alike
  cases outcome : (parse source).accepted with
  | ok program =>
    have readable : isProgram source = true := by
      unfold isProgram
      rw [outcome]
      rfl
    obtain ⟨accepted, accepted'⟩ := same.accepted readable
    have started := Session.start_alike Session.biUnique_eq (fun _ => rfl) level
    obtain ⟨endings, states⟩ := Session.run_alike depth started agree
    rw [runText_of_accepted accepted, runText_of_accepted accepted']
    exact .of_endings endings (Session.alike_of_states states)
  | error rejection =>
    unfold runText
    cases rejection with
    | refused =>
      have first := accepted_eq_refused.mp outcome
      rw [outcome, accepted_eq_refused.mpr (refused.symm.trans first)]
      exact .refused
    | problems found =>
      obtain ⟨read, wrong, rfl⟩ := accepted_eq_problems.mp outcome
      have wrong' : (parse other).problems ≠ [] := fun none =>
        wrong (List.forall₂_nil_right_iff.mp (none ▸ problems))
      rw [outcome, accepted_eq_problems.mpr ⟨refused.symm.trans read, wrong', rfl⟩]
      exact .problems (problems.imp fun _ _ moved => moved.echoes)

/-- Running a file is running its text with all line ends made line feeds. Where no string goes over
a carriage return, that is no different from running the text as it is: the same result, the same
output and the same trace, or problems in the same words up to their places. -/
theorem file_runs_as_its_text (depth level : Nat) (source : String) :
    runBytes depth level source.toUTF8 = some (runText depth level (unified source)) ∧
      (PlainStrings source → ∃ run, runBytes depth level source.toUTF8 = some run ∧
        RunsAlike (runText depth level source) run) := by
  have read : runBytes depth level source.toUTF8 = some (runText depth level (unified source)) := by
    unfold runBytes
    rw [fromUTF8?_toUTF8]
    rfl
  exact ⟨read, fun plain => ⟨_, read, plain.sameTokens.runs_alike depth level⟩⟩

/-- Line ends of all three ways, of which only a line feed stands in a string. -/
theorem file_with_mixed_line_ends :
    PlainStrings "let f = fn(x)\r\x7b puts(x) \x7d;\r\nf(\"a\nb\");\rf" ∧
    ∀ depth level, ∃ run,
      runBytes depth level
        "let f = fn(x)\r\x7b puts(x) \x7d;\r\nf(\"a\nb\");\rf".toUTF8 = some run ∧
      RunsAlike
        (runText depth level "let f = fn(x)\r\x7b puts(x) \x7d;\r\nf(\"a\nb\");\rf") run := by
  have strings : stringLiterals "let f = fn(x)\r\x7b puts(x) \x7d;\r\nf(\"a\nb\");\rf" =
      ["a\nb"] := by cbv
  have plain : PlainStrings "let f = fn(x)\r\x7b puts(x) \x7d;\r\nf(\"a\nb\");\rf" := by
    unfold PlainStrings
    rw [strings]
    simp
  exact ⟨plain, fun depth level => (file_runs_as_its_text depth level _).2 plain⟩

end Monkey

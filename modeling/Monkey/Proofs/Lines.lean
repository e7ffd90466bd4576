import Monkey.Proofs.Joining
import Monkey.Proofs.Positions

/-!
Lexing line by line. A lexeme holds two quotes or none, but for a string that is not closed, which
is the last one of its text. So after an even number of quotes no string is open, and whatever else
may be there ends before a line feed: what follows is lexed as it is alone, some lines further down.
-/

namespace Monkey

/-! Places. -/

/-- A place some lines further down. -/
def Position.lowered (lines : Nat) (place : Position) : Position :=
  ⟨place.line + lines, place.column⟩

def Token.lowered (lines : Nat) (token : Token) : Token :=
  { token with position := token.position.lowered lines }

theorem Position.after_lowered (lines : Nat) (place : Position) (text : List Char) :
    (place.lowered lines).after text = (place.after text).lowered lines := by
  induction text generalizing place with
  | nil => rfl
  | cons c rest ih =>
    have step : (place.lowered lines).step c = (place.step c).lowered lines := by
      unfold Position.step lowered
      split
      · exact congrArg₂ mk (Nat.add_right_comm _ _ _) rfl
      · rfl
    rw [after_cons, after_cons, step, ih]

/-- Just after a line feed is the beginning of a line. -/
theorem Position.after_line_feed (text : List Char) :
    start.after (text ++ ['\n']) = start.lowered (text.count '\n' + 1) := by
  rw [after_append, after_cons, after_nil, step, if_pos rfl, after_line, Nat.add_assoc]
  rfl

theorem Piece.tokens_lowered (lines : Nat) (place : Position) (pieces : List Piece) :
    tokens (place.lowered lines) pieces = (tokens place pieces).map (Token.lowered lines) := by
  induction pieces generalizing place with
  | nil => rfl
  | cons piece rest ih =>
    rw [tokens, tokens, Position.after_lowered, Position.after_lowered, ih]
    rfl

/-! Quotes. -/

/-- A lexeme has two quotes or none and ends before a line feed, or it is a string that is not
closed. -/
theorem Lexeme.Spelled.paired_or_open {lexeme : Lexeme} {rest : List Char}
    (spelled : lexeme.Spelled rest) :
    Even (lexeme.written.count '"') ∧ (∀ more, lexeme.Spelled (rest ++ '\n' :: more)) ∨
      lexeme.written.count '"' = 1 ∧ rest = [] := by
  by_cases quoted : lexeme.kind = .string
  · have shows := spelled.shows.quoted quoted
    obtain ⟨kind, literal, written⟩ := lexeme
    dsimp only at quoted shows
    subst quoted
    obtain ⟨unquoted, rfl | ⟨rfl, ended⟩⟩ := shows
    · refine .inl ⟨?_, fun _ => .closed unquoted⟩
      simp [List.count_eq_zero_of_not_mem unquoted]
    · exact .inr ⟨by simp [List.count_eq_zero_of_not_mem unquoted], ended⟩
  · have unquoted : '"' ∉ lexeme.written := fun member => (spelled.solid quoted _ member).2 rfl
    refine .inl ⟨?_, fun more => spelled.before_feed (fun c first => ?_) fun same => ?_⟩
    · rw [List.count_eq_zero_of_not_mem unquoted]
      exact Even.zero
    · cases rest with
      | nil => exact .inr (Option.some.inj first).symm
      | cons => exact .inl first
    · exact absurd same quoted

/-- After an even number of quotes no string is open, so each lexeme ends before the next line. -/
theorem Lays.before_line {text trailing : List Char} {pieces : List Piece}
    (lays : Lays Lexeme.Spelled text pieces trailing) (even : Even (text.count '"'))
    (more : List Char) :
    Lays (fun lexeme rest => lexeme.Spelled (rest ++ '\n' :: more)) text pieces trailing := by
  induction lays with
  | done blank => exact .done blank
  | @piece blanks rest trailing lexeme pieces blank first _ ih =>
    have unquoted : blanks.count '"' = 0 :=
      List.count_eq_zero_of_not_mem fun quote => absurd (blank _ quote) (by decide)
    rw [List.count_append, List.count_append, unquoted, Nat.zero_add] at even
    rcases first.paired_or_open with ⟨paired, stands⟩ | ⟨single, rfl⟩
    · exact .piece blank (stands more) (ih ((Nat.even_add.mp even).mp paired))
    · rw [single] at even
      exact absurd even (by decide)

/-- A text with an even number of quotes and another one below it. The tokens are those of the two:
those of the first, without its end, where they were, and those of the second as many lines further
down as the first one takes. -/
theorem lexing_distributes_over_lines (first second : String)
    (even : Even (first.toList.count '"')) :
    ∃ tokens ending, tokenize first = tokens ++ [ending] ∧ ending.kind = .eof ∧
      tokenize (first ++ "\n" ++ second) =
        tokens ++ (tokenize second).map (Token.lowered (first.toList.count '\n' + 1)) := by
  obtain ⟨pieces, trailing, lays⟩ := exists_lays first.toList
  obtain ⟨pieces', trailing', lays'⟩ := exists_lays second.toList
  obtain ⟨moved, ending', below, -, tokens⟩ :=
    lays'.after_blanks (show ∀ c ∈ ['\n'], isBlank c = true from List.forall_mem_singleton.mpr rfl)
  obtain ⟨joined, final, laid, -, tokens'⟩ := (lays.before_line even second.toList).join below
  have whole : (first ++ "\n" ++ second).toList = first.toList ++ '\n' :: second.toList := by
    rw [String.toList_append, String.toList_append, List.append_assoc]
    rfl
  rw [← whole] at laid
  have lines := Position.after_line_feed first.toList
  have ended : Position.start.after (first.toList ++ '\n' :: second.toList) =
      (Position.start.after second.toList).lowered (first.toList.count '\n' + 1) := by
    rw [← Position.after_lowered, ← lines, ← Position.after_append, ← List.append_cons]
  refine ⟨_, _, tokenize_eq_of_lays lays, rfl, ?_⟩
  rw [tokenize_eq_of_lays laid, tokenize_eq_of_lays lays', tokens', tokens, whole, ended,
    ← Position.after_append, lines, Piece.tokens_lowered, List.append_assoc, List.map_append]
  rfl

/-- A comparison after a string with a line feed in it, and below it a string that is not closed. -/
theorem lexing_distributes_after_string :
    Even ("\"a\nb\"==".toList.count '"') ∧
    tokenize "\"a\nb\"==\n \"c" = [⟨.string, "a\nb", ⟨1, 1⟩⟩, ⟨.equal, "==", ⟨2, 3⟩⟩,
      ⟨.string, "c", ⟨3, 2⟩⟩, ⟨.eof, "", ⟨3, 4⟩⟩] := by
  have even : Even ("\"a\nb\"==".toList.count '"') := by decide
  refine ⟨even, ?_⟩
  obtain ⟨tokens, ending, alone, -, joined⟩ :=
    lexing_distributes_over_lines "\"a\nb\"==" " \"c" even
  have first : tokenize "\"a\nb\"==" = [⟨.string, "a\nb", ⟨1, 1⟩⟩, ⟨.equal, "==", ⟨2, 3⟩⟩] ++
      [⟨.eof, "", ⟨2, 5⟩⟩] := by cbv
  have second : tokenize " \"c" = [⟨.string, "c", ⟨1, 2⟩⟩, ⟨.eof, "", ⟨1, 4⟩⟩] := by cbv
  obtain ⟨rfl, -⟩ := List.append_inj' (first.symm.trans alone) rfl
  rw [second] at joined
  exact joined

end Monkey

import Monkey.Proofs.Respelling

/-!
Tokens written out again. A lexeme says nothing of what stood around it, so the tokens of a text can
be written out one after the other with any blanks between them, as long as there are some: each is
read back as what it was and ends where the blanks begin.
-/

namespace Monkey

/-- A text of blanks only. -/
def Blank (text : List Char) : Prop := ∀ c ∈ text, isBlank c = true

instance (text : List Char) : Decidable (Blank text) :=
  inferInstanceAs (Decidable (∀ c ∈ text, isBlank c = true))

theorem Blank.stops {text : List Char} (blank : Blank text) : Stops text := by
  intro c first
  have blank := blank c (List.mem_of_mem_head? first)
  refine ⟨?_, ?_, ?_⟩
  · exact Bool.eq_false_iff.mpr fun letter =>
      absurd blank (by simp [solid_of_isLetter_or_isDigit (.inl letter)])
  · exact Bool.eq_false_iff.mpr fun digit =>
      absurd blank (by simp [solid_of_isLetter_or_isDigit (.inr digit)])
  · rintro rfl
    exact absurd blank (by decide)

namespace Token

/-- How a token is written out. A string stands between two quotes, even one that lacked the second
where it was read. -/
def spelling (token : Token) : List Char :=
  if token.kind = .string then '"' :: token.literal.toList ++ ['"'] else token.literal.toList

/-- The token as it is written out. -/
def lexeme (token : Token) : Lexeme := ⟨token.kind, token.literal.toList, token.spelling⟩

/-- A token of some text is read back where its spelling is stopped. -/
theorem Occurs.spelled_lexeme {token : Token} {rest : List Char} (occurs : token.Occurs)
    (stops : Stops rest) : token.lexeme.Spelled rest := by
  by_cases quoted : token.kind = .string
  · obtain ⟨lexeme, rest', spelled, same⟩ := occurs
    obtain ⟨kind, literal⟩ := Prod.mk.inj same
    have unquoted := (spelled.shows.quoted (kind ▸ quoted)).1
    unfold Token.lexeme spelling
    rw [if_pos quoted, quoted, literal, String.toList_ofList]
    exact .closed unquoted
  · obtain ⟨rest', spelled⟩ := occurs.spelled quoted
    unfold Token.lexeme spelling
    rw [if_neg quoted]
    exact spelled.before quoted stops

end Token

/-- The tokens written out one by one, each with a gap after it. -/
def spaced : List Token → List (List Char) → List Char
  | [], _ | _ :: _, [] => []
  | token :: tokens, gap :: gaps => token.spelling ++ gap ++ spaced tokens gaps

/-- By induction on the tokens: each stands in front of its gap, and only after the last one may
that be empty, where nothing follows. -/
theorem exists_lays_spaced {tokens : List Token} {before : List Char} {gaps : List (List Char)}
    (occur : ∀ token ∈ tokens, token.Occurs) (each : gaps.length = tokens.length)
    (leading : Blank before) (blank : ∀ gap ∈ gaps, Blank gap)
    (apart : ∀ gap ∈ gaps.dropLast, gap ≠ []) : ∃ pieces trailing,
      Lays Lexeme.Spelled (before ++ spaced tokens gaps) pieces trailing ∧
        (pieces.map Piece.reported).map (Prod.map id String.ofList) =
          tokens.map Token.unplaced := by
  induction tokens generalizing before gaps with
  | nil =>
    rw [spaced, List.append_nil]
    exact ⟨[], before, .done leading, rfl⟩
  | cons token tokens ih =>
    obtain ⟨occurs, occur⟩ := List.forall_mem_cons.mp occur
    obtain _ | ⟨gap, gaps⟩ := gaps
    · cases each
    obtain ⟨between, blank⟩ := List.forall_mem_cons.mp blank
    have stops : Stops (gap ++ spaced tokens gaps) := by
      obtain _ | ⟨c, letters⟩ := gap
      · obtain _ | ⟨next, gaps⟩ := gaps
        · obtain rfl := List.length_eq_zero_iff.mp (Nat.succ.inj each).symm
          exact .nil
        · exact absurd rfl (apart [] List.mem_cons_self)
      · exact fun d first => between.stops d first
    have later : ∀ gap ∈ gaps.dropLast, gap ≠ [] := by
      obtain _ | ⟨next, gaps⟩ := gaps
      · exact nofun
      · exact fun gap member => apart gap (List.mem_cons_of_mem _ member)
    obtain ⟨pieces, trailing, lays, same⟩ := ih occur (Nat.succ.inj each) between blank later
    rw [spaced, List.append_assoc]
    refine ⟨_, trailing, .piece leading (occurs.spelled_lexeme stops) lays, ?_⟩
    rw [List.map_cons, List.map_cons, List.map_cons, same]
    simp [Piece.reported, Token.lexeme, Token.unplaced]

/-- The tokens of a text, the one for its end included, are told by the lexemes between its
blanks. -/
theorem unplaced_tokenize_of_lays {source : String} {trailing : List Char} {pieces : List Piece}
    (lays : Lays Lexeme.Spelled source.toList pieces trailing) :
    (tokenize source).map Token.unplaced =
      (pieces.map Piece.reported).map (Prod.map id String.ofList) ++ [(.eof, "")] := by
  rw [tokenize_eq_of_lays lays, List.map_append, Piece.unplaced_tokens]
  rfl

/-- The tokens of a text can be written out with any blanks in front of the first and after the last
and any blanks, but some, between the others: the same tokens are read. -/
theorem tokens_survive_spacing (source : String) (before : List Char) (gaps : List (List Char))
    (each : gaps.length = (tokensIn source).length) (blank : ∀ gap ∈ before :: gaps, Blank gap)
    (apart : ∀ gap ∈ gaps.dropLast, gap ≠ []) :
    (tokenize (String.ofList (before ++ spaced (tokensIn source) gaps))).map Token.unplaced =
      (tokenize source).map Token.unplaced := by
  obtain ⟨pieces, trailing, lays⟩ := exists_lays source.toList
  obtain ⟨leading, blank⟩ := List.forall_mem_cons.mp blank
  obtain ⟨moved, ending, laid, same⟩ :=
    exists_lays_spaced (fun _ => occurs_of_mem_tokensIn) each leading blank apart
  rw [← String.toList_ofList (l := before ++ spaced (tokensIn source) gaps)] at laid
  rw [unplaced_tokenize_of_lays laid, unplaced_tokenize_of_lays lays, same,
    tokensIn_of_lays lays, Piece.unplaced_tokens]

/-- A comparison, a character of no class, a number next to a word and a string that is not
closed. -/
theorem tokens_survive_spacing_of_row :
    tokensIn "x==1y@\"a b" = [⟨.ident, "x", ⟨1, 1⟩⟩, ⟨.equal, "==", ⟨1, 2⟩⟩, ⟨.int, "1", ⟨1, 4⟩⟩,
      ⟨.ident, "y", ⟨1, 5⟩⟩, ⟨.illegal, "@", ⟨1, 6⟩⟩, ⟨.string, "a b", ⟨1, 7⟩⟩] ∧
    (tokenize "\tx ==\n1\r\ny  @ \"a b\"").map Token.unplaced =
      (tokenize "x==1y@\"a b").map Token.unplaced := by
  have tokens : tokensIn "x==1y@\"a b" = [⟨.ident, "x", ⟨1, 1⟩⟩, ⟨.equal, "==", ⟨1, 2⟩⟩,
      ⟨.int, "1", ⟨1, 4⟩⟩, ⟨.ident, "y", ⟨1, 5⟩⟩, ⟨.illegal, "@", ⟨1, 6⟩⟩,
      ⟨.string, "a b", ⟨1, 7⟩⟩] := by cbv
  refine ⟨tokens, ?_⟩
  have same := tokens_survive_spacing "x==1y@\"a b" ['\t']
    [[' '], ['\n'], ['\r', '\n'], [' ', ' '], [' '], []] (by rw [tokens]; rfl)
    (by simp [Blank, isBlank]) (by simp)
  rw [tokens] at same
  exact same

end Monkey

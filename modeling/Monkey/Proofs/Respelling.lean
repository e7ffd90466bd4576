import Monkey.Proofs.Joining
import Monkey.Proofs.WellFormed

/-!
Putting a text together so that it falls apart again as wanted. Words and numbers come back when
what follows does not carry them on, symbols already when no equals sign follows.
-/

namespace Monkey

/-- The text does not carry on a symbol before it. -/
def Unequal (text : List Char) : Prop := text.head? ≠ some '='

instance (text : List Char) : Decidable (Unequal text) :=
  inferInstanceAs (Decidable (text.head? ≠ some '='))

/-- The text carries on nothing before it. -/
def Stops (text : List Char) : Prop :=
  ∀ c ∈ text.head?, isLetter c = false ∧ isDigit c = false ∧ c ≠ '='

theorem Stops.nil : Stops [] := nofun

theorem Stops.unequal {text : List Char} (stops : Stops text) : Unequal text :=
  fun follows => (stops '=' follows).2.2 rfl

theorem Unequal.append {text rest : List Char} (first : Unequal text) (second : Unequal rest) :
    Unequal (text ++ rest) := by
  cases text with
  | nil => exact second
  | cons => exact first

namespace Lexeme.Spelled

variable {lexeme : Lexeme} {rest text : List Char}

/-- What is no string is spelled the same before any text that stops it. -/
theorem before (spelled : lexeme.Spelled rest) (other : lexeme.kind ≠ .string)
    (stops : Stops text) : lexeme.Spelled text := by
  cases spelled with
  | word some all => exact .word some all fun c first => (stops c first).1
  | number some all => exact .number some all fun c first => (stops c first).2.1
  | equal => exact .equal
  | notEqual => exact .notEqual
  | symbol named => exact .symbol named fun _ => stops.unequal
  | closed | unclosed => exact absurd rfl other
  | illegal classless => exact .illegal classless

/-- Only an assignment sign and a comparison are written with an equals sign in front. -/
theorem unequal (spelled : lexeme.Spelled rest) (other : lexeme.kind ≠ .string)
    (unlike : lexeme.kind ≠ .assign) (unlike' : lexeme.kind ≠ .equal) :
    Unequal lexeme.literal := by
  cases spelled with
  | word _ all =>
    intro first
    exact absurd (all _ (List.mem_of_mem_head? first)) (by decide)
  | number _ all =>
    intro first
    exact absurd (all _ (List.mem_of_mem_head? first)) (by decide)
  | equal => exact absurd rfl unlike'
  | notEqual => exact nofun
  | symbol named =>
    intro first
    obtain rfl := Option.some.inj first
    have listed := TokenKind.ofSymbol?_eq_some_iff.mpr named
    exact unlike (Option.some.inj listed).symm
  | closed | unclosed => exact absurd rfl other
  | illegal classless =>
    intro first
    obtain rfl := Option.some.inj first
    exact classless.unnamed .assign rfl

end Lexeme.Spelled

/-- Some text has this token. -/
def Token.Occurs (token : Token) : Prop :=
  ∃ (lexeme : Lexeme) (rest : List Char), lexeme.Spelled rest ∧
    token.unplaced = (lexeme.kind, String.ofList lexeme.literal)

theorem occurs_of_mem_tokensIn {source : String} {token : Token}
    (member : token ∈ tokensIn source) : token.Occurs := by
  obtain ⟨pieces, trailing, lays⟩ := exists_lays source.toList
  rw [tokensIn_of_lays lays] at member
  have listed := List.mem_map_of_mem (f := Token.unplaced) member
  rw [Piece.unplaced_tokens, List.map_map] at listed
  obtain ⟨piece, among, same⟩ := List.mem_map.mp listed
  obtain ⟨rest, spelled⟩ := lays.exists_rule among
  exact ⟨piece.lexeme, rest, spelled, same.symm⟩

namespace Token.Occurs

variable {token : Token}

theorem genuine (occurs : token.Occurs) : token.Genuine := by
  obtain ⟨lexeme, rest, spelled, same⟩ := occurs
  obtain ⟨kind, literal⟩ := Prod.mk.inj same
  have genuine := spelled.genuine token.position
  rw [← kind, ← literal] at genuine
  exact genuine

/-- Anything but a string is reported as it is written. -/
theorem spelled (occurs : token.Occurs) (other : token.kind ≠ .string) :
    ∃ rest, (Lexeme.plain token.kind token.literal.toList).Spelled rest := by
  obtain ⟨⟨kind, literal, written⟩, rest, spelled, same⟩ := occurs
  obtain ⟨rfl, named⟩ := Prod.mk.inj same
  obtain rfl : written = literal := spelled.shows.plain other
  refine ⟨rest, ?_⟩
  rw [named, String.toList_ofList]
  exact spelled

theorem unequal (occurs : token.Occurs) (other : token.kind ∉ [.string, .assign, .equal]) :
    Unequal token.literal.toList := by
  simp only [List.mem_cons, List.not_mem_nil, or_false, not_or] at other
  obtain ⟨rest, spelled⟩ := occurs.spelled other.1
  exact spelled.unequal other.1 other.2.1 other.2.2

end Token.Occurs

/-- All symbols but two are written with one character. -/
theorem TokenKind.symbols_cases {kind : TokenKind} (symbol : kind ∈ symbols) :
    kind = equal ∨ kind = notEqual ∨ ∃ c, kind.name = String.ofList [c] := by
  have short : ∀ kind ∈ symbols, kind = equal ∨ kind = notEqual ∨ kind.name.length = 1 := by
    decide
  refine (short kind symbol).imp_right (Or.imp_right fun single => ?_)
  obtain ⟨c, written⟩ := List.length_eq_one_iff.mp (String.length_toList.trans single)
  exact ⟨c, String.toList_injective (written.trans String.toList_ofList.symm)⟩

/-- A sign that stands for a kind. -/
def Token.sign (kind : TokenKind) : Token := ⟨kind, kind.name, .start⟩

/-- Before the rest of a text, these characters are read as these tokens, apart from places. -/
inductive Spells : List Char → List Token → List Char → Prop
  | nil {rest : List Char} : Spells [] [] rest
  | blank {c : Char} {text rest : List Char} {tokens : List Token} (blank : isBlank c = true)
      (more : Spells text tokens rest) : Spells (c :: text) tokens rest
  | token {token : Token} {text rest : List Char} {tokens : List Token}
      (spelled : (Lexeme.plain token.kind token.literal.toList).Spelled (text ++ rest))
      (more : Spells text tokens rest) :
      Spells (token.literal.toList ++ text) (token :: tokens) rest

namespace Spells

variable {text text' rest : List Char} {tokens tokens' : List Token} {token : Token}

theorem append (first : Spells text tokens (text' ++ rest)) (second : Spells text' tokens' rest) :
    Spells (text ++ text') (tokens ++ tokens') rest := by
  generalize whole : text' ++ rest = more at first
  induction first with
  | nil => exact second
  | blank blank _ ih => exact .blank blank (ih whole)
  | token spelled _ ih =>
    subst whole
    rw [← List.append_assoc] at spelled
    rw [List.append_assoc]
    exact .token spelled (ih rfl)

theorem single (spelled : (Lexeme.plain token.kind token.literal.toList).Spelled rest) :
    Spells token.literal.toList [token] rest := by
  have read : Spells (token.literal.toList ++ []) [token] rest := .token spelled .nil
  rwa [List.append_nil] at read

theorem space : Spells [' '] [] rest := .blank rfl .nil

/-- A token of another text comes back where it is stopped. -/
theorem of_occurs (occurs : token.Occurs) (other : token.kind ≠ .string) (stops : Stops rest) :
    Spells token.literal.toList [token] rest := by
  obtain ⟨_, spelled⟩ := occurs.spelled other
  exact single (spelled.before other stops)

theorem of_genuine (genuine : token.Genuine) (symbol : token.kind ∈ TokenKind.symbols)
    (free : Unequal rest) : Spells token.literal.toList [token] rest := by
  obtain ⟨kind, literal, place⟩ := token
  obtain rfl : literal = kind.name := genuine symbol
  refine single ?_
  dsimp only
  rcases TokenKind.symbols_cases symbol with rfl | rfl | ⟨c, named⟩
  · exact .equal
  · exact .notEqual
  · rw [named, String.toList_ofList]
    exact .symbol named fun _ => free

theorem sign {kind : TokenKind} (symbol : kind ∈ TokenKind.symbols) (free : Unequal rest) :
    Spells kind.name.toList [.sign kind] rest :=
  @of_genuine _ (.sign kind) (fun _ => rfl) symbol free

theorem exists_lays (spells : Spells text tokens []) : ∃ pieces trailing,
    Lays Lexeme.Spelled text pieces trailing ∧
      (pieces.map Piece.reported).map (Prod.map id String.ofList) = tokens.map Token.unplaced := by
  generalize nothing : [] = rest at spells
  induction spells with
  | nil => exact ⟨[], [], .done nofun, rfl⟩
  | @blank c text _ _ blank _ ih =>
    obtain ⟨pieces, trailing, lays, same⟩ := ih nothing
    have alone : ∀ letter ∈ [c], isBlank letter = true := by simpa using blank
    obtain ⟨moved, ending, laid, reported, -⟩ := lays.after_blanks alone
    exact ⟨moved, ending, laid, reported ▸ same⟩
  | @token token text _ _ spelled _ ih =>
    subst nothing
    obtain ⟨pieces, trailing, lays, same⟩ := ih rfl
    rw [List.append_nil] at spelled
    have laid := @Lays.piece _ [] _ _ _ _ nofun spelled lays
    refine ⟨_, trailing, laid, ?_⟩
    rw [List.map_cons, List.map_cons, List.map_cons, same]
    simp [Piece.reported, Lexeme.plain, Token.unplaced]

/-- A text that was put together has the tokens it was put together from. -/
theorem unplaced_tokensIn {source : String} (spells : Spells source.toList tokens []) :
    (tokensIn source).map Token.unplaced = tokens.map Token.unplaced := by
  obtain ⟨pieces, trailing, lays, same⟩ := spells.exists_lays
  rw [tokensIn_of_lays lays, Piece.unplaced_tokens, same]

end Spells

end Monkey

import Monkey.Proofs.Completion
import Monkey.Proofs.Lexemes
import Monkey.Proofs.Literals
import Monkey.Proofs.Reading.Places
import Monkey.Proofs.Recognition

/-!
Texts written one after the other. Where a text ends in a semicolon, what comes after it carries on
neither its last token nor its last statement. So the whole is read as the texts are one by one: its
tokens are theirs, and its statements are theirs, but for places.
-/

namespace Monkey

/-! Tokens. -/

/-- What a token tells apart from its place. -/
def Token.unplaced (token : Token) : TokenKind × String := (token.kind, token.literal)

theorem alike_iff_unplaced {tokens others : List Token} :
    List.Forall₂ alike tokens others ↔ tokens.map Token.unplaced = others.map Token.unplaced := by
  have same : (alike : Token → Token → Prop) = fun token other => token.unplaced = other.unplaced :=
    funext₂ fun _ _ => propext (Token.agrees_iff.trans Prod.mk_inj.symm)
  rw [← List.forall₂_eq_eq_eq, List.forall₂_map_left_iff, List.forall₂_map_right_iff, same]

/-- The tokens of a text without the one that stands for its end. -/
def tokensIn (source : String) : List Token := (tokenize source).dropLast

/-- Before the end of a text come its own tokens, none of which stands for the end. -/
theorem tokenize_eq (source : String) : ∃ ending, tokenize source = tokensIn source ++ [ending] ∧
    ∀ token ∈ tokensIn source, token.kind ≠ .eof := by
  obtain ⟨tokens, ending, whole, -, inside⟩ := (Cursor.ofText source.toList).exists_tokens_eq
  have whole : tokenize source = tokens ++ [ending] := whole
  have own : tokensIn source = tokens := by rw [tokensIn, whole, List.dropLast_concat]
  exact ⟨ending, own ▸ whole, own ▸ inside⟩

theorem mem_tokensIn {source : String} {token : Token} (member : token ∈ tokenize source)
    (other : token.kind ≠ .eof) : token ∈ tokensIn source := by
  obtain ⟨tokens, ending, whole, last, -⟩ := (Cursor.ofText source.toList).exists_tokens_eq
  have whole : tokenize source = tokens ++ [ending] := whole
  rw [whole, List.mem_append, List.mem_singleton] at member
  rw [tokensIn, whole, List.dropLast_concat]
  exact member.resolve_right fun same => other (same ▸ last)

/-- The last token is a semicolon. -/
def EndsInSemicolon (source : String) : Prop :=
  (tokensIn source).getLast?.map Token.kind = some .semicolon

theorem EndsInSemicolon.kind_eq {source : String} (ends : EndsInSemicolon source) :
    ∀ token ∈ (tokensIn source).getLast?, token.kind = .semicolon := by
  intro token last
  unfold EndsInSemicolon at ends
  rw [Option.mem_def.mp last] at ends
  exact Option.some.inj ends

/-- Anything but a string is written without blanks and quotes. -/
theorem Lexeme.Spelled.solid {lexeme : Lexeme} {rest : List Char} (spelled : lexeme.Spelled rest)
    (other : lexeme.kind ≠ .string) : ∀ c ∈ lexeme.written, isBlank c = false ∧ c ≠ '"' := by
  have classed {c : Char} (classed : isLetter c = true ∨ isDigit c = true) :
      isBlank c = false ∧ c ≠ '"' := by
    refine ⟨solid_of_isLetter_or_isDigit classed, ?_⟩
    rintro rfl
    revert classed
    decide
  intro c member
  cases spelled with
  | word _ all => exact classed (.inl (all c member))
  | number _ all => exact classed (.inr (all c member))
  | equal =>
    obtain rfl : c = '=' := by simpa [plain] using member
    decide
  | notEqual =>
    have sign : c = '!' ∨ c = '=' := by simpa [plain] using member
    rcases sign with rfl | rfl <;> decide
  | symbol named =>
    obtain rfl := List.mem_singleton.mp member
    have listed := TokenKind.ofSymbol?_eq_some_iff.mpr named
    obtain ⟨solid, -, -, unquoted⟩ := TokenKind.solid_of_ofSymbol? listed
    exact ⟨solid, unquoted⟩
  | closed | unclosed => exact absurd rfl other
  | illegal classless =>
    obtain rfl := List.mem_singleton.mp member
    exact ⟨classless.solid, classless.unquoted⟩

/-- A lexeme is spelled no differently before a text that begins with a line feed or as the one
after it does, unless it is a string that may run on. -/
theorem Lexeme.Spelled.before_feed {lexeme : Lexeme} {rest text : List Char}
    (spelled : lexeme.Spelled rest) (next : ∀ c ∈ text.head?, c ∈ rest.head? ∨ c = '\n')
    (ends : lexeme.kind = .string → rest = [] → text = []) : lexeme.Spelled text := by
  cases spelled with
  | word some all longest =>
    refine .word some all fun c first => (next c first).elim (longest c) ?_
    rintro rfl
    decide
  | number some all longest =>
    refine .number some all fun c first => (next c first).elim (longest c) ?_
    rintro rfl
    decide
  | equal => exact .equal
  | notEqual => exact .notEqual
  | symbol named alone =>
    exact .symbol named fun sign follows => (next _ follows).elim (alone sign) nofun
  | closed unquoted => exact .closed unquoted
  | unclosed unquoted =>
    rw [ends rfl rfl]
    exact .unclosed unquoted
  | illegal classless => exact .illegal classless

/-- A lexeme is spelled no differently when more comes after the text, unless it is the last one. A
semicolon is the same even there. -/
theorem Lexeme.Spelled.append {lexeme : Lexeme} {rest : List Char} (spelled : lexeme.Spelled rest)
    (more : List Char) (stands : rest ≠ [] ∨ lexeme.kind = .semicolon) :
    lexeme.Spelled (rest ++ more) := by
  cases spelled with
  | word some all longest =>
    rcases stands with stands | stands
    · exact .word some all (by rwa [List.head?_append_of_ne_nil _ stands])
    · exact absurd stands (TokenKind.lookup_keywords_ne (by decide) _)
  | number some all longest =>
    rcases stands with stands | stands
    · exact .number some all (by rwa [List.head?_append_of_ne_nil _ stands])
    · cases stands
  | equal => exact .equal
  | notEqual => exact .notEqual
  | @symbol c kind _ named alone =>
    rcases stands with stands | rfl
    · exact .symbol named (by rwa [List.head?_append_of_ne_nil _ stands])
    · obtain rfl : ';' = c := (List.cons.inj (String.ofList_injective named)).1
      exact .symbol named fun sign => absurd sign (by decide)
  | closed unquoted => exact .closed unquoted
  | unclosed unquoted => exact stands.elim (absurd rfl) nofun
  | illegal classless => exact .illegal classless

namespace Lays

variable {rule : Lexeme → List Char → Prop} {text text' trailing trailing' : List Char}
variable {pieces pieces' : List Piece}

theorem after_blanks {blanks : List Char} (blank : ∀ c ∈ blanks, isBlank c = true)
    (lays : Lays rule text pieces trailing) : ∃ moved ending,
      Lays rule (blanks ++ text) moved ending ∧
        moved.map Piece.reported = pieces.map Piece.reported ∧
        ∀ place, Piece.tokens place moved = Piece.tokens (place.after blanks) pieces := by
  have both {more : List Char} (blank' : ∀ c ∈ more, isBlank c = true) :
      ∀ c ∈ blanks ++ more, isBlank c = true := by
    intro c member
    exact (List.mem_append.mp member).elim (blank c) (blank' c)
  cases lays with
  | done blank' => exact ⟨[], _, .done (both blank'), rfl, fun _ => rfl⟩
  | piece blank' first more =>
    rw [← List.append_assoc]
    refine ⟨_, _, .piece (both blank') first more, rfl, fun place => ?_⟩
    simp only [Piece.tokens, Piece.text, Position.after_append]

theorem eq_nil (lays : Lays Lexeme.Spelled [] pieces trailing) : pieces = [] := by
  generalize whole : [] = text at lays
  cases lays with
  | done => rfl
  | piece _ first =>
    obtain ⟨c, letters, written, -⟩ := first.exists_cons
    rw [written] at whole
    simp at whole

/-- Two texts laid out one after the other. The second one carries on no lexeme of the first. -/
theorem join (lays : Lays (fun lexeme rest => lexeme.Spelled (rest ++ text')) text pieces trailing)
    (lays' : Lays Lexeme.Spelled text' pieces' trailing') : ∃ joined ending,
      Lays Lexeme.Spelled (text ++ text') joined ending ∧
        joined.map Piece.reported = pieces.map Piece.reported ++ pieces'.map Piece.reported ∧
        ∀ place, Piece.tokens place joined =
          Piece.tokens place pieces ++ Piece.tokens (place.after text) pieces' := by
  induction lays with
  | done blank => exact lays'.after_blanks blank
  | @piece blanks rest trailing lexeme pieces blank first _ ih =>
    obtain ⟨joined, ending, laid, reported, tokens⟩ := ih
    refine ⟨⟨blanks, lexeme⟩ :: joined, ending, ?_, by rw [List.map_cons, reported]; rfl, ?_⟩
    · rw [List.append_assoc, List.append_assoc]
      exact .piece blank first laid
    · intro place
      simp only [Piece.tokens, Piece.text, tokens, Position.after_append, List.cons_append]

/-- Where a text ends in a semicolon, nothing after it carries it on. -/
theorem before_any (lays : Lays Lexeme.Spelled text pieces trailing)
    (ends : ∀ piece ∈ pieces.getLast?, piece.lexeme.kind = .semicolon) (more : List Char) :
    Lays (fun lexeme rest => lexeme.Spelled (rest ++ more)) text pieces trailing := by
  induction lays with
  | done blank => exact .done blank
  | @piece blanks rest trailing lexeme pieces blank first others ih =>
    rw [List.getLast?_cons] at ends
    have stands : rest ≠ [] ∨ lexeme.kind = .semicolon := by
      refine or_iff_not_imp_left.mpr fun empty => ?_
      obtain rfl := not_not.mp empty
      obtain rfl := others.eq_nil
      exact ends _ rfl
    refine .piece blank (first.append more stands) (ih fun piece last => ?_)
    exact ends piece (by rw [Option.mem_def.mp last]; rfl)

/-- Two texts laid out one after the other, of which the first ends in a semicolon. -/
theorem append (lays : Lays Lexeme.Spelled text pieces trailing)
    (lays' : Lays Lexeme.Spelled text' pieces' trailing')
    (ends : ∀ piece ∈ pieces.getLast?, piece.lexeme.kind = .semicolon) : ∃ joined ending,
      Lays Lexeme.Spelled (text ++ text') joined ending ∧
        joined.map Piece.reported = pieces.map Piece.reported ++ pieces'.map Piece.reported ∧
        ∀ place, Piece.tokens place joined =
          Piece.tokens place pieces ++ Piece.tokens (place.after text) pieces' :=
  (lays.before_any ends text').join lays'

end Lays

theorem Piece.unplaced_tokens (place : Position) (pieces : List Piece) :
    (tokens place pieces).map Token.unplaced =
      (pieces.map reported).map (Prod.map id String.ofList) := by
  induction pieces generalizing place with
  | nil => rfl
  | cons piece rest ih => exact congrArg (_ :: ·) (ih _)

theorem Piece.getLast?_tokens (place : Position) (pieces : List Piece) :
    (tokens place pieces).getLast?.map Token.kind = pieces.getLast?.map (·.lexeme.kind) := by
  have kinds : (tokens place pieces).map Token.kind = pieces.map (·.lexeme.kind) := by
    induction pieces generalizing place with
    | nil => rfl
    | cons piece rest ih => exact congrArg (_ :: ·) (ih _)
  rw [← List.getLast?_map, kinds, List.getLast?_map]

theorem tokensIn_of_lays {source : String} {trailing : List Char} {pieces : List Piece}
    (lays : Lays Lexeme.Spelled source.toList pieces trailing) :
    tokensIn source = Piece.tokens .start pieces := by
  unfold tokensIn
  rw [tokenize_eq_of_lays lays, List.dropLast_concat]

/-- A text that ends in a semicolon has it in its last piece. -/
theorem EndsInSemicolon.last_piece {source : String} {trailing : List Char} {pieces : List Piece}
    (ends : EndsInSemicolon source) (lays : Lays Lexeme.Spelled source.toList pieces trailing) :
    ∀ piece ∈ pieces.getLast?, piece.lexeme.kind = .semicolon := by
  intro piece last
  unfold EndsInSemicolon at ends
  rw [tokensIn_of_lays lays, Piece.getLast?_tokens, Option.mem_def.mp last] at ends
  exact Option.some.inj ends

/-- The tokens of a text and of the one after it. -/
theorem unplaced_tokensIn_append {first : String} (second : String)
    (ends : EndsInSemicolon first) : (tokensIn (first ++ second)).map Token.unplaced =
      (tokensIn first).map Token.unplaced ++ (tokensIn second).map Token.unplaced := by
  obtain ⟨pieces, trailing, lays⟩ := exists_lays first.toList
  obtain ⟨pieces', trailing', lays'⟩ := exists_lays second.toList
  obtain ⟨joined, ending, laid, reported, -⟩ := lays.append lays' (ends.last_piece lays)
  rw [← String.toList_append] at laid
  rw [tokensIn_of_lays lays, tokensIn_of_lays lays', tokensIn_of_lays laid]
  simp only [Piece.unplaced_tokens, reported, List.map_append]

/-- The tokens of texts one after the other. -/
theorem unplaced_tokensIn_join {earlier : List String} (last : String)
    (ends : ∀ text ∈ earlier, EndsInSemicolon text) :
    (tokensIn (String.join (earlier ++ [last]))).map Token.unplaced =
      ((earlier ++ [last]).flatMap tokensIn).map Token.unplaced := by
  induction earlier with
  | nil => simp [String.join_cons]
  | cons text rest ih =>
    obtain ⟨first, others⟩ := List.forall_mem_cons.mp ends
    rw [List.cons_append, String.join_cons, unplaced_tokensIn_append _ first, ih others,
      List.flatMap_cons, List.map_append]

/-! Statements. -/

/-- The last token of a row, if there is one, is no semicolon. -/
def Unended (tokens : List Token) : Prop := ∀ token ∈ tokens.getLast?, token.kind ≠ .semicolon

namespace Unended

variable {tokens middle : List Token} {token : Token}

theorem nil : Unended [] := nofun

theorem of_suffix (suffix : middle <:+ tokens) (some : middle ≠ []) (unended : Unended middle) :
    Unended tokens := by
  obtain ⟨front, rfl⟩ := suffix
  intro token last
  rw [List.getLast?_append_of_ne_nil _ some] at last
  exact unended token last

theorem of_cons_suffix (suffix : token :: middle <:+ tokens) (other : token.kind ≠ .semicolon)
    (unended : Unended middle) : Unended tokens := by
  refine of_suffix suffix (List.cons_ne_nil _ _) fun last found => ?_
  rw [List.getLast?_cons] at found
  cases later : middle.getLast? with
  | none =>
    rw [later] at found
    obtain rfl := Option.some.inj found
    exact other
  | some final =>
    rw [later] at found
    obtain rfl := Option.some.inj found
    exact unended _ later

end Unended

/-- Whether a phrase is part of a statement and not made up of some. -/
def Phrase.inner : Phrase → Bool
  | statement | statements | program => false
  | _ => true

/-- No part of a statement ends in a semicolon. -/
theorem Derives.unended {phrase : Phrase} {tokens rest : List Token} {tree : phrase.Tree}
    (derives : Derives phrase tokens tree rest) (inner : phrase.inner = true) (done : rest = []) :
    Unended tokens := by
  have other {token : Token} {kind : TokenKind} (same : token.kind = kind)
      (unlike : kind ≠ .semicolon) : token.kind ≠ .semicolon := fun found => unlike (same ▸ found)
  have alone {token : Token} {kind : TokenKind} (same : token.kind = kind)
      (unlike : kind ≠ .semicolon) : Unended [token] :=
    .of_cons_suffix List.suffix_rfl (other same unlike) .nil
  induction derives with
  | tighter _ ih | someItems _ ih | item _ ih | someParameters _ ih | someBound _ ih =>
    exact ih inner done
  | identifier kind | integer kind | string kind | truth kind | falsehood kind | name kind =>
    subst done
    exact alone kind (by decide)
  | noItems | noPairs | noParameters | noBound | noAlternative => exact done ▸ .nil
  | @binary level _ _ _ operator _ _ first joins _ _ ih =>
    have unlike : operator.kind ≠ .semicolon := by
      intro same
      rw [same] at joins
      revert joins
      cases level <;> decide
    exact .of_cons_suffix first.suffix unlike (ih rfl done)
  | unary sign _ ih =>
    have unlike := sign.elim (other · (by decide)) (other · (by decide))
    exact .of_cons_suffix List.suffix_rfl unlike (ih rfl done)
  | call first _ second closes | index first _ second closes =>
    subst done
    have ending := second.suffix.trans ((List.suffix_cons _ _).trans first.suffix)
    exact .of_cons_suffix ending (other closes (by decide)) .nil
  | slice first _ second _ third closes =>
    subst done
    have ending := third.suffix.trans ((List.suffix_cons _ _).trans
      (second.suffix.trans ((List.suffix_cons _ _).trans first.suffix)))
    exact .of_cons_suffix ending (other closes (by decide)) .nil
  | group _ inside closes | array _ inside closes | hash _ inside closes
  | block _ inside closes =>
    subst done
    exact .of_cons_suffix (inside.suffix.trans (List.suffix_cons _ _)) (other closes (by decide))
      .nil
  | @conditional tokens middle later _ token opening closing _ _ _ _ _ first closes second third _
      ih ih' =>
    have inside : closing :: middle <:+ token :: opening :: tokens :=
      first.suffix.trans (List.suffix_append [token, opening] tokens)
    -- Without an alternative the block before it is the last part.
    cases later with
    | nil => exact .of_cons_suffix inside (other closes (by decide)) (ih rfl rfl)
    | cons =>
      have ending := second.suffix.trans ((List.suffix_cons _ _).trans inside)
      exact .of_suffix ending (List.cons_ne_nil _ _) (ih' rfl done)
  | @function tokens _ _ token opening _ _ _ _ _ first closes _ _ ih =>
    have inside := first.suffix.trans (List.suffix_append [token, opening] tokens)
    exact .of_cons_suffix inside (other closes (by decide)) (ih rfl done)
  | moreItems first divides _ _ ih | pair first divides _ _ ih =>
    exact .of_cons_suffix first.suffix (other divides (by decide)) (ih rfl done)
  | morePairs first _ second separates _ _ _ ih =>
    have ending := second.suffix.trans ((List.suffix_cons _ _).trans first.suffix)
    exact .of_cons_suffix ending (other separates (by decide)) (ih rfl done)
  | moreNames _ divides _ ih =>
    exact .of_cons_suffix (List.suffix_cons _ _) (other divides (by decide)) (ih rfl done)
  | someAlternative kind _ ih =>
    exact .of_cons_suffix List.suffix_rfl (other kind (by decide)) (ih rfl done)
  | _ => contradiction

section
variable {tokens whole middle : List Token} {level : Level} {tree : Expr}

/-- Where a row ends in a semicolon, so does the statement at its end, and after that semicolon
anything may come. -/
theorem Ends.exists_semicolon {allowed : TokenKind → Prop} (ends : Ends allowed middle [])
    (inner : Derives (.expression level) tokens tree middle) (part : tokens <:+ whole)
    (last : ∀ token ∈ whole.getLast?, token.kind = .semicolon) : ∃ used token,
      tokens = used ++ [token] ∧ ∀ others,
        Derives (.expression level) (used ++ token :: others) tree (token :: others) ∧
          Ends allowed (token :: others) others := by
  obtain ⟨used, rfl, again⟩ := inner.replace
  cases ends with
  | @semicolon token _ kind =>
    exact ⟨used, token, rfl, fun others => ⟨again _ trivial, .semicolon kind⟩⟩
  | without =>
    have some : used ++ [] ≠ [] := List.ne_nil_of_length_pos (inner.length_lt rfl)
    have unended : Unended whole := .of_suffix part some (inner.unended rfl rfl)
    have found := List.getLast?_eq_some_getLast (part.ne_nil some)
    exact absurd (last _ found) (unended _ found)

/-- A statement with its semicolon is one whatever comes after it. -/
theorem Derives.statement_append {statement : Statement}
    (derives : Derives .statement tokens statement [])
    (last : ∀ token ∈ tokens.getLast?, token.kind = .semicolon) (others : List Token) :
    Derives .statement (tokens ++ others) statement others := by
  cases derives with
  | @binding token name assign _ _ _ _ kind named assigns inner ends =>
    obtain ⟨used, semicolon, rfl, again⟩ :=
      ends.exists_semicolon inner (List.suffix_append [token, name, assign] _) last
    simpa using Derives.binding kind named assigns (again others).1 (again others).2
  | giveBack kind inner ends =>
    obtain ⟨used, semicolon, rfl, again⟩ := ends.exists_semicolon inner (List.suffix_cons _ _) last
    simpa using Derives.giveBack kind (again others).1 (again others).2
  | giveBackNothing kind ends =>
    cases ends with
    | semicolon same => exact .giveBackNothing kind (.semicolon same)
    | without => exact absurd (kind.symm.trans (last _ rfl)) (by decide)
  | expression inner ends =>
    obtain ⟨used, semicolon, split, again⟩ := ends.exists_semicolon inner List.suffix_rfl last
    rw [split, List.append_assoc]
    cases used with
    | nil =>
      obtain ⟨inner, -⟩ := again []
      exact absurd (inner.length_lt rfl) (Nat.lt_irrefl _)
    | cons first used =>
      obtain ⟨rfl, -⟩ := List.cons.inj split
      exact .expression (again others).1 (again others).2

/-- Statements after statements, the last of which has its semicolon. -/
theorem Derives.statements_append {trees others : List Statement} {more : List Token}
    (derives : Derives .statements tokens trees [])
    (last : ∀ token ∈ tokens.getLast?, token.kind = .semicolon)
    (derives' : Derives .statements more others []) :
    Derives .statements (tokens ++ more) (trees ++ others) [] := by
  induction trees generalizing tokens with
  | nil =>
    cases derives with
    | noStatements => exact derives'
  | cons statement trees ih =>
    cases derives with
    | @moreStatements _ middle _ _ _ first second =>
      by_cases none : middle = []
      · subst none
        exact .moreStatements (first.statement_append last more) (ih second nofun)
      · obtain ⟨used, rfl, again⟩ := first.replace
        have kept : following (middle ++ more) = following middle := by
          obtain ⟨token, middle, rfl⟩ := List.exists_cons_of_ne_nil none
          rfl
        rw [List.getLast?_append_of_ne_nil _ none] at last
        rw [List.append_assoc]
        exact .moreStatements (again _ (.inl kept)) (ih second last)

end

/-! Programs. -/

/-- The texts that are programs are those whose tokens the grammar derives. -/
theorem accepted_iff {source : String} {program : Program} :
    (parse source).accepted = .ok program ↔ Short (tokensIn source) ∧
      Derives .statements (tokensIn source) program.statements [] := by
  obtain ⟨ending, whole, inside⟩ := tokenize_eq source
  rw [accepted_eq_ok]
  constructor
  · rintro ⟨read, clean, program⟩
    have short : Short (tokensIn source) := fun token member =>
      short_of_read read token (whole ▸ List.mem_append_left _ member)
    rw [parse, whole] at clean program
    obtain ⟨statements, derives⟩ := derives_of_parseTokens short inside clean
    rw [parseTokens_of_derives derives short] at program
    exact ⟨short, program ▸ derives⟩
  · rintro ⟨short, derives⟩
    rw [parse, whole, parseTokens_of_derives derives short]
    exact ⟨rfl, rfl, rfl⟩

/-- A text with the tokens of a program is that program, but for places. -/
theorem exists_accepted {source : String} {tokens : List Token} {trees : List Statement}
    (short : Short tokens) (derives : Derives .statements tokens trees [])
    (same : tokens.map Token.unplaced = (tokensIn source).map Token.unplaced) :
    ∃ program, (parse source).accepted = .ok program ∧
      Statement.allAgree trees program.statements = true := by
  obtain ⟨ending, whole, -⟩ := tokenize_eq source
  obtain ⟨agree, problems, refused⟩ :=
    parseTokens_alike (alike_iff_unplaced.mpr same) ending ending
  rw [parseTokens_of_derives derives short ending, ← whole] at agree problems refused
  exact ⟨_, accepted_eq_ok.mpr ⟨refused.symm, List.forall₂_nil_left_iff.mp problems, rfl⟩, agree⟩

theorem Short.append {tokens others : List Token} (short : Short tokens) (short' : Short others) :
    Short (tokens ++ others) :=
  fun token member => (List.mem_append.mp member).elim (short token) (short' token)

/-- Programs one after the other, each but the last with a semicolon at its end, are one program:
that of all their statements. -/
theorem exists_accepted_join {earlier : List String} {last : String} {programs : List Program}
    {final : Program} (ends : ∀ text ∈ earlier, EndsInSemicolon text)
    (accepted : List.Forall₂ (fun text program => (parse text).accepted = .ok program)
      earlier programs)
    (accepted' : (parse last).accepted = .ok final) :
    ∃ whole, (parse (String.join (earlier ++ [last]))).accepted = .ok whole ∧
      Statement.allAgree (programs.flatMap Program.statements ++ final.statements)
        whole.statements = true := by
  suffices derived : Short ((earlier ++ [last]).flatMap tokensIn) ∧
      Derives .statements ((earlier ++ [last]).flatMap tokensIn)
        (programs.flatMap Program.statements ++ final.statements) [] from
    exists_accepted derived.1 derived.2 (unplaced_tokensIn_join last ends).symm
  induction accepted with
  | nil => simpa using accepted_iff.mp accepted'
  | @cons text program rest programs first more ih =>
    obtain ⟨ending, others⟩ := List.forall_mem_cons.mp ends
    obtain ⟨short, derives⟩ := accepted_iff.mp first
    obtain ⟨short', derives'⟩ := ih others
    rw [List.cons_append, List.flatMap_cons, List.flatMap_cons, List.append_assoc]
    exact ⟨short.append short', derives.statements_append ending.kind_eq derives'⟩

end Monkey

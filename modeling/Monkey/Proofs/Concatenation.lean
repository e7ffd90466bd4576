import Monkey.Proofs.Joining
import Monkey.Proofs.Problems

/-!
Reading a text after a program that ends in a semicolon. The statement before the semicolon is
finished there, whatever comes next, and the reader is then as it is at the start of a text; so the
rest is read as it would be alone, with all its mistakes, only further down.
-/

namespace Monkey

/-! Places. -/

namespace Position

/-- Where a place ends up when a text is put in front of its own. Only in the first line do columns
change. -/
def past (text : List Char) (place : Position) : Position :=
  ⟨place.line + text.count '\n',
    if place.line = 1 then place.column + (text.reverse.takeWhile (· ≠ '\n')).length
    else place.column⟩

variable {text : List Char} {place : Position}

theorem past_start (text : List Char) : past text .start = start.after text := by
  have line := start.after_line text
  have column : (start.after text).column =
      1 + (text.reverse.takeWhile (· ≠ '\n')).length := by
    have passes {tail : List Char} (unfed : '\n' ∉ tail) (c : Char) (member : c ∈ tail.reverse) :
        decide (c ≠ '\n') = true :=
      decide_eq_true fun same => unfed (same ▸ List.mem_reverse.mp member)
    by_cases fed : '\n' ∈ text
    · obtain ⟨front, tail, rfl, unfed⟩ := exists_last_feed fed
      obtain ⟨run, -⟩ := span_append ('\n' :: front.reverse) (passes unfed) (by simp)
      have reversed : (front ++ '\n' :: tail).reverse = tail.reverse ++ '\n' :: front.reverse := by
        simp
      rw [start.after_of_fed front unfed, reversed, run, List.length_reverse, Nat.add_comm]
    · rw [start.after_of_unfed fed, List.takeWhile_eq_self_iff.mpr (passes fed),
        List.length_reverse]
      rfl
  exact congrArg₂ mk line.symm column.symm

theorem past_step (numbered : 0 < place.line) (c : Char) :
    past text (place.step c) = (past text place).step c := by
  unfold past step
  split
  · have later : place.line + 1 ≠ 1 := by omega
    simp only [if_neg later, Nat.add_right_comm]
  · by_cases first : place.line = 1
    · simp only [if_pos first, Nat.add_right_comm]
    · simp only [if_neg first]

theorem past_after (numbered : 0 < place.line) (more : List Char) :
    past text (place.after more) = (past text place).after more := by
  induction more generalizing place with
  | nil => rfl
  | cons c more ih =>
    have numbered' : 0 < (place.step c).line := by
      unfold step
      split
      · exact Nat.succ_pos _
      · exact numbered
    rw [after_cons, after_cons, ih numbered', past_step numbered]

end Position

theorem Position.after_append_eq_past (text more : List Char) :
    start.after (text ++ more) = (start.after more).past text := by
  rw [past_after (by decide), past_start, after_append]

/-- The tokens of pieces in front of which a text is put. -/
theorem Piece.matched_tokens (text before : List Char) (pieces : List Piece) :
    List.Forall₂ (matched fun place moved => moved = place.past text)
      (tokens (Position.start.after before) pieces)
      (tokens (Position.start.after (text ++ before)) pieces) := by
  induction pieces generalizing before with
  | nil => exact .nil
  | cons piece rest ih =>
    refine .cons ⟨Token.agrees_iff.mpr ⟨rfl, rfl⟩, ?_⟩ ?_
    · change (Position.start.after (text ++ before)).after piece.blanks =
        ((Position.start.after before).after piece.blanks).past text
      rw [← Position.after_append, ← Position.after_append, List.append_assoc,
        Position.after_append_eq_past]
    · simp only [← Position.after_append, List.append_assoc]
      exact ih _

/-- The tokens of a text and of the one after it, which has moved. -/
theorem exists_tokenize_append {first : String} (second : String) (ends : EndsInSemicolon first) :
    ∃ tokens tokens' ending ending', tokenize second = tokens ++ [ending] ∧
      tokenize (first ++ second) = tokensIn first ++ tokens' ++ [ending'] ∧
      List.Forall₂ (matched fun place moved => moved = place.past first.toList) tokens tokens' ∧
      ending'.position = ending.position.past first.toList := by
  obtain ⟨pieces, trailing, lays⟩ := exists_lays first.toList
  obtain ⟨pieces', trailing', lays'⟩ := exists_lays second.toList
  obtain ⟨joined, final, laid, -, tokens⟩ := lays.append lays' (ends.last_piece lays)
  rw [← String.toList_append] at laid
  refine ⟨_, Piece.tokens (Position.start.after first.toList) pieces', _,
    .ending (Position.start.after (first ++ second).toList), tokenize_eq_of_lays lays', ?_, ?_, ?_⟩
  · rw [tokenize_eq_of_lays laid, tokens, tokensIn_of_lays lays]
  · simpa using Piece.matched_tokens first.toList [] pieces'
  · rw [String.toList_append]
    exact Position.after_append_eq_past _ _

/-! Statements. -/

namespace Reading

variable {tokens middle others : List Token} {tree : Statement} {trees : List Statement}
variable {bound count : Nat}

/-- The expression before a semicolon is read up to it. -/
theorem reads_to_semicolon {allowed : TokenKind → Prop} {value : Expr} {token : Token}
    (derives : Derives (.expression .equality) tokens value (token :: others))
    (ends : Ends allowed (token :: others) others) (short : Short tokens)
    (fits : tokens.length < bound) :
    Reads (expression bound .lowest) tokens value (token :: others) := by
  have kind : token.kind = .semicolon := by
    cases ends with
    | semicolon kind => exact kind
  exact reads_delimited (readsPhrase_of_derives derives short) fits (by simp [kind])

/-- A statement that ends in a semicolon is read whatever comes next. -/
theorem reads_statement_append (derives : Derives .statement tokens tree [])
    (last : ∀ token ∈ tokens.getLast?, token.kind = .semicolon) (short : Short (tokens ++ others))
    (fits : (tokens ++ others).length < bound) :
    Reads (statement (expression bound .lowest)) (tokens ++ others) tree others := by
  have past {semicolon : Token} : semicolon :: others = others → following others ≠ .semicolon :=
    fun same => absurd same (List.cons_ne_self _ _)
  cases derives with
  | @binding token name assign _ _ _ _ kind named assigns inner ends =>
    obtain ⟨used, semicolon, rfl, again⟩ :=
      ends.exists_semicolon inner (List.suffix_append [token, name, assign] _) last
    obtain ⟨inner, ends⟩ := again others
    simp only [List.cons_append, List.append_assoc, List.nil_append, List.length_cons]
      at short fits ⊢
    have short := short.suffix (List.suffix_append [token, name, assign] _)
    have fits : (used ++ semicolon :: others).length < bound := by omega
    exact reads_binding kind named assigns (reads_to_semicolon inner ends short fits) ends past
  | @giveBack token _ _ _ _ kind inner ends =>
    obtain ⟨used, semicolon, rfl, again⟩ := ends.exists_semicolon inner (List.suffix_cons _ _) last
    obtain ⟨inner, ends⟩ := again others
    simp only [List.cons_append, List.append_assoc, List.nil_append, List.length_cons]
      at short fits ⊢
    have short := short.suffix (List.suffix_cons _ _)
    have given : [.semicolon, .rightBrace, .eof] ⊆ [TokenKind.rightParen, .rightBracket,
      .rightBrace, .colon, .semicolon, .eof] := by decide
    exact reads_giveBack kind (fun listed => ne_of_mem_starters inner.opens (given listed) rfl)
      (reads_to_semicolon inner ends short (Nat.lt_of_succ_lt fits)) ends past
  | giveBackNothing kind ends =>
    cases ends with
    | semicolon same => exact reads_giveBackNothing kind (.semicolon same) past
    | without => exact absurd (kind.symm.trans (last _ rfl)) (by decide)
  | expression inner ends =>
    obtain ⟨used, semicolon, split, again⟩ := ends.exists_semicolon inner List.suffix_rfl last
    obtain ⟨starts, ends⟩ := again others
    rw [split, List.append_assoc] at short fits ⊢
    have read := reads_to_semicolon starts ends short fits
    cases used with
    | nil => exact absurd (starts.length_lt rfl) (Nat.lt_irrefl _)
    | cons first used =>
      obtain ⟨rfl, -⟩ := List.cons.inj split
      exact reads_expression inner.opens read ends past

/-- After a statement the reader does as it does where the statement is left out. -/
theorem text_step {rest : List Token}
    (read : Reads (statement (expression (count + 1) .lowest)) tokens tree rest)
    (more : following tokens ≠ .eof) (less : rest.length < tokens.length)
    (enough : tokens.length ≤ count) (stream : Stream) :
    text count (stream.leaving tokens) = ((text count (stream.leaving rest)).1.map (tree :: ·),
      (text count (stream.leaving rest)).2) := by
  obtain ⟨count, rfl⟩ := Nat.exists_eq_succ_of_ne_zero (show count ≠ 0 by omega)
  have others : untilEnd (statement (expression (count + 2) .lowest)) count (stream.leaving rest) =
      text (count + 1) (stream.leaving rest) :=
    matches_untilEnd (.refl _) (shrinks_expression (count + 1) .lowest) _
      (Nat.lt_of_lt_of_le less enough)
  have first : statement (expression (count + 2) .lowest) (stream.leaving tokens) =
      (some tree, stream.leaving rest) := read stream
  have begun : text (count + 1) (stream.leaving tokens) =
      (untilEnd (statement (expression (count + 2) .lowest)) count >>= fun trees =>
        pure (tree :: trees)) (stream.leaving rest) := by
    refine (untilEnd_of_more ((stream.leaving tokens).next_kind ▸ more)).trans ?_
    rw [first]
    rfl
  rw [begun]
  cases outcome : text (count + 1) (stream.leaving rest) with
  | mk result later =>
    rw [outcome] at others
    cases result with
    | none => rw [bind_none others]; rfl
    | some trees => rw [bind_some others]; rfl

/-- The first statement of a row that ends in a semicolon is read whatever comes after the row. -/
theorem reads_first_append (first : Derives .statement tokens tree middle)
    (second : Derives .statements middle trees [])
    (last : ∀ token ∈ tokens.getLast?, token.kind = .semicolon) (short : Short (tokens ++ others))
    (fits : (tokens ++ others).length < bound) :
    Reads (statement (expression bound .lowest)) (tokens ++ others) tree (middle ++ others) := by
  rcases following_statements second with ⟨-, rfl⟩ | next
  · exact reads_statement_append first last short fits
  · obtain ⟨used, rfl, again⟩ := first.replace
    have kept : following (middle ++ others) = following middle := by
      cases middle with
      | nil => exact absurd next (by decide)
      | cons => rfl
    rw [List.append_assoc] at short fits ⊢
    -- What begins a statement neither ends the one before nor carries it on.
    refine readsPhrase_of_derives (again _ (.inl kept)) short bound fits ?_ ?_ <;>
      (rw [kept]; intro same; rw [same] at next; revert next; decide)

/-- Past the statements of a text that ends in a semicolon the reader does as at the start. -/
theorem text_append (derives : Derives .statements tokens trees [])
    (last : ∀ token ∈ tokens.getLast?, token.kind = .semicolon) (short : Short (tokens ++ others))
    (enough : (tokens ++ others).length ≤ count) (stream : Stream) :
    text count (stream.leaving (tokens ++ others)) =
      ((text count (stream.leaving others)).1.map (trees ++ ·),
        (text count (stream.leaving others)).2) := by
  induction trees generalizing tokens with
  | nil =>
    cases derives with
    | noStatements => exact Prod.ext Option.map_id'.symm rfl
  | cons tree trees ih =>
    cases derives with
    | @moreStatements _ middle _ _ _ first second =>
      obtain ⟨used, split⟩ := first.suffix
      have shorter := first.length_lt rfl
      have read := reads_first_append first second last short (Nat.lt_succ_of_le enough)
      have starts : following (tokens ++ others) ∈ .letKeyword :: .returnKeyword :: starters := by
        cases tokens with
        | nil => exact absurd shorter (Nat.not_lt_zero _)
        | cons => exact first.opens
      have more : following (tokens ++ others) ≠ .eof := by
        intro same
        rw [same] at starts
        exact absurd starts (by decide)
      have last' : ∀ token ∈ middle.getLast?, token.kind = .semicolon := by
        intro token found
        refine last token ?_
        rw [← split, List.getLast?_append, Option.mem_def.mp found]
        rfl
      have less : (middle ++ others).length < (tokens ++ others).length := by
        simp only [List.length_append]
        omega
      have short' : Short (middle ++ others) :=
        short.suffix ⟨used, by rw [← List.append_assoc, split]⟩
      rw [text_step read more less enough stream, ih second last' short' (by omega), Option.map_map]
      rfl

end Reading

/-- Tokens after those of a program that ends in a semicolon. -/
theorem parseTokens_append {tokens others : List Token} {trees : List Statement}
    (derives : Derives .statements tokens trees [])
    (last : ∀ token ∈ tokens.getLast?, token.kind = .semicolon) (short : Short (tokens ++ others))
    (ending : Token) : ∃ program : Program, program = (parseTokens (others ++ [ending])).program ∧
      parseTokens (tokens ++ others ++ [ending]) =
        ⟨⟨trees ++ program.statements⟩, (parseTokens (others ++ [ending])).problems,
          (parseTokens (others ++ [ending])).refused⟩ := by
  have fewer : others.length ≤ (tokens ++ others).length := by simp
  have appended := Reading.text_append derives last short (Nat.le_refl _)
    ⟨others, ending.position, [], false⟩
  obtain ⟨rest, later, read⟩ := Reading.exists_untilEnd_eq
    (Reading.statement (Reading.expression ((tokens ++ others).length + 1) .lowest))
    (tokens ++ others).length ⟨others, ending.position, [], false⟩
  have read : Reading.text (tokens ++ others).length ⟨others, ending.position, [], false⟩ =
    (some rest, later) := read
  refine ⟨_, rfl, ?_⟩
  rw [parseTokens_eq_text (Nat.le_refl _), parseTokens_eq_text fewer]
  simp only [Stream.leaving, read] at appended ⊢
  rw [appended]
  rfl

theorem Short.of_matched {places : Position → Position → Prop} {tokens others : List Token}
    (short : Short tokens) (rows : List.Forall₂ (matched places) tokens others) : Short others := by
  induction rows with
  | nil => exact short
  | cons same _ ih =>
    obtain ⟨first, rest⟩ := List.forall_mem_cons.mp short
    obtain ⟨kind, literal⟩ := Token.agrees_iff.mp same.1
    refine List.forall_mem_cons.mpr ⟨?_, ih rest⟩
    rw [← kind, ← literal]
    exact first

/-- A text after a program that ends in a semicolon is read as it is alone. The statements are those
of the program and then its own; its problems are its own too, at places that have moved by as much
as the program takes. -/
theorem parsing_distributes_at_semicolon (first second : String) (program : Program)
    (accepted : (parse first).accepted = .ok program) (ends : EndsInSemicolon first)
    (short : Short (tokenize second)) :
    (∃ others, (parse (first ++ second)).program.statements = program.statements ++ others ∧
      Statement.allAgree (parse second).program.statements others = true) ∧
    ((parse (first ++ second)).problems = (parse second).problems.map fun problem =>
      problem.moved (problem.place.past first.toList)) ∧
    (parse (first ++ second)).refused = false := by
  obtain ⟨tokens, tokens', ending, ending', whole, whole', rows, place⟩ :=
    exists_tokenize_append second ends
  obtain ⟨shortFirst, derives⟩ := accepted_iff.mp accepted
  have shortSecond : Short tokens := fun token member =>
    short token (whole ▸ List.mem_append_left _ member)
  obtain ⟨others, same, appended⟩ := parseTokens_append derives ends.kind_eq
    (shortFirst.append (shortSecond.of_matched rows)) ending'
  obtain ⟨agree, problems, refused⟩ := parseTokens_matched rows place
  rw [← whole] at agree problems refused
  have read : (parse second).refused = false := not_refused_of_short short
  unfold parse at read ⊢
  rw [whole', appended]
  refine ⟨⟨_, rfl, ?_⟩, ?_, refused.symm.trans read⟩
  · rw [same]
    exact agree
  · rw [← List.forall₂_eq_eq_eq, List.forall₂_map_right_iff]
    refine List.Forall₂.flip (problems.imp fun problem moved same => ?_)
    obtain ⟨alike, place⟩ := same
    change moved = problem.moved (problem.place.past first.toList)
    rw [← place]
    exact alike

/-- Two statements over two lines, and after them, from the second line on, three mistakes. -/
theorem parsing_distributes_over_lines :
    (parse "let a = 1;\na;let = 2;\n)").problems = [.unexpected .ident .assign ⟨2, 7⟩,
      .noExpression .assign ⟨2, 7⟩, .noExpression .rightParen ⟨3, 1⟩] := by
  have accepted : (parse "let a = 1;\na;").accepted = .ok (parse "let a = 1;\na;").program := by cbv
  have ends : EndsInSemicolon "let a = 1;\na;" := by cbv
  have tokens : tokenize "let = 2;\n)" = [⟨.letKeyword, "let", ⟨1, 1⟩⟩, ⟨.assign, "=", ⟨1, 5⟩⟩,
      ⟨.int, "2", ⟨1, 7⟩⟩, ⟨.semicolon, ";", ⟨1, 8⟩⟩, ⟨.rightParen, ")", ⟨2, 1⟩⟩,
      ⟨.eof, "", ⟨2, 2⟩⟩] := by cbv
  have short : Short (tokenize "let = 2;\n)") := by simp +decide [tokens, Short]
  have alone : (parse "let = 2;\n)").problems = [.unexpected .ident .assign ⟨1, 5⟩,
      .noExpression .assign ⟨1, 5⟩, .noExpression .rightParen ⟨2, 1⟩] := by cbv
  obtain ⟨-, moved, -⟩ := parsing_distributes_at_semicolon _ _ _ accepted ends short
  rw [alone] at moved
  exact moved

end Monkey

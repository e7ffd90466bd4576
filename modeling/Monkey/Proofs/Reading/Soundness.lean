import Monkey.Proofs.Reading.Completeness

/-!
What is read without a problem, the grammar derives. A reader explains its tokens if, unless there
is a problem at the end, it has a result that fits the tokens before and after. Since problems are
only added, none at the end means none on the way; that carries the explanation from the parts of
a reader to the whole.
-/

namespace Monkey

namespace Level

theorem floor_le (level : Level) : level.floor ≤ chain.floor := by
  cases level <;> decide

/-- What binds more tightly than an operator of one level is of a tighter level. -/
theorem ceiling_tighter_le {level inner : Level} (room : level.ceiling < inner.floor)
    (joins : level.operators ≠ []) : level.tighter.ceiling ≤ inner.ceiling := by
  cases level <;> cases inner <;> revert room joins <;> decide

/-- A token that binds as tightly as an operator is one of a level, or it opens a bracket. -/
theorem exists_mem_operators {kind : TokenKind} (binds : kind ∈ continuing)
    (unopened : kind ≠ .leftParen) (unindexed : kind ≠ .leftBracket) :
    ∃ level : Level, kind ∈ level.operators := by
  cases kind <;> first
    | exact absurd binds (by decide)
    | exact absurd rfl unopened
    | exact absurd rfl unindexed
    | exact ⟨.equality, by decide⟩
    | exact ⟨.comparison, by decide⟩
    | exact ⟨.sum, by decide⟩
    | exact ⟨.product, by decide⟩

end Level

theorem Precedence.rank_pos (precedence : Precedence) :
    Precedence.lowest.rank ≤ precedence.rank := by
  cases precedence <;> decide

/-- No token that comes after an operand binds more tightly than a chain. -/
theorem Precedence.rank_le (precedence : Precedence) : precedence.rank ≤ Level.chain.ceiling := by
  cases precedence <;> decide

namespace Reading

/-- Unless there is a problem at the end, the reader has a result, and that fits what is left of
the tokens. -/
def Explains {α : Type} (reader : Reading α) (tokens : List Token)
    (fits : α → List Token → Prop) : Prop :=
  ∀ stream : Stream, stream.ahead = tokens → (reader stream).2.problems = [] →
    ∃ value, (reader stream).1 = some value ∧ fits value (reader stream).2.ahead

namespace Explains

variable {α β : Type} {tokens : List Token}

theorem pure {value : α} {fits : α → List Token → Prop} (fit : fits value tokens) :
    Explains (Pure.pure value) tokens fits := by
  intro stream same _
  subst same
  exact ⟨value, rfl, fit⟩

theorem mono {reader : Reading α} {fits wider : α → List Token → Prop}
    (explains : Explains reader tokens fits)
    (widens : ∀ value rest, fits value rest → wider value rest) :
    Explains reader tokens wider := by
  intro stream ahead clean
  obtain ⟨value, result, fit⟩ := explains stream ahead clean
  exact ⟨value, result, widens value _ fit⟩

theorem suffix {reader : Reading α} [Composed reader] {fits : α → List Token → Prop}
    (explains : Explains reader tokens fits) :
    Explains reader tokens fun value rest => rest <:+ tokens ∧ fits value rest := by
  intro stream same clean
  subst same
  obtain ⟨value, result, fit⟩ := explains stream rfl clean
  exact ⟨value, result, ahead_suffix reader stream, fit⟩

theorem bind {first : Reading α} {next : α → Reading β} [∀ value, Composed (next value)]
    {middle : α → List Token → Prop} {fits : β → List Token → Prop}
    (start : Explains first tokens middle)
    (further : ∀ value rest, middle value rest → Explains (next value) rest fits) :
    Explains (first >>= next) tokens fits := by
  intro stream ahead clean
  cases outcome : first stream with
  | mk result later =>
    have reached := start stream ahead
    rw [outcome] at reached
    cases result with
    | none =>
      rw [bind_none outcome] at clean
      obtain ⟨value, absent, -⟩ := reached clean
      exact nomatch absent
    | some value =>
      rw [bind_some outcome] at clean ⊢
      have before : later.problems = [] := List.suffix_nil.mp
        (clean ▸ problems_suffix (next value) later)
      obtain ⟨other, same, fit⟩ := reached before
      obtain rfl : value = other := Option.some.inj same
      exact further value _ fit later rfl clean

theorem map {change : α → β} {reader : Reading α} {fits : α → List Token → Prop}
    (inner : Explains reader tokens fits) :
    Explains (change <$> reader) tokens
      (fun result rest => ∃ value, result = change value ∧ fits value rest) := by
  change Explains (reader >>= fun value => Pure.pure (change value)) tokens _
  exact inner.bind fun value _ fit => pure ⟨value, rfl, fit⟩

/-- After a problem anything may come. -/
theorem note {next : Unit → Reading β} [Composed (next ())] (problem : Problem)
    (fits : β → List Token → Prop) : Explains (Reading.note problem >>= next) tokens fits := by
  intro stream _ clean
  have noted := problems_suffix (next ()) { stream with problems := problem :: stream.problems }
  have clean : (next () { stream with problems := problem :: stream.problems }).2.problems = [] :=
    clean
  exact absurd (List.suffix_nil.mp (clean ▸ noted)) (List.cons_ne_nil _ _)

theorem peek {next : Token → Reading β} {fits : β → List Token → Prop}
    (further : ∀ token, token.kind = following tokens → Explains (next token) tokens fits) :
    Explains (Reading.peek >>= next) tokens fits := by
  intro stream same
  subst same
  exact further stream.next stream.next_kind stream rfl

theorem peek_cons {next : Token → Reading β} {fits : β → List Token → Prop} {token : Token}
    (further : Explains (next token) (token :: tokens) fits) :
    Explains (Reading.peek >>= next) (token :: tokens) fits := by
  intro stream ahead
  obtain rfl : stream.next = token := by rw [Stream.next, ahead, List.headD_cons]
  exact further stream ahead

theorem take {next : Token → Reading β} {fits : β → List Token → Prop} {token : Token}
    (further : Explains (next token) tokens fits) :
    Explains (Reading.take >>= next) (token :: tokens) fits := by
  intro stream ahead
  obtain rfl : stream.next = token := by rw [Stream.next, ahead, List.headD_cons]
  have tail : stream.ahead.tail = tokens := by rw [ahead, List.tail_cons]
  exact further { stream with ahead := stream.ahead.tail } tail

theorem take_nil {next : Token → Reading β} {fits : β → List Token → Prop}
    (further : ∀ token, token.kind = .eof → Explains (next token) [] fits) :
    Explains (Reading.take >>= next) [] fits := by
  intro stream ahead
  have kind : stream.next.kind = .eof := by rw [Stream.next_kind, ahead, following_nil]
  have tail : stream.ahead.tail = [] := by rw [ahead, List.tail_nil]
  exact further stream.next kind { stream with ahead := stream.ahead.tail } tail

theorem expect {kind : TokenKind} {next : Token → Reading β} {fits : β → List Token → Prop}
    (inside : kind ≠ .eof) (further : ∀ token rest, tokens = token :: rest → token.kind = kind →
      Explains (next token) rest fits) :
    Explains (Reading.expect kind >>= next) tokens fits := by
  intro stream ahead clean
  have shown : stream.next.kind = following tokens := ahead ▸ stream.next_kind
  by_cases found : following tokens = kind
  · have chosen : Reading.expect kind stream = Reading.take stream :=
      congrFun (if_pos (shown.trans found)) stream
    cases tokens with
    | nil => exact absurd found.symm inside
    | cons token rest =>
      rw [bind_some chosen] at clean ⊢
      exact take (further token rest rfl found) stream ahead clean
  · have chosen : Reading.expect kind stream = (none, { stream with
        problems := .unexpected kind stream.next.kind stream.next.position :: stream.problems }) :=
      congrFun (if_neg (shown ▸ found)) stream
    rw [bind_none chosen] at clean
    exact absurd clean (List.cons_ne_nil _ _)

theorem takeIf {kind : TokenKind} {next : Bool → Reading β} {fits : β → List Token → Prop}
    (inside : kind ≠ .eof)
    (taken : ∀ token rest, tokens = token :: rest → token.kind = kind →
      Explains (next true) rest fits)
    (left : following tokens ≠ kind → Explains (next false) tokens fits) :
    Explains (Reading.takeIf kind >>= next) tokens fits := by
  intro stream ahead clean
  have shown : stream.next.kind = following tokens := ahead ▸ stream.next_kind
  by_cases found : following tokens = kind
  · have chosen : Reading.takeIf kind stream =
        (some true, { stream with ahead := stream.ahead.tail }) :=
      congrFun (if_pos (shown.trans found)) stream
    cases tokens with
    | nil => exact absurd found.symm inside
    | cons token rest =>
      rw [bind_some chosen] at clean ⊢
      exact taken token rest rfl found _ (by rw [ahead, List.tail_cons]) clean
  · have chosen : Reading.takeIf kind stream = (some false, stream) :=
      congrFun (if_neg (shown ▸ found)) stream
    rw [bind_some chosen] at clean ⊢
    exact left found stream ahead clean

theorem attempt {reader : Reading α} {fits : α → List Token → Prop}
    (inner : Explains reader tokens fits) :
    Explains (Reading.attempt reader) tokens
      (fun result rest => ∃ value, result = some value ∧ fits value rest) :=
  fun stream ahead clean => ⟨(reader stream).1, rfl, inner stream ahead clean⟩

end Explains
/-- What an expression is read as in its surroundings: a phrase that is tighter than they are, up to
a token that is not. -/
def Whole (surroundings : Precedence) (tokens : List Token) (tree : Expr)
    (rest : List Token) : Prop :=
  ∃ level : Level, surroundings.rank < level.floor ∧
    Derives (.expression level) tokens tree rest ∧
    (Precedence.ofKind (following rest)).rank ≤ surroundings.rank

/-- The reader of expressions explains all tokens that it is given enough bound for. No operator
before or between operands has tighter surroundings for its operand than a chain. -/
def ExplainsExpressions (bound : Nat) : Prop :=
  ∀ (surroundings : Precedence) (tokens : List Token), surroundings.rank < Level.chain.floor →
    tokens.length < bound → Short tokens →
    Explains (expression bound surroundings) tokens (Whole surroundings tokens)

section
variable {bound limit : Nat} {tokens : List Token}

theorem ExplainsExpressions.lowest (sound : ExplainsExpressions bound)
    (fits : tokens.length < bound) (short : Short tokens) :
    Explains (expression bound .lowest) tokens fun tree rest =>
      Derives (.expression .equality) tokens tree rest ∧ following rest ∉ continuing := by
  apply (sound .lowest tokens (by decide) fits short).mono
  intro tree rest read
  obtain ⟨level, -, derives, loose⟩ := read
  exact ⟨derives.loosen level.equality_le, rank_of_not_mem_continuing.mpr loose⟩

/-! Rows between brackets. -/

theorem explains_moreExpressions (sound : ExplainsExpressions bound)
    (enough : tokens.length ≤ limit) (fits : tokens.length < bound) (short : Short tokens) :
    Explains (moreExpressions (expression bound .lowest) limit) tokens fun trees rest =>
      ∀ before first, Derives (.expression .equality) before first tokens →
        Derives .items before (first :: trees) rest := by
  induction limit generalizing tokens with
  | zero =>
    obtain rfl := List.eq_nil_of_length_eq_zero (Nat.le_zero.mp enough)
    exact .pure fun _ _ first => .item first
  | succ limit ih =>
    refine .takeIf (by decide) ?_ fun _ => .pure fun _ _ first => .item first
    intro comma more same divides
    subst same
    simp only [List.length_cons] at enough fits
    have short := short.suffix (List.suffix_cons _ _)
    apply Explains.bind (sound.lowest (by omega) short)
    intro second middle read
    obtain ⟨derives, _⟩ := read
    have shorter := derives.length_le
    apply Explains.bind (ih (by omega) (by omega) (short.suffix derives.suffix))
    intro trees rest more
    exact .pure fun before first start => .moreItems start divides (more _ second derives)

theorem explains_expressions (sound : ExplainsExpressions bound) {closing : TokenKind}
    (inside : closing ≠ .eof) (enough : tokens.length ≤ limit) (fits : tokens.length < bound)
    (short : Short tokens) :
    Explains (expressions limit (expression bound .lowest) closing) tokens fun trees rest =>
      ∃ token, token.kind = closing ∧ Derives .row tokens trees (token :: rest) := by
  refine .takeIf inside ?_ fun _ => ?_
  · intro token rest same kind
    subst same
    exact .pure ⟨token, kind, .noItems⟩
  · apply Explains.bind (sound.lowest fits short)
    intro first middle read
    obtain ⟨derives, _⟩ := read
    have shorter := derives.length_le
    refine .bind (explains_moreExpressions sound (by omega) (by omega)
      (short.suffix derives.suffix)) fun others rest more => ?_
    apply Explains.expect inside
    intro token rest same kind
    subst same
    exact .pure ⟨token, kind, .someItems (more tokens first derives)⟩

theorem explains_pairs (sound : ExplainsExpressions bound) (enough : tokens.length ≤ limit)
    (fits : tokens.length < bound) (short : Short tokens) :
    Explains (pairs (expression bound .lowest) limit) tokens (Derives .pairs tokens) := by
  induction limit generalizing tokens with
  | zero =>
    obtain rfl := List.eq_nil_of_length_eq_zero (Nat.le_zero.mp enough)
    exact .pure .noPairs
  | succ limit ih =>
    apply Explains.peek
    intro next _
    split
    · exact .pure .noPairs
    apply Explains.bind (sound.lowest fits short)
    intro key middle read
    obtain ⟨first, _⟩ := read
    apply Explains.expect (by decide)
    intro colon middle same divides
    subst same
    have shorter := first.length_le
    have short := short.past first
    simp only [List.length_cons] at shorter
    apply Explains.bind (sound.lowest (by omega) short)
    intro value later read
    obtain ⟨second, _⟩ := read
    apply Explains.peek
    intro next _
    split
    · exact .pure (.pair first divides second)
    apply Explains.expect (by decide)
    intro comma later same separates
    subst same
    have shorter := second.length_le
    simp only [List.length_cons] at shorter
    apply Explains.bind (ih (by omega) (by omega) (short.past second))
    intro others rest third
    exact .pure (.morePairs first divides second separates third)

theorem explains_parameter : Explains parameter tokens fun name rest =>
    ∃ token, tokens = token :: rest ∧ token.kind = .ident ∧ name = ⟨token, token.literal⟩ :=
  .expect (by decide) fun token _ same kind => .pure ⟨token, same, kind, rfl⟩

theorem explains_moreParameters (enough : tokens.length ≤ limit) :
    Explains (moreParameters limit) tokens fun names rest =>
      ∀ token : Token, token.kind = .ident →
        Derives .names (token :: tokens) (⟨token, token.literal⟩ :: names) rest := by
  induction limit generalizing tokens with
  | zero =>
    obtain rfl := List.eq_nil_of_length_eq_zero (Nat.le_zero.mp enough)
    exact .pure fun _ kind => .name kind
  | succ limit ih =>
    refine .takeIf (by decide) ?_ fun _ => .pure fun _ kind => .name kind
    intro comma more same divides
    subst same
    apply Explains.bind explains_parameter
    intro result middle read
    obtain ⟨token, rfl, kind, rfl⟩ := read
    simp only [List.length_cons] at enough
    apply Explains.bind (ih (by omega))
    intro names rest further
    exact .pure fun earlier kind' => .moreNames kind' divides (further token kind)

theorem explains_parameters (enough : tokens.length ≤ limit) :
    Explains (parameters limit) tokens fun names rest =>
      ∃ token, token.kind = .rightParen ∧ Derives .parameters tokens names (token :: rest) := by
  refine .takeIf (by decide) ?_ fun _ => ?_
  · intro token rest same kind
    subst same
    exact .pure ⟨token, kind, .noParameters⟩
  · apply Explains.bind explains_parameter
    intro result middle read
    obtain ⟨first, rfl, kind, rfl⟩ := read
    simp only [List.length_cons] at enough
    apply Explains.bind (explains_moreParameters (by omega))
    intro others rest more
    apply Explains.expect (by decide)
    intro token rest same kind'
    subst same
    exact .pure ⟨token, kind', .someParameters (more first kind)⟩

/-! Statements and blocks. -/

/-- A semicolon is taken if there is one, and then the statement is over. -/
theorem explains_ending (allowed : TokenKind → Prop) (tree : Statement)
    (stops : following tokens ≠ .semicolon → allowed (following tokens)) :
    Explains (takeIf .semicolon >>= fun _ => pure tree) tokens fun result rest =>
      result = tree ∧ Ends allowed tokens rest := by
  refine .takeIf (by decide) ?_ fun other => .pure ⟨rfl, .without (stops other)⟩
  intro token rest same kind
  subst same
  exact .pure ⟨rfl, .semicolon kind⟩

theorem explains_statement (sound : ExplainsExpressions bound) (fits : tokens.length < bound)
    (short : Short tokens) :
    Explains (statement (expression bound .lowest)) tokens (Derives .statement tokens) := by
  cases tokens with
  | nil =>
    apply Explains.peek
    intro first shown
    simp only [shown, following_nil]
    apply Explains.bind (sound.lowest fits short)
    intro _ _ read
    obtain ⟨derives, _⟩ := read
    exact absurd (show following [] ∈ starters from derives.opens) (by decide)
  | cons token tokens =>
  have short' := short.suffix (List.suffix_cons _ _)
  apply Explains.peek_cons
  split
  · rename_i kind
    refine .take (.expect (by decide) ?_)
    intro name tokens same named
    subst same
    apply Explains.expect (by decide)
    intro assign tokens same assigns
    subst same
    simp only [List.length_cons] at fits
    have short := short'.suffix ((List.suffix_cons _ _).trans (List.suffix_cons _ _))
    apply Explains.bind (sound.lowest (by omega) short)
    intro value middle read
    obtain ⟨inner, stops⟩ := read
    apply (explains_ending (· ∉ continuing) _ fun _ => stops).mono
    intro result rest read
    obtain ⟨rfl, ends⟩ := read
    exact .binding kind named assigns inner ends
  · rename_i kind
    refine .take (.peek fun next shown => ?_)
    have nothing (listed : next.kind ∈ [.semicolon, .rightBrace, .eof]) :
        Explains (takeIf .semicolon >>= fun _ => pure (.giveBack token none)) tokens
          (Derives .statement (token :: tokens)) := by
      refine (explains_ending (· ∈ [.semicolon, .rightBrace, .eof]) _
        fun _ => shown ▸ listed).mono ?_
      intro result rest read
      obtain ⟨rfl, ends⟩ := read
      exact .giveBackNothing kind ends
    dsimp only
    split
    · rename_i listed
      exact nothing (by simp [listed])
    · rename_i listed
      exact nothing (by simp [listed])
    · rename_i listed
      exact nothing (by simp [listed])
    · apply Explains.bind (sound.lowest (Nat.lt_of_succ_lt fits) short').map
      intro result middle read
      obtain ⟨value, rfl, inner, stops⟩ := read
      apply (explains_ending (· ∉ continuing) _ fun _ => stops).mono
      intro result rest read
      obtain ⟨rfl, ends⟩ := read
      exact .giveBack kind inner ends
  · apply Explains.bind (sound.lowest fits short)
    intro value middle read
    obtain ⟨inner, stops⟩ := read
    apply (explains_ending (· ∉ continuing) _ fun _ => stops).mono
    intro result rest read
    obtain ⟨rfl, ends⟩ := read
    exact .expression inner ends

theorem explains_untilBrace (sound : ExplainsExpressions bound) (enough : tokens.length ≤ limit)
    (fits : tokens.length < bound) (short : Short tokens) :
    Explains (untilBrace (statement (expression bound .lowest)) limit) tokens fun trees rest =>
      ∃ token, token.kind = .rightBrace ∧ Derives .statements tokens trees (token :: rest) := by
  have missing {fits : List Statement → List Token → Prop} :
      Explains untilBrace.missingBrace tokens fits := .peek fun _ _ => .note _ _
  induction limit generalizing tokens with
  | zero => exact missing
  | succ limit ih =>
    cases tokens with
    | nil =>
      apply Explains.peek
      intro next shown
      simp only [shown, following_nil]
      exact missing
    | cons token tokens =>
    apply Explains.peek_cons
    split
    · rename_i kind
      exact .take (.pure ⟨token, kind, .noStatements⟩)
    · exact missing
    · apply Explains.bind (explains_statement sound fits short).attempt
      intro result middle read
      obtain ⟨tree, rfl, first⟩ := read
      have shorter := first.length_lt rfl
      have inner := ih (by omega) (by omega) (short.suffix first.suffix)
        (.peek fun _ _ => .note _ _)
      apply Explains.bind inner
      intro trees rest read
      obtain ⟨closing, kind, second⟩ := read
      exact .pure ⟨closing, kind, .moreStatements first second⟩

theorem explains_untilEnd (sound : ExplainsExpressions bound) (enough : tokens.length ≤ limit)
    (fits : tokens.length < bound) (short : Short tokens)
    (inside : ∀ token ∈ tokens, token.kind ≠ .eof) :
    Explains (untilEnd (statement (expression bound .lowest)) limit) tokens fun trees rest =>
      Derives .statements tokens trees rest ∧ rest = [] := by
  induction limit generalizing tokens with
  | zero =>
    obtain rfl := List.eq_nil_of_length_eq_zero (Nat.le_zero.mp enough)
    exact .pure ⟨.noStatements, rfl⟩
  | succ limit ih =>
    cases tokens with
    | nil =>
      apply Explains.peek
      intro next shown
      simp only [shown, following_nil]
      exact .pure ⟨.noStatements, rfl⟩
    | cons token tokens =>
    apply Explains.peek_cons
    split
    · rename_i kind
      exact absurd kind (inside token (List.mem_cons_self ..))
    · apply Explains.bind (explains_statement sound fits short).attempt
      intro result middle read
      obtain ⟨tree, rfl, first⟩ := read
      have shorter := first.length_lt rfl
      refine .bind (ih (by omega) (by omega) (short.suffix first.suffix)
        fun token member => inside token (first.suffix.subset member)) ?_
      intro trees rest read
      obtain ⟨second, rfl⟩ := read
      exact .pure ⟨.moreStatements first second, rfl⟩

theorem explains_block (sound : ExplainsExpressions bound) (enough : tokens.length ≤ limit)
    (fits : tokens.length < bound) (short : Short tokens) :
    Explains (block limit (expression bound .lowest)) tokens (Derives .block tokens) := by
  apply Explains.expect (by decide)
  intro opening tokens same opens
  subst same
  simp only [List.length_cons] at enough fits
  refine .bind (explains_untilBrace sound (by omega) (by omega)
    (short.suffix (List.suffix_cons _ _))) ?_
  intro trees rest read
  obtain ⟨closing, closes, inner⟩ := read
  exact .pure (.block opens inner closes)

/-! Expressions. -/

theorem explains_conditional (sound : ExplainsExpressions bound) {token : Token}
    (kind : token.kind = .ifKeyword) (enough : tokens.length ≤ limit)
    (fits : tokens.length < bound) (short : Short tokens) :
    Explains (conditional limit (expression bound .lowest) token) tokens
      (Derives (.expression .chain) (token :: tokens)) := by
  apply Explains.expect (by decide)
  intro opening tokens same opens
  subst same
  simp only [List.length_cons] at enough fits
  have short := short.suffix (List.suffix_cons _ _)
  apply Explains.bind (sound.lowest (by omega) short)
  intro condition middle read
  obtain ⟨first, _⟩ := read
  apply Explains.expect (by decide)
  intro closing middle same closes
  subst same
  have shorter := first.length_le
  have short := short.past first
  simp only [List.length_cons] at shorter
  apply Explains.bind (explains_block sound (by omega) (by omega) short)
  intro yes later second
  have shorter' := second.length_le
  have short := short.suffix second.suffix
  refine .takeIf (by decide) ?_ fun _ => ?_
  · intro otherwise inner same kind'
    subst same
    simp only [List.length_cons] at shorter'
    refine .bind (explains_block sound (by omega) (by omega)
      (short.suffix (List.suffix_cons _ _))) fun no rest third => ?_
    exact .pure (.conditional kind opens first closes second (.someAlternative kind' third))
  · exact .pure (.conditional kind opens first closes second .noAlternative)

theorem explains_function (sound : ExplainsExpressions bound) {token : Token}
    (kind : token.kind = .fnKeyword) (enough : tokens.length ≤ limit)
    (fits : tokens.length < bound) (short : Short tokens) :
    Explains (function limit (expression bound .lowest) token) tokens
      (Derives (.expression .chain) (token :: tokens)) := by
  apply Explains.expect (by decide)
  intro opening tokens same opens
  subst same
  simp only [List.length_cons] at enough fits
  have short := short.suffix (List.suffix_cons _ _)
  apply Explains.bind (explains_parameters (by omega))
  intro names middle read
  obtain ⟨closing, closes, first⟩ := read
  have shorter := first.length_le
  simp only [List.length_cons] at shorter
  refine .bind (explains_block sound (by omega) (by omega) (short.past first))
    fun body rest second => ?_
  exact .pure (.function kind opens first closes second)

theorem explains_integer {token : Token} (kind : token.kind = .int)
    (digits : token.literal.length ≤ maxDigits) :
    Explains (integer token) tokens (Derives (.expression .chain) (token :: tokens)) := by
  rw [integer, if_neg (Nat.not_lt.mpr digits)]
  dsimp only
  split
  · exact .note _ _
  · rename_i fits
    exact .pure (.integer kind (Nat.le_of_not_lt fits))

/-- An operand is a chain, or a sign before an operand that nothing carries on. -/
theorem explains_operand (sound : ExplainsExpressions bound) (fits : tokens.length ≤ bound)
    (short : Short tokens) :
    Explains (operand bound (expression bound)) tokens fun tree rest =>
      ∃ level : Level, level.floor = Level.chain.floor ∧
        Derives (.expression level) tokens tree rest ∧
        (Precedence.ofKind (following rest)).rank ≤ level.ceiling := by
  cases tokens with
  | nil =>
    apply Explains.take_nil
    intro token kind
    simp only [kind]
    exact .note _ _
  | cons token tokens =>
  have short' := short.suffix (List.suffix_cons _ _)
  have fits' := Nat.le_of_succ_le fits
  have chain {tree : Expr} {rest : List Token}
      (derives : Derives (.expression .chain) (token :: tokens) tree rest) :
      ∃ level : Level, level.floor = Level.chain.floor ∧
        Derives (.expression level) (token :: tokens) tree rest ∧
        (Precedence.ofKind (following rest)).rank ≤ level.ceiling :=
    ⟨.chain, rfl, derives, Precedence.rank_le _⟩
  have sign (signed : token.kind = .bang ∨ token.kind = .minus) :
      Explains (expression bound .sign >>= fun right =>
          pure (.unary token (.ofText token.literal) right)) tokens fun tree rest =>
        ∃ level : Level, level.floor = Level.chain.floor ∧
          Derives (.expression level) (token :: tokens) tree rest ∧
          (Precedence.ofKind (following rest)).rank ≤ level.ceiling := by
    apply Explains.bind (sound .sign tokens (by decide) fits short')
    intro right rest read
    obtain ⟨level, room, inner, loose⟩ := read
    have looser : Level.sign.ceiling ≤ level.ceiling := by
      cases level <;> revert room <;> decide
    exact .pure ⟨.sign, rfl, .unary signed (inner.loosen looser), loose⟩
  apply Explains.take
  split
  · rename_i kind
    exact .pure (chain (.identifier kind))
  · rename_i kind
    apply (explains_integer kind (short token (List.mem_cons_self ..) kind)).mono
    exact fun _ _ => chain
  · rename_i kind
    exact .pure (chain (.string kind))
  · rename_i kind
    exact .pure (chain (.truth kind))
  · rename_i kind
    exact .pure (chain (.falsehood kind))
  · rename_i kind
    exact sign (.inl kind)
  · rename_i kind
    exact sign (.inr kind)
  · rename_i opens
    apply Explains.bind (sound.lowest fits short')
    intro tree middle read
    obtain ⟨inner, _⟩ := read
    apply Explains.expect (by decide)
    intro closing rest same closes
    subst same
    exact .pure (chain (.group opens inner closes))
  · rename_i kind
    exact (explains_conditional sound kind fits' fits short').mono fun _ _ => chain
  · rename_i kind
    exact (explains_function sound kind fits' fits short').mono fun _ _ => chain
  · rename_i opens
    apply Explains.bind (explains_expressions sound (by decide) fits' fits short')
    intro elements rest read
    obtain ⟨closing, closes, inner⟩ := read
    exact .pure (chain (.array opens inner closes))
  · rename_i opens
    apply Explains.bind (explains_pairs sound fits' fits short')
    intro pairs middle inner
    apply Explains.expect (by decide)
    intro closing rest same closes
    subst same
    exact .pure (chain (.hash opens inner closes))
  · exact .note _ _

theorem explains_slice (sound : ExplainsExpressions bound) {left : Expr} {lower : Option Expr}
    {opening colon : Token} {before middle : List Token}
    (first : Derives (.expression .chain) before left (opening :: middle))
    (opens : opening.kind = .leftBracket) (second : Derives .bound middle lower (colon :: tokens))
    (divides : colon.kind = .colon) (fits : tokens.length < bound) (short : Short tokens) :
    Explains (slice (expression bound .lowest) opening left lower) tokens
      (Derives (.expression .chain) before) := by
  have ending {upper : Option Expr} {later : List Token}
      (third : Derives .bound tokens upper later) :
      Explains (expect .rightBracket >>= fun _ => pure (.slice opening left lower upper)) later
        (Derives (.expression .chain) before) := by
    apply Explains.expect (by decide)
    intro closing rest same closes
    subst same
    exact .pure (.slice first opens second divides third closes)
  apply Explains.peek
  intro next _
  split
  · exact ending .noBound
  · apply Explains.bind (sound.lowest fits short).map
    intro result later read
    obtain ⟨upper, rfl, third, -⟩ := read
    exact ending (.someBound third)

theorem explains_indexOrSlice (sound : ExplainsExpressions bound) {left : Expr} {opening : Token}
    {before : List Token} (first : Derives (.expression .chain) before left (opening :: tokens))
    (opens : opening.kind = .leftBracket) (fits : tokens.length < bound) (short : Short tokens) :
    Explains (indexOrSlice (expression bound .lowest) opening left) tokens
      (Derives (.expression .chain) before) := by
  refine .takeIf (by decide) ?_ fun _ => ?_
  · intro colon later same divides
    subst same
    exact explains_slice sound first opens .noBound divides (Nat.lt_of_succ_lt fits)
      (short.suffix (List.suffix_cons _ _))
  · apply Explains.bind (sound.lowest fits short)
    intro position middle read
    obtain ⟨second, _⟩ := read
    have shorter := second.length_le
    refine .takeIf (by decide) ?_ fun _ => ?_
    · intro colon later same divides
      subst same
      simp only [List.length_cons] at shorter
      exact explains_slice sound first opens (.someBound second) divides (by omega)
        (short.past second)
    · apply Explains.expect (by decide)
      intro closing rest same closes
      subst same
      exact .pure (.index first opens second closes)

/-- One operator, applied to an operand that it binds no more tightly than. -/
theorem explains_operation (sound : ExplainsExpressions bound) {level : Level} {left : Expr}
    {token : Token} {before : List Token}
    (first : Derives (.expression level) before left (token :: tokens))
    (binds : token.kind ∈ continuing)
    (under : (Precedence.ofKind token.kind).rank ≤ level.ceiling)
    (fits : tokens.length < bound) (short : Short tokens) :
    Explains (operation bound (expression bound) token left) tokens fun tree rest =>
      ∃ outer : Level, min (Precedence.ofKind token.kind).rank Level.chain.floor ≤ outer.floor ∧
        Derives (.expression outer) before tree rest ∧
        (Precedence.ofKind (following rest)).rank ≤ outer.ceiling := by
  have chain (opens : token.kind = .leftParen ∨ token.kind = .leftBracket) : level = .chain := by
    rcases opens with opens | opens <;> rw [opens] at under <;> cases level <;>
      first
        | rfl
        | exact absurd under (by decide)
  unfold operation
  split
  · rename_i opens
    obtain rfl := chain (.inl opens)
    apply Explains.bind (explains_expressions sound (by decide) (Nat.le_of_lt fits) fits short)
    intro arguments rest read
    obtain ⟨closing, closes, second⟩ := read
    exact .pure ⟨.chain, Nat.min_le_right _ _, .call first opens second closes,
      Precedence.rank_le _⟩
  · rename_i opens
    obtain rfl := chain (.inr opens)
    refine (explains_indexOrSlice sound first opens fits short).mono fun tree rest derives => ?_
    exact ⟨.chain, Nat.min_le_right _ _, derives, Precedence.rank_le _⟩
  · rename_i unopened unindexed
    obtain ⟨outer, joins⟩ := Level.exists_mem_operators binds unopened unindexed
    obtain ⟨low, high, room⟩ := Level.rank_of_mem_operators joins
    have most := outer.tighter.floor_le
    apply Explains.bind (sound _ tokens (by omega) fits short)
    intro right rest read
    obtain ⟨inner, tight, second, loose⟩ := read
    have looser : outer.tighter.ceiling ≤ inner.ceiling :=
      Level.ceiling_tighter_le (by omega) (List.ne_nil_of_mem joins)
    refine .pure ⟨outer, by omega, ?_, by omega⟩
    exact .binary (first.loosen (by omega)) joins (second.loosen looser)

/-- By induction on the operators still to be applied: what was read before them is a phrase that
is tighter than the surroundings, and the next token binds no more tightly than that. -/
theorem explains_operations (sound : ExplainsExpressions bound) {surroundings : Precedence}
    {count : Nat} {left : Expr} {before : List Token}
    (lax : surroundings.rank < Level.chain.floor) (enough : tokens.length ≤ count)
    (fits : tokens.length ≤ bound) (short : Short tokens)
    (read : ∃ level : Level, surroundings.rank < level.floor ∧
      Derives (.expression level) before left tokens ∧
      (Precedence.ofKind (following tokens)).rank ≤ level.ceiling) :
    Explains (operations bound (expression bound) surroundings count left) tokens
      (Whole surroundings before) := by
  induction count generalizing left tokens with
  | zero =>
    obtain rfl := List.eq_nil_of_length_eq_zero (Nat.le_zero.mp enough)
    obtain ⟨level, tight, derives, -⟩ := read
    exact .pure ⟨level, tight, derives, surroundings.rank_pos⟩
  | succ count ih =>
    obtain ⟨level, tight, derives, under⟩ := read
    apply Explains.peek
    intro next shown
    rw [shown]
    split
    · rename_i binds
      have continues : following tokens ∈ continuing := by
        refine Decidable.of_not_not fun stops => ?_
        have loose := rank_of_not_mem_continuing.mp stops
        have low := surroundings.rank_pos
        omega
      cases tokens with
      | nil => exact absurd continues (by decide)
      | cons token tokens =>
      simp only [List.length_cons] at enough fits
      rw [following_cons] at binds continues under
      have short := short.suffix (List.suffix_cons _ _)
      refine .take (.bind
        (explains_operation sound derives continues under (by omega) short).suffix ?_)
      intro whole rest read
      obtain ⟨suffix, outer, high, derives, under⟩ := read
      have shorter := suffix.length_le
      exact ih (by omega) (by omega) (short.suffix suffix) ⟨outer, by omega, derives, under⟩
    · rename_i loose
      exact .pure ⟨level, tight, derives, by omega⟩

theorem explains_expression (bound : Nat) : ExplainsExpressions bound := by
  induction bound with
  | zero => exact fun _ _ _ fits => absurd fits (Nat.not_lt_zero _)
  | succ bound ih =>
    intro surroundings tokens lax fits short
    have fits := Nat.le_of_lt_succ fits
    apply Explains.bind (explains_operand ih fits short)
    intro left middle read
    obtain ⟨level, same, derives, under⟩ := read
    have shorter := derives.length_le
    exact explains_operations ih lax (by omega) (by omega) (short.suffix derives.suffix)
      ⟨level, by omega, derives, under⟩

end

end Reading

/-- Tokens that are read without any problem are derived by the grammar. -/
theorem derives_of_parseTokens {tokens : List Token} {ending : Token} (short : Short tokens)
    (inside : ∀ token ∈ tokens, token.kind ≠ .eof)
    (clean : (parseTokens (tokens ++ [ending])).problems = []) :
    ∃ statements, Derives .statements tokens statements [] := by
  have stream : Stream.ofTokens (tokens ++ [ending]) = ⟨tokens, ending.position, [], false⟩ := by
    simp [Stream.ofTokens]
  unfold parseTokens Reading.program at clean
  rw [stream] at clean
  have explains := Reading.explains_untilEnd (Reading.explains_expression (tokens.length + 1))
    (Nat.le_refl _) (Nat.lt_succ_self _) short inside ⟨tokens, ending.position, [], false⟩ rfl
  obtain ⟨statements, -, derives, ended⟩ := explains (List.reverse_eq_nil_iff.mp clean)
  exact ⟨statements, ended ▸ derives⟩

end Monkey

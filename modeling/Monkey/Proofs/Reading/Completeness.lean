import Monkey.Proofs.Reading.Success

/-!
What the grammar derives is read, and read as the tree that the grammar gives it. An operator binds
its right operand only up to the next operator that is not tighter; so in place of the whole, the
induction on a derivation speaks of the point where the tokens of the phrase have all been taken
and the rest of the row is still to be looked at.
-/

namespace Monkey

namespace Level

/-- A phrase of this level is read whole in surroundings of a lower rank. -/
def floor : Level → Nat
  | equality => 2
  | comparison => 3
  | sum => 4
  | product => 5
  | sign | chain => 7

/-- A phrase of this level ends before tokens up to this rank. -/
def ceiling : Level → Nat
  | equality => 2
  | comparison => 3
  | sum => 4
  | product => 5
  | sign => 6
  | chain => 8

theorem equality_le (level : Level) : equality.ceiling ≤ level.ceiling := by
  cases level <;> decide

theorem le_chain (level : Level) : level.ceiling ≤ chain.ceiling := by
  cases level <;> decide

theorem floor_le_tighter (level : Level) : level.floor ≤ level.tighter.floor := by
  cases level <;> decide

theorem ceiling_le_tighter (level : Level) : level.ceiling ≤ level.tighter.ceiling := by
  cases level <;> decide

/-- An operator that joins two operands has the rank of its level, and binds its right operand
more tightly than that. -/
theorem rank_of_mem_operators {level : Level} {kind : TokenKind}
    (joins : kind ∈ level.operators) :
    (Precedence.ofKind kind).rank = level.floor ∧ (Precedence.ofKind kind).rank = level.ceiling ∧
      level.floor < level.tighter.floor := by
  cases level <;> simp only [operators, List.mem_cons, List.not_mem_nil, or_false] at joins
  all_goals rcases joins with rfl | rfl <;> decide

end Level

/-- What is of one level is of every looser level. -/
theorem Derives.loosen {level target : Level} {tokens rest : List Token} {tree : Expr}
    (derives : Derives (.expression level) tokens tree rest)
    (looser : target.ceiling ≤ level.ceiling) :
    Derives (.expression target) tokens tree rest := by
  cases target <;> cases level <;> first
    | exact absurd looser (by decide)
    | repeat first
      | exact derives
      | refine .tighter ?_

/-- The tokens that carry on an expression are those that bind at all. -/
theorem rank_of_not_mem_continuing {kind : TokenKind} :
    kind ∉ continuing ↔ (Precedence.ofKind kind).rank ≤ Precedence.lowest.rank := by
  cases kind <;> decide

/-- No row of digits is longer than those that are converted. -/
def Short (tokens : List Token) : Prop :=
  ∀ token ∈ tokens, token.kind = .int → token.literal.length ≤ maxDigits

theorem Short.suffix {tokens rest : List Token} (short : Short tokens) (suffix : rest <:+ tokens) :
    Short rest := fun token member => short token (suffix.subset member)

theorem Short.past {phrase : Phrase} {tokens rest : List Token} {tree : phrase.Tree} {token : Token}
    (short : Short tokens) (first : Derives phrase tokens tree (token :: rest)) : Short rest :=
  short.suffix ((List.suffix_cons _ _).trans first.suffix)

namespace Reading

section
variable {bound : Nat} {expression : Precedence → Reading Expr} {surroundings : Precedence}
variable {left whole : Expr} {tokens rest : List Token}

theorem operations_stop (count : Nat)
    (loose : (Precedence.ofKind (following rest)).rank ≤ surroundings.rank) :
    Reads (operations bound expression surroundings count left) rest left rest := by
  cases count with
  | zero => exact .pure left rest
  | succ count =>
    apply Reads.peek
    intro next shown
    rw [if_neg (by rw [shown]; omega)]
    exact .pure left rest

theorem operations_step {token : Token} {middle : List Token} (count : Nat)
    (tight : surroundings.rank < (Precedence.ofKind token.kind).rank)
    (applied : Reads (operation bound expression token left) middle whole rest)
    (stream : Stream) :
    operations bound expression surroundings (count + 1) left (stream.leaving (token :: middle)) =
      operations bound expression surroundings count whole (stream.leaving rest) := by
  have chosen : operations bound expression surroundings (count + 1) left
      (stream.leaving (token :: middle)) =
        (take >>= fun token => operation bound expression token left >>= fun whole =>
          operations bound expression surroundings count whole)
        (stream.leaving (token :: middle)) := congrFun (if_pos tight) _
  exact chosen.trans ((bind_some (Reads.take token middle stream)).trans
    (bind_some (applied stream)))

end

/-- What it means that a phrase is read. For an expression the operators that follow it are still
to be applied; the limits of rows are large enough as long as they cover the tokens. -/
def ReadsPhrase : (phrase : Phrase) → List Token → phrase.Tree → List Token → Prop
  | .expression level, tokens, tree, rest => ∀ (bound : Nat) (surroundings : Precedence),
    tokens.length ≤ bound → surroundings.rank < level.floor →
    (Precedence.ofKind (following rest)).rank ≤ level.ceiling → following rest ≠ .elseKeyword →
    ∃ count, rest.length ≤ count ∧ ∀ stream : Stream,
      expression (bound + 1) surroundings (stream.leaving tokens) =
        operations bound (expression bound) surroundings count tree (stream.leaving rest)
  | .row, tokens, trees, rest => ∀ bound limit closing token more,
    tokens.length < bound → tokens.length ≤ limit → rest = token :: more → token.kind = closing →
    closing = .rightParen ∨ closing = .rightBracket →
    Reads (expressions limit (expression bound .lowest) closing) tokens trees more
  | .items, tokens, trees, rest => ∀ bound limit,
    tokens.length < bound → tokens.length ≤ limit →
    following rest = .rightParen ∨ following rest = .rightBracket →
    ∃ first others middle, trees = first :: others ∧
      Reads (expression bound .lowest) tokens first middle ∧
      Reads (moreExpressions (expression bound .lowest) limit) middle others rest
  | .pairs, tokens, trees, rest => ∀ bound limit,
    tokens.length < bound → tokens.length ≤ limit → following rest = .rightBrace →
    Reads (pairs (expression bound .lowest) limit) tokens trees rest
  | .parameters, tokens, list, rest => ∀ limit token more,
    tokens.length ≤ limit → rest = token :: more → token.kind = .rightParen →
    Reads (parameters limit) tokens list more
  | .names, tokens, list, rest => ∀ limit,
    tokens.length ≤ limit → following rest = .rightParen →
    ∃ first others middle, list = first :: others ∧ following tokens = .ident ∧
      Reads parameter tokens first middle ∧ Reads (moreParameters limit) middle others rest
  | .bound, tokens, tree, rest => ∀ bound,
    tokens.length < bound → following rest = .colon ∨ following rest = .rightBracket →
    tree = none ∧ tokens = rest ∨ ∃ value, tree = some value ∧ following tokens ∈ starters ∧
      Reads (expression bound .lowest) tokens value rest
  | .block, tokens, tree, rest => ∀ bound limit,
    tokens.length < bound → tokens.length ≤ limit →
    Reads (block limit (expression bound .lowest)) tokens tree rest
  | .alternative, tokens, tree, rest => ∀ bound limit,
    tokens.length < bound → tokens.length ≤ limit →
    tree = none ∧ tokens = rest ∨ ∃ token inner body, tree = some body ∧ tokens = token :: inner ∧
      token.kind = .elseKeyword ∧
      Reads (block limit (expression bound .lowest)) inner body rest
  | .statement, tokens, tree, rest => ∀ bound,
    tokens.length < bound → following rest ≠ .semicolon → following rest ≠ .elseKeyword →
    Reads (statement (expression bound .lowest)) tokens tree rest
  | .statements, tokens, trees, rest => ∀ bound limit,
    tokens.length < bound → tokens.length ≤ limit →
    (∀ token more, rest = token :: more → token.kind = .rightBrace →
      Reads (untilBrace (statement (expression bound .lowest)) limit) tokens trees more) ∧
    (rest = [] →
      Reads (untilEnd (statement (expression bound .lowest)) limit) tokens trees [])
  | .program, _, _, _ => True

variable {tokens middle rest : List Token} {tree left right : Expr}

/-- Where nothing carries an expression on, it has been read. -/
theorem reads_of_read {level : Level} {bound : Nat} {surroundings : Precedence}
    (read : ReadsPhrase (.expression level) tokens tree rest) (fits : tokens.length < bound)
    (below : surroundings.rank < level.floor)
    (loose : (Precedence.ofKind (following rest)).rank ≤ surroundings.rank)
    (under : (Precedence.ofKind (following rest)).rank ≤ level.ceiling)
    (other : following rest ≠ .elseKeyword) :
    Reads (expression bound surroundings) tokens tree rest := by
  cases bound with
  | zero => exact absurd fits (Nat.not_lt_zero _)
  | succ bound =>
  obtain ⟨count, -, reached⟩ := read bound surroundings (Nat.le_of_lt_succ fits) below under other
  exact fun stream => (reached stream).trans (operations_stop count loose stream)

/-- An expression between delimiters. -/
theorem reads_lowest {bound : Nat} (read : ReadsPhrase (.expression .equality) tokens tree rest)
    (fits : tokens.length < bound) (stops : following rest ∉ continuing)
    (other : following rest ≠ .elseKeyword) :
    Reads (expression bound .lowest) tokens tree rest := by
  have loose := rank_of_not_mem_continuing.mp stops
  have under : Precedence.lowest.rank ≤ Level.equality.ceiling := by decide
  exact reads_of_read read fits (by decide) loose (Nat.le_trans loose under) other

/-- An operand is read, and after it the operators. -/
theorem read_of_operand {level : Level} (shrinks : rest.length ≤ tokens.length)
    (read : ∀ bound, tokens.length ≤ bound →
      (Precedence.ofKind (following rest)).rank ≤ level.ceiling → following rest ≠ .elseKeyword →
      Reads (operand bound (expression bound)) tokens tree rest) :
    ReadsPhrase (.expression level) tokens tree rest := by
  intro bound surroundings fits _ under other
  exact ⟨bound, Nat.le_trans shrinks fits,
    fun stream => bind_some (read bound fits under other stream)⟩

/-- One operator is applied to what was read before it. -/
theorem read_of_operation {level : Level} {token : Token}
    (first : ReadsPhrase (.expression level) tokens left (token :: middle))
    (shrinks : rest.length ≤ middle.length)
    (rank : level.floor ≤ (Precedence.ofKind token.kind).rank)
    (under : (Precedence.ofKind token.kind).rank ≤ level.ceiling)
    (read : ∀ bound, tokens.length ≤ bound →
      (Precedence.ofKind (following rest)).rank ≤ level.ceiling → following rest ≠ .elseKeyword →
      Reads (operation bound (expression bound) token left) middle tree rest) :
    ReadsPhrase (.expression level) tokens tree rest := by
  intro bound surroundings fits below looser other
  have continues : token.kind ≠ .elseKeyword := by
    intro same
    rw [same] at rank
    cases level <;> exact absurd rank (by decide)
  obtain ⟨count, enough, reached⟩ := first bound surroundings fits below under continues
  obtain ⟨count, rfl⟩ : ∃ fewer, count = fewer + 1 :=
    ⟨count - 1, by simp only [List.length_cons] at enough; omega⟩
  refine ⟨count, by simp only [List.length_cons] at enough; omega, fun stream => ?_⟩
  exact (reached stream).trans (operations_step count (Nat.lt_of_lt_of_le below rank)
    (read bound fits looser other) stream)

/-- The kind of a token that no expression is carried on by, and that is no `else`. -/
theorem delimits {kind : TokenKind} (listed : kind ∈ [.rightParen, .rightBracket, .rightBrace,
    .comma, .colon, .semicolon]) : kind ∉ continuing ∧ kind ≠ .elseKeyword := by
  cases kind <;> revert listed <;> decide

theorem reads_delimited {bound : Nat}
    (read : ReadsPhrase (.expression .equality) tokens tree rest) (fits : tokens.length < bound)
    (listed : following rest ∈ [.rightParen, .rightBracket, .rightBrace, .comma, .colon,
      .semicolon]) :
    Reads (expression bound .lowest) tokens tree rest :=
  reads_lowest read fits (delimits listed).1 (delimits listed).2

theorem ne_of_mem_starters {kind other : TokenKind} (starts : kind ∈ starters)
    (listed : other ∈ [.rightParen, .rightBracket, .rightBrace, .colon, .semicolon, .eof]) :
    kind ≠ other := by
  intro same
  subst same
  cases kind <;> revert starts listed <;> decide

/-! One lemma for each rule: what the rule makes of phrases that are read is read. -/

section
variable {later : List Token} {token opening closing colon comma operator : Token}

theorem readsPhrase_binary {level : Level}
    (first : Derives (.expression level) tokens left (operator :: middle))
    (joins : operator.kind ∈ level.operators)
    (second : Derives (.expression level.tighter) middle right rest)
    (readsFirst : ReadsPhrase (.expression level) tokens left (operator :: middle))
    (readsSecond : ReadsPhrase (.expression level.tighter) middle right rest) :
    ReadsPhrase (.expression level) tokens
      (.binary operator left (.ofText operator.literal) right) rest := by
  obtain ⟨low, high, room⟩ := Level.rank_of_mem_operators joins
  refine read_of_operation readsFirst second.length_le (by omega) (by omega) ?_
  intro bound fits under other
  have shorter := first.length_le
  simp only [List.length_cons] at shorter
  have ceiling := level.ceiling_le_tighter
  have read : Reads (expression bound (.ofKind operator.kind)) middle right rest :=
    reads_of_read readsSecond (by omega) (by omega) (by omega) (by omega) other
  unfold operation
  split
  · cases level <;> simp_all [Level.operators]
  · cases level <;> simp_all [Level.operators]
  · exact .bind read (.pure _ rest)

theorem readsPhrase_unary (sign : operator.kind = .bang ∨ operator.kind = .minus)
    (inner : Derives (.expression .sign) tokens right rest)
    (reads : ReadsPhrase (.expression .sign) tokens right rest) :
    ReadsPhrase (.expression .sign) (operator :: tokens)
      (.unary operator (.ofText operator.literal) right) rest := by
  refine read_of_operand (Nat.le_succ_of_le inner.length_le) fun bound fits under other => ?_
  have read : Reads (expression bound .sign) tokens right rest :=
    reads_of_read reads fits (by decide) under under other
  apply Reads.bind (.take operator tokens)
  rcases sign with sign | sign <;> simp only [sign] <;> exact .bind read (.pure _ rest)

theorem readsPhrase_call {callee : Expr} {arguments : List Expr}
    (first : Derives (.expression .chain) tokens callee (opening :: middle))
    (opens : opening.kind = .leftParen)
    (second : Derives .row middle arguments (closing :: rest))
    (closes : closing.kind = .rightParen)
    (readsFirst : ReadsPhrase (.expression .chain) tokens callee (opening :: middle))
    (readsSecond : ReadsPhrase .row middle arguments (closing :: rest)) :
    ReadsPhrase (.expression .chain) tokens (.call opening callee arguments) rest := by
  refine read_of_operation readsFirst (Nat.le_of_succ_le second.length_le) (by rw [opens]; decide)
    (by rw [opens]; decide) fun bound fits _ _ => ?_
  have shorter := first.length_le
  simp only [List.length_cons] at shorter
  unfold operation
  simp only [opens]
  exact .bind (readsSecond bound bound .rightParen closing rest (by omega) (by omega) rfl closes
    (.inl rfl)) (.pure _ rest)

theorem readsPhrase_index {position : Expr}
    (first : Derives (.expression .chain) tokens left (opening :: middle))
    (opens : opening.kind = .leftBracket)
    (second : Derives (.expression .equality) middle position (closing :: rest))
    (closes : closing.kind = .rightBracket)
    (readsFirst : ReadsPhrase (.expression .chain) tokens left (opening :: middle))
    (readsSecond : ReadsPhrase (.expression .equality) middle position (closing :: rest)) :
    ReadsPhrase (.expression .chain) tokens (.index opening left position) rest := by
  refine read_of_operation readsFirst (Nat.le_of_succ_le second.length_le) (by rw [opens]; decide)
    (by rw [opens]; decide) fun bound fits _ _ => ?_
  have shorter := first.length_le
  simp only [List.length_cons] at shorter
  have read : Reads (expression bound .lowest) middle position (closing :: rest) :=
    reads_delimited readsSecond (by omega) (by simp [closes])
  unfold operation
  simp only [opens]
  refine .bind (.takeIf_of_ne (ne_of_mem_starters second.opens (by decide))) (.bind read ?_)
  refine .bind (.takeIf_of_ne (by simp [closes])) (.bind (.expect closes rest) (.pure _ rest))

theorem reads_slice {inner : Reading Expr} {upper : Option Expr} {lower : Option Expr}
    (closes : closing.kind = .rightBracket)
    (read : upper = none ∧ tokens = closing :: rest ∨ ∃ value, upper = some value ∧
      following tokens ∈ starters ∧ Reads inner tokens value (closing :: rest)) :
    Reads (slice inner opening left lower) tokens (.slice opening left lower upper) rest := by
  apply Reads.peek
  intro next shown
  rcases read with ⟨rfl, rfl⟩ | ⟨value, rfl, starts, read⟩
  · rw [if_pos (shown.trans closes)]
    exact .bind (.pure none _) (.bind (.expect closes rest) (.pure _ rest))
  · rw [if_neg (shown ▸ ne_of_mem_starters starts (by decide))]
    exact .bind (.bind read (.pure _ _)) (.bind (.expect closes rest) (.pure _ rest))

theorem readsPhrase_slice {lower upper : Option Expr}
    (first : Derives (.expression .chain) tokens left (opening :: middle))
    (opens : opening.kind = .leftBracket)
    (second : Derives .bound middle lower (colon :: later))
    (divides : colon.kind = .colon)
    (third : Derives .bound later upper (closing :: rest))
    (closes : closing.kind = .rightBracket)
    (readsFirst : ReadsPhrase (.expression .chain) tokens left (opening :: middle))
    (readsSecond : ReadsPhrase .bound middle lower (colon :: later))
    (readsThird : ReadsPhrase .bound later upper (closing :: rest)) :
    ReadsPhrase (.expression .chain) tokens (.slice opening left lower upper) rest := by
  have shorter := first.length_le
  have shorter' := second.length_le
  have shorter'' := third.length_le
  simp only [List.length_cons] at shorter shorter' shorter''
  refine read_of_operation readsFirst (by omega) (by rw [opens]; decide) (by rw [opens]; decide)
    fun bound fits _ _ => ?_
  have ending (lower : Option Expr) : Reads (slice (expression bound .lowest) opening left lower)
      later (.slice opening left lower upper) rest :=
    reads_slice closes (readsThird bound (by omega) (.inr closes))
  unfold operation
  simp only [opens]
  rcases readsSecond bound (by omega) (.inl divides) with ⟨rfl, rfl⟩ | ⟨value, rfl, starts, read⟩
  · exact .bind (.takeIf_of_eq divides later) (ending none)
  · refine .bind (.takeIf_of_ne (ne_of_mem_starters starts (by decide))) (.bind read ?_)
    exact .bind (.takeIf_of_eq divides later) (ending (some value))

theorem readsPhrase_group (opens : opening.kind = .leftParen)
    (inner : Derives (.expression .equality) tokens tree (closing :: rest))
    (closes : closing.kind = .rightParen)
    (reads : ReadsPhrase (.expression .equality) tokens tree (closing :: rest)) :
    ReadsPhrase (.expression .chain) (opening :: tokens) tree rest := by
  refine read_of_operand (Nat.le_of_lt (Nat.lt_succ_of_lt inner.length_le)) fun bound fits _ _ => ?_
  apply Reads.bind (.take opening tokens)
  simp only [opens]
  apply Reads.bind (reads_delimited reads fits (by simp [closes]))
  exact .bind (.expect closes rest) (.pure _ rest)

theorem readsPhrase_integer (kind : token.kind = .int) (short : Short (token :: rest))
    (fits : Nat.ofDigitChars 10 token.literal.toList 0 ≤ maxInteger) :
    ReadsPhrase (.expression .chain) (token :: rest)
      (.integer token (Nat.ofDigitChars 10 token.literal.toList 0)) rest := by
  refine read_of_operand (Nat.le_succ _) fun bound _ _ _ => .bind (.take token rest) ?_
  have digits := short token (List.mem_cons_self ..) kind
  have converted : integer token =
      pure (.integer token (Nat.ofDigitChars 10 token.literal.toList 0)) := by
    rw [integer, if_neg (Nat.not_lt.mpr digits)]
    exact if_neg (Nat.not_lt.mpr fits)
  simp only [kind, converted]
  exact .pure _ rest

theorem readsPhrase_conditional {condition : Expr} {consequence : Block}
    {alternative : Option Block} (kind : token.kind = .ifKeyword)
    (opens : opening.kind = .leftParen)
    (first : Derives (.expression .equality) tokens condition (closing :: middle))
    (closes : closing.kind = .rightParen)
    (second : Derives .block middle consequence later)
    (third : Derives .alternative later alternative rest)
    (readsFirst : ReadsPhrase (.expression .equality) tokens condition (closing :: middle))
    (readsSecond : ReadsPhrase .block middle consequence later)
    (readsThird : ReadsPhrase .alternative later alternative rest) :
    ReadsPhrase (.expression .chain) (token :: opening :: tokens)
      (.conditional token condition consequence alternative) rest := by
  have shorter := first.length_le
  have shorter' := second.length_le
  have shorter'' := third.length_le
  simp only [List.length_cons] at shorter
  refine read_of_operand (by simp only [List.length_cons]; omega) fun bound fits _ other => ?_
  simp only [List.length_cons] at fits
  have read : Reads (expression bound .lowest) tokens condition (closing :: middle) :=
    reads_delimited readsFirst (by omega) (by simp [closes])
  apply Reads.bind (.take token _)
  simp only [kind]
  refine .bind (.expect opens tokens) (.bind read (.bind (.expect closes middle) ?_))
  apply Reads.bind (readsSecond bound bound (by omega) (by omega))
  rcases readsThird bound bound (by omega) (by omega) with
    ⟨rfl, rfl⟩ | ⟨token', inner, body, rfl, rfl, kind', read'⟩
  · exact .bind (.takeIf_of_ne other) (.pure _ later)
  · exact .bind (.takeIf_of_eq kind' inner) (.bind read' (.pure _ rest))

theorem readsPhrase_function {list : List Identifier} {body : Block}
    (kind : token.kind = .fnKeyword) (opens : opening.kind = .leftParen)
    (first : Derives .parameters tokens list (closing :: middle))
    (closes : closing.kind = .rightParen)
    (second : Derives .block middle body rest)
    (readsFirst : ReadsPhrase .parameters tokens list (closing :: middle))
    (readsSecond : ReadsPhrase .block middle body rest) :
    ReadsPhrase (.expression .chain) (token :: opening :: tokens) (.function token list body)
      rest := by
  have shorter := first.length_le
  have shorter' := second.length_le
  simp only [List.length_cons] at shorter
  refine read_of_operand (by simp only [List.length_cons]; omega) fun bound fits _ _ => ?_
  simp only [List.length_cons] at fits
  apply Reads.bind (.take token _)
  simp only [kind]
  apply Reads.bind (.expect opens tokens)
  apply Reads.bind (readsFirst bound closing middle (by omega) rfl closes)
  exact .bind (readsSecond bound bound (by omega) (by omega)) (.pure _ rest)

theorem readsPhrase_array {elements : List Expr} (opens : opening.kind = .leftBracket)
    (inner : Derives .row tokens elements (closing :: rest))
    (closes : closing.kind = .rightBracket)
    (reads : ReadsPhrase .row tokens elements (closing :: rest)) :
    ReadsPhrase (.expression .chain) (opening :: tokens) (.array opening elements) rest := by
  refine read_of_operand (Nat.le_of_lt (Nat.lt_succ_of_lt inner.length_le)) fun bound fits _ _ => ?_
  apply Reads.bind (.take opening tokens)
  simp only [opens]
  have inner := reads bound bound .rightBracket closing rest fits (Nat.le_of_lt fits) rfl closes
    (.inr rfl)
  exact .bind inner (.pure _ rest)

theorem readsPhrase_hash {list : List (Expr × Expr)} (opens : opening.kind = .leftBrace)
    (inner : Derives .pairs tokens list (closing :: rest))
    (closes : closing.kind = .rightBrace)
    (reads : ReadsPhrase .pairs tokens list (closing :: rest)) :
    ReadsPhrase (.expression .chain) (opening :: tokens) (.hash opening list) rest := by
  refine read_of_operand (Nat.le_of_lt (Nat.lt_succ_of_lt inner.length_le)) fun bound fits _ _ => ?_
  apply Reads.bind (.take opening tokens)
  simp only [opens]
  apply Reads.bind (reads bound bound fits (Nat.le_of_lt fits) closes)
  exact .bind (.expect closes rest) (.pure _ rest)

theorem readsPhrase_row {trees : List Expr} (inner : Derives .items tokens trees rest)
    (reads : ReadsPhrase .items tokens trees rest) : ReadsPhrase .row tokens trees rest := by
  intro bound limit closing token more fits fits' same closes either
  have starts := inner.opens
  subst same
  obtain ⟨first, others, middle, rfl, start, further⟩ := reads bound limit fits fits'
    (by simp only [following_cons, closes]; exact either)
  refine reads_expressions ?_ start further closes
  rcases either with rfl | rfl <;> exact ne_of_mem_starters starts (by decide)

theorem readsPhrase_item (reads : ReadsPhrase (.expression .equality) tokens tree rest) :
    ReadsPhrase .items tokens [tree] rest := by
  intro bound limit fits _ either
  refine ⟨tree, [], rest, rfl, reads_delimited reads fits ?_, reads_moreExpressions_nil limit ?_⟩
  · rcases either with either | either <;> simp [either]
  · rcases either with either | either <;> simp [either]

theorem readsPhrase_moreItems {trees : List Expr}
    (first : Derives (.expression .equality) tokens tree (comma :: middle))
    (divides : comma.kind = .comma)
    (readsFirst : ReadsPhrase (.expression .equality) tokens tree (comma :: middle))
    (readsSecond : ReadsPhrase .items middle trees rest) :
    ReadsPhrase .items tokens (tree :: trees) rest := by
  intro bound limit fits fits' either
  have shorter := first.length_le
  simp only [List.length_cons] at shorter
  obtain ⟨limit, rfl⟩ := Nat.exists_eq_succ_of_ne_zero (show limit ≠ 0 by omega)
  obtain ⟨next, others, later, rfl, start, further⟩ :=
    readsSecond bound limit (by omega) (by omega) either
  exact ⟨tree, next :: others, comma :: middle, rfl,
    reads_delimited readsFirst fits (by simp [divides]),
    reads_moreExpressions divides start further⟩

theorem readsPhrase_pair {key value : Expr}
    (first : Derives (.expression .equality) tokens key (colon :: middle))
    (divides : colon.kind = .colon)
    (readsFirst : ReadsPhrase (.expression .equality) tokens key (colon :: middle))
    (readsSecond : ReadsPhrase (.expression .equality) middle value rest) :
    ReadsPhrase .pairs tokens [(key, value)] rest := by
  intro bound limit fits fits' closes
  have shorter := first.length_le
  simp only [List.length_cons] at shorter
  obtain ⟨limit, rfl⟩ := Nat.exists_eq_succ_of_ne_zero (show limit ≠ 0 by omega)
  exact reads_pairs_one limit (ne_of_mem_starters first.opens (by decide))
    (reads_delimited readsFirst fits (by simp [divides])) divides
    (reads_delimited readsSecond (by omega) (by simp [closes])) closes

theorem readsPhrase_morePairs {key value : Expr} {list : List (Expr × Expr)}
    (first : Derives (.expression .equality) tokens key (colon :: middle))
    (divides : colon.kind = .colon)
    (second : Derives (.expression .equality) middle value (comma :: later))
    (separates : comma.kind = .comma)
    (readsFirst : ReadsPhrase (.expression .equality) tokens key (colon :: middle))
    (readsSecond : ReadsPhrase (.expression .equality) middle value (comma :: later))
    (readsThird : ReadsPhrase .pairs later list rest) :
    ReadsPhrase .pairs tokens ((key, value) :: list) rest := by
  intro bound limit fits fits' closes
  have shorter := first.length_le
  have shorter' := second.length_le
  simp only [List.length_cons] at shorter shorter'
  obtain ⟨limit, rfl⟩ := Nat.exists_eq_succ_of_ne_zero (show limit ≠ 0 by omega)
  exact reads_pairs (ne_of_mem_starters first.opens (by decide))
    (reads_delimited readsFirst fits (by simp [divides])) divides
    (reads_delimited readsSecond (by omega) (by simp [separates])) separates
    (readsThird bound limit (by omega) (by omega) closes)

theorem readsPhrase_parameters {list : List Identifier}
    (reads : ReadsPhrase .names tokens list rest) : ReadsPhrase .parameters tokens list rest := by
  intro limit token more fits same closes
  subst same
  obtain ⟨first, others, middle, rfl, starts, start, further⟩ := reads limit fits closes
  exact reads_parameters (by simp [starts]) start further closes

theorem readsPhrase_name (kind : token.kind = .ident) :
    ReadsPhrase .names (token :: rest) [⟨token, token.literal⟩] rest := by
  intro limit _ closes
  exact ⟨_, [], rest, rfl, kind, reads_parameter kind rest,
    reads_moreParameters_nil limit (by simp [closes])⟩

theorem readsPhrase_moreNames {list : List Identifier} (kind : token.kind = .ident)
    (divides : comma.kind = .comma) (reads : ReadsPhrase .names tokens list rest) :
    ReadsPhrase .names (token :: comma :: tokens) (⟨token, token.literal⟩ :: list) rest := by
  intro limit fits closes
  simp only [List.length_cons] at fits
  obtain ⟨limit, rfl⟩ := Nat.exists_eq_succ_of_ne_zero (show limit ≠ 0 by omega)
  obtain ⟨first, others, middle, rfl, starts, start, further⟩ := reads limit (by omega) closes
  exact ⟨_, first :: others, comma :: tokens, rfl, kind, reads_parameter kind _,
    reads_moreParameters divides start further⟩

theorem readsPhrase_bound (inner : Derives (.expression .equality) tokens tree rest)
    (reads : ReadsPhrase (.expression .equality) tokens tree rest) :
    ReadsPhrase .bound tokens (some tree) rest := by
  intro bound fits either
  refine .inr ⟨tree, rfl, inner.opens, reads_delimited reads fits ?_⟩
  rcases either with either | either <;> simp [either]

theorem readsPhrase_block {list : List Statement} (opens : opening.kind = .leftBrace)
    (closes : closing.kind = .rightBrace)
    (reads : ReadsPhrase .statements tokens list (closing :: rest)) :
    ReadsPhrase .block (opening :: tokens) ⟨opening, list⟩ rest := by
  intro bound limit fits fits'
  simp only [List.length_cons] at fits fits'
  exact reads_block opens ((reads bound limit (by omega) (by omega)).1 closing rest rfl closes)

/-- The expression at the end of a statement is read where the statement ends. -/
theorem reads_last {bound : Nat} (read : ReadsPhrase (.expression .equality) tokens tree middle)
    (fits : tokens.length < bound) (ends : Ends (· ∉ continuing) middle rest)
    (other : following rest ≠ .elseKeyword) :
    Reads (expression bound .lowest) tokens tree middle := by
  cases ends with
  | semicolon kind => exact reads_delimited read fits (by simp [kind])
  | without stops => exact reads_lowest read fits stops other

theorem following_statements {trees : List Statement}
    (derives : Derives .statements tokens trees rest) :
    trees = [] ∧ tokens = rest ∨
      following tokens ∈ .letKeyword :: .returnKeyword :: starters := by
  cases derives with
  | noStatements => exact .inl ⟨rfl, rfl⟩
  | moreStatements first => exact .inr first.opens

theorem readsPhrase_moreStatements {statement : Statement} {trees : List Statement}
    (first : Derives .statement tokens statement middle)
    (second : Derives .statements middle trees rest)
    (readsFirst : ReadsPhrase .statement tokens statement middle)
    (readsSecond : ReadsPhrase .statements middle trees rest) :
    ReadsPhrase .statements tokens (statement :: trees) rest := by
  intro bound limit fits fits'
  have shorter := first.length_lt rfl
  have starts := first.opens
  obtain ⟨limit, rfl⟩ := Nat.exists_eq_succ_of_ne_zero (show limit ≠ 0 by omega)
  -- What comes after the first statement neither ends it nor carries it on.
  have apart (kinds : following rest = .rightBrace ∨ following rest = .eof) :
      following middle ≠ .semicolon ∧ following middle ≠ .elseKeyword := by
    rcases following_statements second with ⟨-, rfl⟩ | next
    · rcases kinds with kinds | kinds <;> simp [kinds]
    · constructor <;> (intro same; rw [same] at next; revert next; decide)
  have unended (kind : TokenKind) (listed : kind ∈ [.rightBrace, .eof]) :
      following tokens ≠ kind := by
    intro same
    subst same
    simp only [Phrase.opens] at starts
    generalize following tokens = kind at starts listed
    cases kind <;> revert starts listed <;> decide
  obtain ⟨untilBrace, untilEnd⟩ := readsSecond bound limit (by omega) (by omega)
  refine ⟨fun token more same closes => ?_, fun same => ?_⟩
  · obtain ⟨unclosed, unjoined⟩ := apart (.inl (by rw [same]; exact closes))
    refine reads_untilBrace ?_ (readsFirst bound fits unclosed unjoined)
      (untilBrace token more same closes)
    exact fun member => unended _ member rfl
  · obtain ⟨unclosed, unjoined⟩ := apart (.inr (by rw [same]; rfl))
    exact reads_untilEnd (unended .eof (by decide)) (readsFirst bound fits unclosed unjoined)
      (untilEnd same)

end

/-- By induction on the derivation. -/
theorem readsPhrase_of_derives {phrase : Phrase} {trees : phrase.Tree}
    (derives : Derives phrase tokens trees rest) (short : Short tokens) :
    ReadsPhrase phrase tokens trees rest := by
  induction derives with
  | @tighter level _ _ _ _ ih =>
    intro bound surroundings fits below under other
    exact ih short bound surroundings fits (Nat.lt_of_lt_of_le below level.floor_le_tighter)
      (Nat.le_trans under level.ceiling_le_tighter) other
  | binary first joins second ihFirst ihSecond =>
    exact readsPhrase_binary first joins second (ihFirst short) (ihSecond (short.past first))
  | unary sign inner ih =>
    exact readsPhrase_unary sign inner (ih (short.suffix (List.suffix_cons _ _)))
  | call first opens second closes ihFirst ihSecond =>
    exact readsPhrase_call first opens second closes (ihFirst short) (ihSecond (short.past first))
  | index first opens second closes ihFirst ihSecond =>
    exact readsPhrase_index first opens second closes (ihFirst short) (ihSecond (short.past first))
  | slice first opens second divides third closes ihFirst ihSecond ihThird =>
    exact readsPhrase_slice first opens second divides third closes (ihFirst short)
      (ihSecond (short.past first)) (ihThird ((short.past first).past second))
  | identifier kind | string kind | truth kind | falsehood kind =>
    refine read_of_operand (Nat.le_succ _) fun bound _ _ _ => .bind (.take _ _) ?_
    simp only [kind]
    exact .pure _ _
  | integer kind fits => exact readsPhrase_integer kind short fits
  | group opens inner closes ih =>
    exact readsPhrase_group opens inner closes (ih (short.suffix (List.suffix_cons _ _)))
  | conditional kind opens first closes second third ihFirst ihSecond ihThird =>
    have short := short.suffix ((List.suffix_cons _ _).trans (List.suffix_cons _ _))
    have short' := short.past first
    exact readsPhrase_conditional kind opens first closes second third (ihFirst short)
      (ihSecond short') (ihThird (short'.suffix second.suffix))
  | function kind opens first closes second ihFirst ihSecond =>
    have short := short.suffix ((List.suffix_cons _ _).trans (List.suffix_cons _ _))
    exact readsPhrase_function kind opens first closes second (ihFirst short)
      (ihSecond (short.past first))
  | array opens inner closes ih =>
    exact readsPhrase_array opens inner closes (ih (short.suffix (List.suffix_cons _ _)))
  | hash opens inner closes ih =>
    exact readsPhrase_hash opens inner closes (ih (short.suffix (List.suffix_cons _ _)))
  | noItems =>
    rintro bound limit closing token more - - rfl closes -
    exact reads_expressions_nil closes
  | someItems inner ih => exact readsPhrase_row inner (ih short)
  | item inner ih => exact readsPhrase_item (ih short)
  | moreItems first divides second ihFirst ihSecond =>
    exact readsPhrase_moreItems first divides (ihFirst short) (ihSecond (short.past first))
  | noPairs => exact fun bound limit _ _ closes => reads_pairs_nil limit closes
  | pair first divides second ihFirst ihSecond =>
    exact readsPhrase_pair first divides (ihFirst short) (ihSecond (short.past first))
  | morePairs first divides second separates third ihFirst ihSecond ihThird =>
    have short' := short.past first
    exact readsPhrase_morePairs first divides second separates (ihFirst short) (ihSecond short')
      (ihThird (short'.past second))
  | noParameters =>
    rintro limit token more - rfl closes
    exact reads_parameters_nil closes
  | someParameters inner ih => exact readsPhrase_parameters (ih short)
  | name kind => exact readsPhrase_name kind
  | moreNames kind divides inner ih =>
    have short := short.suffix ((List.suffix_cons _ _).trans (List.suffix_cons _ _))
    exact readsPhrase_moreNames kind divides (ih short)
  | noBound => exact fun bound _ _ => .inl ⟨rfl, rfl⟩
  | someBound inner ih => exact readsPhrase_bound inner (ih short)
  | block opens inner closes ih =>
    exact readsPhrase_block opens closes (ih (short.suffix (List.suffix_cons _ _)))
  | noAlternative => exact fun bound limit _ _ => .inl ⟨rfl, rfl⟩
  | someAlternative kind inner ih =>
    intro bound limit fits fits'
    simp only [List.length_cons] at fits fits'
    exact .inr ⟨_, _, _, rfl, rfl, kind,
      ih (short.suffix (List.suffix_cons _ _)) bound limit (by omega) (by omega)⟩
  | binding kind named assigns inner ends ih =>
    intro bound fits other other'
    have short := short.suffix ((List.suffix_cons _ _).trans
      ((List.suffix_cons _ _).trans (List.suffix_cons _ _)))
    simp only [List.length_cons] at fits
    exact reads_binding kind named assigns (reads_last (ih short) (by omega) ends other') ends
      fun _ => other
  | giveBack kind inner ends ih =>
    intro bound fits other other'
    have short := short.suffix (List.suffix_cons _ _)
    have given : [.semicolon, .rightBrace, .eof] ⊆ [TokenKind.rightParen, .rightBracket,
      .rightBrace, .colon, .semicolon, .eof] := by decide
    exact reads_giveBack kind (fun listed => ne_of_mem_starters inner.opens (given listed) rfl)
      (reads_last (ih short) (Nat.lt_of_succ_lt fits) ends other') ends fun _ => other
  | giveBackNothing kind ends =>
    exact fun bound _ other _ => reads_giveBackNothing kind ends fun _ => other
  | expression inner ends ih =>
    intro bound fits other other'
    exact reads_expression inner.opens (reads_last (ih short) fits ends other') ends fun _ => other
  | noStatements =>
    intro bound limit _ fits'
    constructor
    · intro token more same closes
      subst same
      obtain ⟨limit, rfl⟩ : ∃ fewer, limit = fewer + 1 :=
        ⟨limit - 1, by simp only [List.length_cons] at fits'; omega⟩
      exact reads_untilBrace_nil closes
    · intro same
      subst same
      exact reads_untilEnd_nil limit
  | moreStatements first second ihFirst ihSecond =>
    exact readsPhrase_moreStatements first second (ihFirst short)
      (ihSecond (short.suffix first.suffix))
  | program => trivial

end Reading

/-- The statements that the grammar derives are read from their tokens, without any problem. -/
theorem parseTokens_of_derives {tokens : List Token} {statements : List Statement}
    (derives : Derives .statements tokens statements []) (short : Short tokens) (ending : Token) :
    parseTokens (tokens ++ [ending]) = ⟨⟨statements⟩, [], false⟩ := by
  obtain ⟨-, untilEnd⟩ := Reading.readsPhrase_of_derives derives short (tokens.length + 1)
    tokens.length (Nat.lt_succ_self _) (Nat.le_refl _)
  have read := untilEnd rfl (Stream.ofTokens (tokens ++ [ending]))
  have stream : Stream.ofTokens (tokens ++ [ending]) = ⟨tokens, ending.position, [], false⟩ := by
    simp [Stream.ofTokens]
  rw [stream] at read
  unfold parseTokens Reading.program
  rw [stream]
  simp only [Stream.leaving] at read
  simp only [read]
  rfl

end Monkey

import Monkey.Proofs.Completion
import Monkey.Proofs.Reading.Bounds

/-!
Where the first problem is noted. It is about a token that was looked at and not taken; the tokens
before it can be completed, and what comes after it was not looked at. A reader fails its tokens
well if, unless there is no problem at the end, the first one is of that kind. Parts of a reader
that are read without a problem are explained by the grammar.
-/

namespace Monkey.Reading

/-- Two streams of the same tokens up to and with one of them, and with the same problems. -/
def Twins (token : Token) (after others : List Token) (stream twin : Stream) : Prop :=
  ∃ used, stream.ahead = used ++ token :: after ∧ twin.ahead = used ++ token :: others ∧
    twin.problems = stream.problems

section
variable {α β : Type} {token : Token} {after others tokens : List Token} {stream twin : Stream}

theorem Twins.next_eq (twins : Twins token after others stream twin) : twin.next = stream.next := by
  obtain ⟨used, ahead, ahead', -⟩ := twins
  unfold Stream.next
  rw [ahead, ahead']
  cases used <;> rfl

/-- As long as the token is not taken, a reader goes the same way from both. -/
theorem Composed.steady {reader : Reading α} (composed : Composed reader)
    (twins : Twins token after others stream twin)
    (kept : token :: after <:+ (reader stream).2.ahead) :
    (reader twin).1 = (reader stream).1 ∧
      Twins token after others (reader stream).2 (reader twin).2 := by
  induction composed generalizing stream twin with
  | pure | fail => exact ⟨rfl, twins⟩
  | peek => exact ⟨congrArg some twins.next_eq, twins⟩
  | note problem =>
    obtain ⟨used, ahead, ahead', problems⟩ := twins
    exact ⟨rfl, used, ahead, ahead', congrArg (problem :: ·) problems⟩
  | refuse => exact ⟨rfl, twins⟩
  | take =>
    have same := twins.next_eq
    obtain ⟨used, ahead, ahead', problems⟩ := twins
    cases used with
    | nil =>
      -- The token itself would be taken, and then it is not left.
      have shorter : (token :: after).length ≤ stream.ahead.tail.length := kept.length_le
      rw [ahead] at shorter
      exact absurd shorter (Nat.not_succ_le_self _)
    | cons first used =>
      refine ⟨congrArg some same, used, ?_, ?_, problems⟩
      · change stream.ahead.tail = _
        rw [ahead]
        rfl
      · change twin.ahead.tail = _
        rw [ahead']
        rfl
  | attempt _ ih =>
    obtain ⟨same, later⟩ := ih twins kept
    exact ⟨congrArg some same, later⟩
  | @bind _ _ first next starts goes start further =>
    cases outcome : first stream with
    | mk result later =>
      cases outcome' : first twin with
      | mk result' later' =>
        cases result with
        | none =>
          rw [bind_none outcome] at kept ⊢
          have reached := start twins (by rwa [outcome])
          rw [outcome, outcome'] at reached
          obtain ⟨rfl, twins'⟩ := reached
          rw [bind_none outcome']
          exact ⟨rfl, twins'⟩
        | some value =>
          rw [bind_some outcome] at kept ⊢
          have step : Composed (next value) := goes value
          have suffix := ahead_suffix (next value) later
          have reached := start twins (by rw [outcome]; exact kept.trans suffix)
          rw [outcome, outcome'] at reached
          obtain ⟨rfl, twins'⟩ := reached
          rw [bind_some outcome']
          exact further value twins' kept

end

theorem finish_eq {α : Type} (reader : Reading α) [composed : Composed reader] (stream : Stream) :
    (reader stream).2.finish = stream.finish :=
  composed.invariant (fun first second => second.finish = first.finish) (fun _ => rfl)
    (fun _ _ _ first second => second.trans first) (fun _ => rfl) (fun _ _ => rfl) (fun _ => rfl)
    stream

/-- The first problem is about the first of the tokens that are left, or about the end if none are,
and nothing after that token was looked at. -/
structure StopsAt {α : Type} (reader : Reading α) (left : List Token) (stream : Stream)
    (problem : Problem) : Prop where
  suffix : left <:+ stream.ahead
  first : (reader stream).2.problems.getLast? = some problem
  place : problem.place = (stream.leaving left).next.position
  early : ∀ token after others twin, left = token :: after → Twins token after others stream twin →
    (reader twin).2.problems.getLast? = some problem

/-- If there is a problem at the end, then the first one was noted where the tokens left over are as
`bad` says. -/
def Fails {α : Type} (reader : Reading α) (tokens : List Token) (bad : List Token → Prop) : Prop :=
  ∀ stream : Stream, stream.ahead = tokens → stream.problems = [] →
    (reader stream).2.problems ≠ [] → ∃ left problem, bad left ∧ StopsAt reader left stream problem

/-- Problems that come later do not hide the first. -/
theorem getLast?_of_suffix {first second : List Problem} {problem : Problem}
    (suffix : first <:+ second) (last : first.getLast? = some problem) :
    second.getLast? = some problem := by
  obtain ⟨later, rfl⟩ := suffix
  rw [List.getLast?_append, last]
  rfl

section
variable {kind : TokenKind} {tokens : List Token}

theorem explains_take {token : Token} :
    Explains take (token :: tokens) fun found rest => found = token ∧ rest = tokens := by
  intro stream ahead _
  refine ⟨stream.next, rfl, ?_, ?_⟩
  · rw [Stream.next, ahead, List.headD_cons]
  · change stream.ahead.tail = tokens
    rw [ahead, List.tail_cons]

theorem explains_expect (inside : kind ≠ .eof) :
    Explains (expect kind) tokens fun token rest => tokens = token :: rest ∧ token.kind = kind := by
  refine Explains.peek fun next shown => ?_
  split
  · rename_i found
    cases tokens with
    | nil => exact absurd (found.symm.trans shown) inside
    | cons token rest =>
      apply explains_take.mono
      rintro _ _ ⟨rfl, rfl⟩
      exact ⟨rfl, shown.symm.trans found⟩
  · exact .note _ _

theorem explains_takeIf (inside : kind ≠ .eof) :
    Explains (takeIf kind) tokens fun found rest =>
      (found = true ∧ ∃ token, tokens = token :: rest ∧ token.kind = kind) ∨
        (found = false ∧ rest = tokens ∧ following tokens ≠ kind) := by
  refine Explains.peek fun next shown => ?_
  split
  · rename_i found
    cases tokens with
    | nil => exact absurd (found.symm.trans shown) inside
    | cons token rest => exact .take (.pure (.inl ⟨rfl, token, rfl, shown.symm.trans found⟩))
  · rename_i other
    exact .pure (.inr ⟨rfl, rfl, shown ▸ other⟩)

end

namespace Fails

variable {α β : Type} {tokens : List Token} {bad : List Token → Prop}

theorem mono {reader : Reading α} {worse : List Token → Prop} (fails : Fails reader tokens bad)
    (widens : ∀ left, bad left → worse left) : Fails reader tokens worse := by
  intro stream ahead clean noted
  obtain ⟨left, problem, found, stops⟩ := fails stream ahead clean noted
  exact ⟨left, problem, widens left found, stops⟩

/-- A reader that notes nothing does not fail. -/
theorem quiet {reader : Reading α} (silent : ∀ stream : Stream, stream.ahead = tokens →
    (reader stream).2.problems = stream.problems) : Fails reader tokens bad :=
  fun stream ahead clean noted => absurd ((silent stream ahead).trans clean) noted

theorem pure (value : α) : Fails (Pure.pure value) tokens bad := quiet fun _ _ => rfl

/-- A reader that finds fault with the next token. -/
theorem noted {reader : Reading α} (problem : Token → Problem)
    (placed : ∀ token, (problem token).place = token.position)
    (notes : ∀ stream : Stream, stream.ahead.head? = tokens.head? →
      (reader stream).2.problems = problem stream.next :: stream.problems)
    (begun : bad tokens) : Fails reader tokens bad := by
  intro stream ahead clean _
  subst ahead
  refine ⟨stream.ahead, problem stream.next, begun, List.suffix_rfl, ?_, placed _, ?_⟩
  · rw [notes stream rfl, clean]
    rfl
  · intro token after others twin same twins
    have next := twins.next_eq
    obtain ⟨used, ahead, ahead', problems⟩ := twins
    obtain rfl : used = [] := List.append_cancel_right (same.symm.trans ahead).symm
    rw [notes twin (by rw [ahead, ahead']; rfl), problems, clean, next]
    rfl

theorem bind {first : Reading α} {next : α → Reading β} {middle : α → List Token → Prop}
    [composed : Composed first] [∀ value, Composed (next value)] (start : Fails first tokens bad)
    (read : Explains first tokens middle)
    (further : ∀ value rest, middle value rest → Fails (next value) rest bad) :
    Fails (first >>= next) tokens bad := by
  intro stream ahead clean noted
  by_cases clear : (first stream).2.problems = []
  · -- The problem is one of the second part. The first does not take the token it is about, so from
    -- a twin it reads the same and leaves a twin.
    obtain ⟨value, given, fit⟩ := read stream ahead clear
    have outcome : first stream = (some value, (first stream).2) := Prod.ext given rfl
    rw [bind_some outcome] at noted
    obtain ⟨left, problem, found, stops⟩ := further value _ fit _ rfl clear noted
    have suffix := stops.suffix
    refine ⟨left, problem, found, suffix.trans (ahead_suffix first stream), ?_, ?_, ?_⟩
    · rw [bind_some outcome]
      exact stops.first
    · have place := stops.place
      unfold Stream.leaving at place ⊢
      unfold Stream.next at place ⊢
      rwa [finish_eq first stream] at place
    · intro token after others twin same twins
      obtain ⟨given', twins'⟩ := composed.steady twins (same ▸ suffix)
      have outcome' : first twin = (some value, (first twin).2) := Prod.ext (given'.trans given) rfl
      rw [bind_some outcome']
      exact stops.early token after others _ same twins'
  · -- The problem is one of the first part, and the second can only add others.
    obtain ⟨left, problem, found, stops⟩ := start stream ahead clean clear
    have later (stream : Stream) (last : (first stream).2.problems.getLast? = some problem) :
        ((first >>= next) stream).2.problems.getLast? = some problem :=
      getLast?_of_suffix (problems_suffix_bind first next stream) last
    refine ⟨left, problem, found, stops.suffix, later stream stops.first, stops.place, ?_⟩
    exact fun token after others twin same twins =>
      later twin (stops.early token after others twin same twins)

theorem map {change : α → β} {reader : Reading α} [Composed reader]
    {fits : α → List Token → Prop} (inner : Fails reader tokens bad)
    (read : Explains reader tokens fits) : Fails (change <$> reader) tokens bad := by
  change Fails (reader >>= fun value => Pure.pure (change value)) tokens bad
  exact inner.bind read fun value _ _ => pure (change value)

theorem attempt {reader : Reading α} (inner : Fails reader tokens bad) :
    Fails (Reading.attempt reader) tokens bad := by
  intro stream ahead clean noted
  obtain ⟨left, problem, found, stops⟩ := inner stream ahead clean noted
  exact ⟨left, problem, found, stops.suffix, stops.first, stops.place, stops.early⟩

theorem peek {next : Token → Reading β}
    (further : ∀ token, token.kind = following tokens → Fails (next token) tokens bad) :
    Fails (Reading.peek >>= next) tokens bad := by
  intro stream ahead clean noted
  obtain ⟨left, problem, found, stops⟩ :=
    further stream.next (ahead ▸ stream.next_kind) stream ahead clean noted
  refine ⟨left, problem, found, stops.suffix, stops.first, stops.place, ?_⟩
  intro token after others twin same twins
  have early := stops.early token after others twin same twins
  rwa [← twins.next_eq] at early

theorem take {next : Token → Reading β} {token : Token}
    (further : Fails (next token) tokens bad) :
    Fails (Reading.take >>= next) (token :: tokens) bad := by
  intro stream ahead clean noted
  obtain rfl : stream.next = token := by rw [Stream.next, ahead, List.headD_cons]
  have tail : stream.ahead.tail = tokens := by rw [ahead, List.tail_cons]
  obtain ⟨left, problem, found, stops⟩ :=
    further { stream with ahead := stream.ahead.tail } tail clean noted
  have suffix : left <:+ stream.ahead.tail := stops.suffix
  refine ⟨left, problem, found, suffix.trans (List.tail_suffix _), stops.first, stops.place, ?_⟩
  intro token after others twin same twins
  obtain ⟨-, twins'⟩ := Composed.take.steady twins (same ▸ suffix)
  have early := stops.early token after others _ same twins'
  rwa [← twins.next_eq] at early

theorem expect {kind : TokenKind} {next : Token → Reading β} [∀ token, Composed (next token)]
    (inside : kind ≠ .eof) (missing : bad tokens) (further : ∀ token rest, tokens = token :: rest →
      token.kind = kind → Fails (next token) rest bad) :
    Fails (Reading.expect kind >>= next) tokens bad := by
  refine bind ?_ (explains_expect inside) fun token rest read => further token rest read.1 read.2
  by_cases found : following tokens = kind
  · refine quiet fun stream ahead => ?_
    have chosen : Reading.expect kind stream = Reading.take stream :=
      congrFun (if_pos ((ahead ▸ stream.next_kind).trans found)) stream
    rw [chosen]
    rfl
  · refine noted (fun token => .unexpected kind token.kind token.position) (fun _ => rfl)
      (fun stream same => ?_) missing
    have shown : stream.next.kind = following tokens := by
      rw [stream.next_kind, following, following, same]
    have chosen : Reading.expect kind stream = (none, { stream with
        problems := .unexpected kind stream.next.kind stream.next.position :: stream.problems }) :=
      congrFun (if_neg (shown ▸ found)) stream
    rw [chosen]

theorem takeIf {kind : TokenKind} {next : Bool → Reading β} [∀ found, Composed (next found)]
    (inside : kind ≠ .eof)
    (taken : ∀ token rest, tokens = token :: rest → token.kind = kind →
      Fails (next true) rest bad)
    (left : following tokens ≠ kind → Fails (next false) tokens bad) :
    Fails (Reading.takeIf kind >>= next) tokens bad := by
  refine bind (quiet fun stream _ => ?_) (explains_takeIf inside) fun found rest read => ?_
  · by_cases found : stream.next.kind = kind
    · have chosen : Reading.takeIf kind stream =
          (some true, { stream with ahead := stream.ahead.tail }) := congrFun (if_pos found) stream
      rw [chosen]
    · have chosen : Reading.takeIf kind stream = (some false, stream) :=
        congrFun (if_neg found) stream
      rw [chosen]
  · rcases read with ⟨rfl, token, same, shown⟩ | ⟨rfl, rfl, other⟩
    · exact taken token rest same shown
    · exact left other

end Fails

/-- What is left over where an expression fails: up to there it is the beginning of one. -/
def Broken (surroundings : Precedence) (tokens left : List Token) : Prop :=
  ∃ level : Level, surroundings.rank < level.floor ∧ Begins (.expression level) tokens left

/-- The reader of expressions fails well on all tokens that it is given enough bound for. -/
def FailsExpressions (bound : Nat) : Prop :=
  ∀ (surroundings : Precedence) (tokens : List Token), surroundings.rank < Level.chain.floor →
    tokens.length < bound → Short tokens →
    Fails (expression bound surroundings) tokens (Broken surroundings tokens)

section
variable {bound limit : Nat} {tokens : List Token}

theorem FailsExpressions.lowest (failing : FailsExpressions bound)
    (fits : tokens.length < bound) (short : Short tokens) :
    Fails (expression bound .lowest) tokens (Begins (.expression .equality) tokens) := by
  apply (failing .lowest tokens (by decide) fits short).mono
  intro left broken
  obtain ⟨level, -, begins⟩ := broken
  exact begins.loosen level.equality_le

/-! Rows between brackets. -/

theorem fails_moreExpressions (sound : ExplainsExpressions bound)
    (failing : FailsExpressions bound) (enough : tokens.length ≤ limit)
    (fits : tokens.length < bound) (short : Short tokens) {before : List Token} {first : Expr}
    (start : Derives (.expression .equality) before first tokens) :
    Fails (moreExpressions (expression bound .lowest) limit) tokens (Begins .items before) := by
  induction limit generalizing tokens before first with
  | zero => exact .pure []
  | succ limit ih =>
    refine .takeIf (by decide) ?_ fun _ => .pure []
    intro comma more same divides
    subst same
    simp only [List.length_cons] at enough fits
    have short := short.suffix (List.suffix_cons _ _)
    refine .bind ((failing.lowest (by omega) short).mono fun left begins => ?_)
      (sound.lowest (by omega) short) ?_
    · exact .moreItems start divides begins.items
    intro second middle read
    obtain ⟨derives, _⟩ := read
    have shorter := derives.length_le
    refine .bind ((ih (by omega) (by omega) (short.suffix derives.suffix) derives).mono
      fun left begins => .moreItems start divides begins)
      (explains_moreExpressions sound (by omega) (by omega) (short.suffix derives.suffix))
      fun _ _ _ => .pure _

theorem fails_expressions (sound : ExplainsExpressions bound) (failing : FailsExpressions bound)
    {closing : TokenKind} (inside : closing ≠ .eof) (enough : tokens.length ≤ limit)
    (fits : tokens.length < bound) (short : Short tokens) :
    Fails (expressions limit (expression bound .lowest) closing) tokens (Begins .row tokens) := by
  refine .takeIf inside (fun _ _ _ _ => .pure []) fun _ => ?_
  refine .bind ((failing.lowest fits short).mono fun left begins => begins.items.row)
    (sound.lowest fits short) ?_
  intro first middle read
  obtain ⟨derives, _⟩ := read
  have shorter := derives.length_le
  have short := short.suffix derives.suffix
  refine .bind ((fails_moreExpressions sound failing (by omega) (by omega) short derives).mono
    fun left begins => begins.row) (explains_moreExpressions sound (by omega) (by omega) short) ?_
  intro others rest more
  have whole := Derives.someItems (more tokens first derives)
  exact .expect inside (.whole whole trivial) fun _ _ _ _ => .pure _

theorem fails_pairs (sound : ExplainsExpressions bound) (failing : FailsExpressions bound)
    (enough : tokens.length ≤ limit) (fits : tokens.length < bound) (short : Short tokens) :
    Fails (pairs (expression bound .lowest) limit) tokens (Begins .pairs tokens) := by
  induction limit generalizing tokens with
  | zero => exact .pure []
  | succ limit ih =>
    refine .peek fun next _ => ?_
    split
    · exact .pure []
    refine .bind ((failing.lowest fits short).mono fun left begins => begins.key)
      (sound.lowest fits short) ?_
    intro key middle read
    obtain ⟨first, _⟩ := read
    refine .expect (by decide) (.key (.whole first trivial)) ?_
    intro colon middle same divides
    subst same
    have shorter := first.length_le
    have short := short.past first
    simp only [List.length_cons] at shorter
    refine .bind ((failing.lowest (by omega) short).mono fun left begins =>
      .value first divides begins) (sound.lowest (by omega) short) ?_
    intro value later read
    obtain ⟨second, _⟩ := read
    refine .peek fun next _ => ?_
    split
    · exact .pure _
    refine .expect (by decide) (.whole (.pair first divides second) trivial) ?_
    intro comma later same separates
    subst same
    have shorter := second.length_le
    simp only [List.length_cons] at shorter
    have short := short.past second
    exact .bind ((ih (by omega) (by omega) short).mono fun left begins =>
      .morePairs first divides second separates begins)
      (explains_pairs sound (by omega) (by omega) short) fun _ _ _ => .pure _

theorem fails_parameter : Fails parameter tokens (Begins .names tokens) :=
  .expect (by decide) (.names tokens) fun _ _ _ _ => .pure _

theorem fails_moreParameters (enough : tokens.length ≤ limit) {token : Token}
    (kind : token.kind = .ident) :
    Fails (moreParameters limit) tokens (Begins .names (token :: tokens)) := by
  induction limit generalizing tokens token with
  | zero => exact .pure []
  | succ limit ih =>
    refine .takeIf (by decide) ?_ fun _ => .pure []
    intro comma more same divides
    subst same
    refine .bind (fails_parameter.mono fun left begins => .moreNames kind divides begins)
      explains_parameter ?_
    intro result middle read
    obtain ⟨next, rfl, kind', rfl⟩ := read
    simp only [List.length_cons] at enough
    exact .bind ((ih (by omega) kind').mono fun left begins => .moreNames kind divides begins)
      (explains_moreParameters (by omega)) fun _ _ _ => .pure _

theorem fails_parameters (enough : tokens.length ≤ limit) :
    Fails (parameters limit) tokens (Begins .parameters tokens) := by
  refine .takeIf (by decide) (fun _ _ _ _ => .pure []) fun _ => ?_
  refine .bind (fails_parameter.mono fun left begins => begins.parameters) explains_parameter ?_
  intro result middle read
  obtain ⟨first, rfl, kind, rfl⟩ := read
  simp only [List.length_cons] at enough
  refine .bind ((fails_moreParameters (by omega) kind).mono fun left begins => begins.parameters)
    (explains_moreParameters (by omega)) ?_
  intro others rest more
  exact .expect (by decide) (.whole (.someParameters (more first kind)) trivial)
    fun _ _ _ _ => .pure _

/-! Statements and blocks. -/

theorem fails_ending {bad : List Token → Prop} (tree : Statement) :
    Fails (takeIf .semicolon >>= fun _ => pure tree) tokens bad :=
  .takeIf (by decide) (fun _ _ _ _ => .pure tree) fun _ => .pure tree

theorem fails_statement (sound : ExplainsExpressions bound) (failing : FailsExpressions bound)
    (fits : tokens.length < bound) (short : Short tokens) :
    Fails (statement (expression bound .lowest)) tokens (Begins .statement tokens) := by
  refine .peek fun first shown => ?_
  split
  · rename_i kind
    cases tokens with
    | nil => exact absurd (shown.symm.trans kind) (by decide)
    | cons token tokens =>
    have kind : token.kind = .letKeyword := shown.symm.trans kind
    refine .take (.expect (by decide) (.binding kind tokens) ?_)
    intro name tokens same named
    subst same
    refine .expect (by decide) (.bindingName kind named tokens) ?_
    intro assign tokens same assigns
    subst same
    simp only [List.length_cons] at fits
    have short := short.suffix (((List.suffix_cons _ _).trans (List.suffix_cons _ _)).trans
      (List.suffix_cons _ _))
    exact .bind ((failing.lowest (by omega) short).mono fun left begins =>
      .bindingValue kind named assigns begins) (sound.lowest (by omega) short)
      fun _ _ _ => fails_ending _
  · rename_i kind
    cases tokens with
    | nil => exact absurd (shown.symm.trans kind) (by decide)
    | cons token tokens =>
    have kind : token.kind = .returnKeyword := shown.symm.trans kind
    have short := short.suffix (List.suffix_cons _ _)
    refine .take (.peek fun next shown => ?_)
    dsimp only
    split
    · exact fails_ending _
    · exact fails_ending _
    · exact fails_ending _
    · exact .bind (((failing.lowest (Nat.lt_of_succ_lt fits) short).mono fun left begins =>
        begins.giveBack kind).map (sound.lowest (Nat.lt_of_succ_lt fits) short))
        (sound.lowest (Nat.lt_of_succ_lt fits) short).map fun _ _ _ => fails_ending _
  · exact .bind ((failing.lowest fits short).mono fun left begins => begins.statement)
      (sound.lowest fits short) fun _ _ _ => fails_ending _

/-- At the end of the text nothing is missing but the brace. -/
theorem fails_untilBrace (sound : ExplainsExpressions bound) (failing : FailsExpressions bound)
    (enough : tokens.length ≤ limit) (fits : tokens.length < bound) (short : Short tokens) :
    Fails (untilBrace (statement (expression bound .lowest)) limit) tokens
      (Begins .statements tokens) := by
  have missing (tokens : List Token) : Fails untilBrace.missingBrace tokens
      (Begins .statements tokens) :=
    .noted (fun token => .unexpected .rightBrace .eof token.position) (fun _ => rfl)
      (fun _ _ => rfl) (.whole .noStatements (.inr (by decide)))
  induction limit generalizing tokens with
  | zero => exact missing tokens
  | succ limit ih =>
    refine .peek fun next shown => ?_
    split
    · rename_i kind
      cases tokens with
      | nil => exact absurd (shown.symm.trans kind) (by decide)
      | cons token tokens => exact .take (.pure [])
    · exact missing tokens
    · refine .bind ((fails_statement sound failing fits short).attempt.mono fun left begins =>
        begins.statements) (explains_statement sound fits short).attempt ?_
      intro result middle read
      obtain ⟨tree, rfl, first⟩ := read
      have shorter := first.length_lt rfl
      have short := short.suffix first.suffix
      exact .bind ((ih (by omega) (by omega) short).mono fun left begins =>
        .moreStatements first begins) (explains_untilBrace sound (by omega) (by omega) short)
        fun _ _ _ => .pure _

theorem fails_untilEnd (sound : ExplainsExpressions bound) (failing : FailsExpressions bound)
    (enough : tokens.length ≤ limit) (fits : tokens.length < bound) (short : Short tokens)
    (inside : ∀ token ∈ tokens, token.kind ≠ .eof) :
    Fails (untilEnd (statement (expression bound .lowest)) limit) tokens
      (Begins .statements tokens) := by
  induction limit generalizing tokens with
  | zero => exact .pure []
  | succ limit ih =>
    refine .peek fun next shown => ?_
    split
    · exact .pure []
    · refine .bind ((fails_statement sound failing fits short).attempt.mono fun left begins =>
        begins.statements) (explains_statement sound fits short).attempt ?_
      intro result middle read
      obtain ⟨tree, rfl, first⟩ := read
      have shorter := first.length_lt rfl
      have short := short.suffix first.suffix
      have inside (token : Token) (member : token ∈ middle) : token.kind ≠ .eof :=
        inside token (first.suffix.subset member)
      exact .bind ((ih (by omega) (by omega) short inside).mono fun left begins =>
        .moreStatements first begins) (explains_untilEnd sound (by omega) (by omega) short inside)
        fun _ _ _ => .pure _

theorem fails_block (sound : ExplainsExpressions bound) (failing : FailsExpressions bound)
    (enough : tokens.length ≤ limit) (fits : tokens.length < bound) (short : Short tokens) :
    Fails (block limit (expression bound .lowest)) tokens (Begins .block tokens) := by
  refine .expect (by decide) (.block tokens) ?_
  intro opening tokens same opens
  subst same
  simp only [List.length_cons] at enough fits
  have short := short.suffix (List.suffix_cons _ _)
  exact .bind ((fails_untilBrace sound failing (by omega) (by omega) short).mono
    fun left begins => .inside opens begins)
    (explains_untilBrace sound (by omega) (by omega) short) fun _ _ _ => .pure _

/-! Expressions. -/

theorem fails_conditional (sound : ExplainsExpressions bound) (failing : FailsExpressions bound)
    {token : Token} (kind : token.kind = .ifKeyword) (enough : tokens.length ≤ limit)
    (fits : tokens.length < bound) (short : Short tokens) :
    Fails (conditional limit (expression bound .lowest) token) tokens
      (Begins (.expression .chain) (token :: tokens)) := by
  refine .expect (by decide) (.conditional kind tokens) ?_
  intro opening tokens same opens
  subst same
  simp only [List.length_cons] at enough fits
  have short := short.suffix (List.suffix_cons _ _)
  refine .bind ((failing.lowest (by omega) short).mono fun left begins =>
    .condition kind opens begins) (sound.lowest (by omega) short) ?_
  intro condition middle read
  obtain ⟨first, _⟩ := read
  refine .expect (by decide) (.condition kind opens (.whole first trivial)) ?_
  intro closing middle same closes
  subst same
  have shorter := first.length_le
  have short := short.past first
  simp only [List.length_cons] at shorter
  refine .bind ((fails_block sound failing (by omega) (by omega) short).mono fun left begins =>
    .consequence kind opens first closes begins)
    (explains_block sound (by omega) (by omega) short) ?_
  intro yes later second
  have shorter' := second.length_le
  have short := short.suffix second.suffix
  refine .takeIf (by decide) ?_ fun _ => .pure _
  intro otherwise inner same kind'
  subst same
  simp only [List.length_cons] at shorter'
  have short := short.suffix (List.suffix_cons _ _)
  exact .bind ((fails_block sound failing (by omega) (by omega) short).mono fun left begins =>
    .otherwise kind opens first closes second (.alternative kind' begins))
    (explains_block sound (by omega) (by omega) short) fun _ _ _ => .pure _

theorem fails_function (sound : ExplainsExpressions bound) (failing : FailsExpressions bound)
    {token : Token} (kind : token.kind = .fnKeyword) (enough : tokens.length ≤ limit)
    (fits : tokens.length < bound) (short : Short tokens) :
    Fails (function limit (expression bound .lowest) token) tokens
      (Begins (.expression .chain) (token :: tokens)) := by
  refine .expect (by decide) (.function kind tokens) ?_
  intro opening tokens same opens
  subst same
  simp only [List.length_cons] at enough fits
  have short := short.suffix (List.suffix_cons _ _)
  refine .bind ((fails_parameters (by omega)).mono fun left begins => .head kind opens begins)
    (explains_parameters (by omega)) ?_
  intro names middle read
  obtain ⟨closing, closes, first⟩ := read
  have shorter := first.length_le
  simp only [List.length_cons] at shorter
  have short := short.past first
  exact .bind ((fails_block sound failing (by omega) (by omega) short).mono fun left begins =>
    .body kind opens first closes begins)
    (explains_block sound (by omega) (by omega) short) fun _ _ _ => .pure _

theorem fails_slice (sound : ExplainsExpressions bound) (failing : FailsExpressions bound)
    {left : Expr} {lower : Option Expr} {opening colon : Token} {before middle : List Token}
    (first : Derives (.expression .chain) before left (opening :: middle))
    (opens : opening.kind = .leftBracket) (second : Derives .bound middle lower (colon :: tokens))
    (divides : colon.kind = .colon) (fits : tokens.length < bound) (short : Short tokens) :
    Fails (slice (expression bound .lowest) opening left lower) tokens
      (Begins (.expression .chain) before) := by
  have ending {upper : Option Expr} {later : List Token}
      (third : Derives .bound tokens upper later) :
      Fails (expect .rightBracket >>= fun _ => pure (Expr.slice opening left lower upper)) later
        (Begins (.expression .chain) before) :=
    .expect (by decide) (.slice first opens second divides (.whole third trivial))
      fun _ _ _ _ => .pure _
  refine .peek fun next _ => ?_
  split
  · exact ending .noBound
  · refine .bind (((failing.lowest fits short).mono fun left begins =>
      .slice first opens second divides begins.bound).map (sound.lowest fits short))
      (sound.lowest fits short).map ?_
    intro result later read
    obtain ⟨upper, rfl, third, -⟩ := read
    exact ending (.someBound third)

theorem fails_indexOrSlice (sound : ExplainsExpressions bound) (failing : FailsExpressions bound)
    {left : Expr} {opening : Token} {before : List Token}
    (first : Derives (.expression .chain) before left (opening :: tokens))
    (opens : opening.kind = .leftBracket) (fits : tokens.length < bound) (short : Short tokens) :
    Fails (indexOrSlice (expression bound .lowest) opening left) tokens
      (Begins (.expression .chain) before) := by
  refine .takeIf (by decide) ?_ fun _ => ?_
  · intro colon later same divides
    subst same
    exact fails_slice sound failing first opens .noBound divides (Nat.lt_of_succ_lt fits)
      (short.suffix (List.suffix_cons _ _))
  refine .bind ((failing.lowest fits short).mono fun left begins => .index first opens begins)
    (sound.lowest fits short) ?_
  intro position middle read
  obtain ⟨second, _⟩ := read
  have shorter := second.length_le
  refine .takeIf (by decide) ?_ fun _ => ?_
  · intro colon later same divides
    subst same
    simp only [List.length_cons] at shorter
    exact fails_slice sound failing first opens (.someBound second) divides (by omega)
      (short.past second)
  · exact .expect (by decide) (.index first opens (.whole second trivial)) fun _ _ _ _ => .pure _

/-- A row of digits is at fault itself if its number does not fit. -/
theorem fails_integer {bad : List Token → Prop} {expression : Precedence → Reading Expr}
    {token : Token} (kind : token.kind = .int) (digits : token.literal.length ≤ maxDigits)
    (begun : bad (token :: tokens)) :
    Fails (operand limit expression) (token :: tokens) bad := by
  have next {stream : Stream} (same : stream.ahead.head? = (token :: tokens).head?) :
      stream.next = token := by
    rw [Stream.next, List.headD_eq_head?_getD, same]
    rfl
  have read {stream : Stream} (same : stream.ahead.head? = (token :: tokens).head?) :
      operand limit expression stream =
        integer stream.next { stream with ahead := stream.ahead.tail } :=
    operand_of_int limit expression (by rw [next same, kind])
  by_cases large : Nat.ofDigitChars 10 token.literal.toList 0 > maxInteger
  · refine .noted (fun token => .integerTooLarge token.literal token.position) (fun _ => rfl)
      (fun stream same => ?_) begun
    rw [read same, next same, integer_of_large digits large]
    rfl
  · refine .quiet fun stream same => ?_
    have same : stream.ahead.head? = (token :: tokens).head? := by rw [same]
    rw [read same, next same, integer_of_fits digits (Nat.le_of_not_lt large)]
    rfl

theorem operand_of_other (limit : Nat) (expression : Precedence → Reading Expr) {stream : Stream}
    (other : stream.next.kind ∉ starters) :
    operand limit expression stream = (none, { stream with
      ahead := stream.ahead.tail
      problems := .noExpression stream.next.kind stream.next.position :: stream.problems }) := by
  unfold operand
  refine (bind_some rfl).trans ?_
  cases kind : stream.next.kind <;> rw [kind] at other <;> first
    | exact absurd other (by decide)
    | rfl

theorem fails_operand (sound : ExplainsExpressions bound) (failing : FailsExpressions bound)
    (fits : tokens.length ≤ bound) (short : Short tokens) :
    Fails (operand bound (expression bound)) tokens fun left =>
      ∃ level : Level, level.floor = Level.chain.floor ∧
        Begins (.expression level) tokens left := by
  have missing : ∃ level : Level, level.floor = Level.chain.floor ∧
      Begins (.expression level) tokens tokens := ⟨.chain, rfl, .missing .chain tokens⟩
  by_cases starts : following tokens ∉ starters
  · refine .noted (fun token => .noExpression token.kind token.position) (fun _ => rfl)
      (fun stream same => ?_) missing
    have other : stream.next.kind ∉ starters := by
      rwa [stream.next_kind, following, same]
    rw [operand_of_other bound (expression bound) other]
  cases tokens with
  | nil => exact absurd (show following [] ∉ starters by decide) starts
  | cons token tokens =>
  rw [following_cons] at starts
  by_cases digits : token.kind = .int
  · exact fails_integer digits (short token List.mem_cons_self digits) missing
  have short' := short.suffix (List.suffix_cons _ _)
  have fits' := Nat.le_of_succ_le fits
  have chain {left : List Token} (begins : Begins (.expression .chain) (token :: tokens) left) :
      ∃ level : Level, level.floor = Level.chain.floor ∧
        Begins (.expression level) (token :: tokens) left := ⟨.chain, rfl, begins⟩
  have sign (signed : token.kind = .bang ∨ token.kind = .minus) :
      Fails (expression bound .sign >>= fun right =>
          pure (Expr.unary token (.ofText token.literal) right)) tokens fun left =>
        ∃ level : Level, level.floor = Level.chain.floor ∧
          Begins (.expression level) (token :: tokens) left := by
    refine .bind ((failing .sign tokens (by decide) fits short').mono fun left broken => ?_)
      (sound .sign tokens (by decide) fits short') fun _ _ _ => .pure _
    obtain ⟨level, room, begins⟩ := broken
    have looser : Level.sign.ceiling ≤ level.ceiling := by
      cases level <;> revert room <;> decide
    exact ⟨.sign, rfl, .unary signed (begins.loosen looser)⟩
  apply Fails.take
  split
  · exact .pure _
  · contradiction
  · exact .pure _
  · exact .pure _
  · exact .pure _
  · rename_i kind
    exact sign (.inl kind)
  · rename_i kind
    exact sign (.inr kind)
  · rename_i opens
    refine .bind ((failing.lowest fits short').mono fun left begins => chain (begins.group opens))
      (sound.lowest fits short') ?_
    intro tree middle read
    obtain ⟨inner, _⟩ := read
    exact .expect (by decide) (chain (.group opens (.whole inner trivial))) fun _ _ _ _ => .pure _
  · rename_i kind
    exact (fails_conditional sound failing kind fits' fits short').mono fun _ => chain
  · rename_i kind
    exact (fails_function sound failing kind fits' fits short').mono fun _ => chain
  · rename_i opens
    exact .bind ((fails_expressions sound failing (by decide) fits' fits short').mono
      fun left begins => chain (begins.array opens))
      (explains_expressions sound (by decide) fits' fits short') fun _ _ _ => .pure _
  · rename_i opens
    refine .bind ((fails_pairs sound failing fits' fits short').mono fun left begins =>
      chain (begins.hash opens)) (explains_pairs sound fits' fits short') ?_
    intro pairs middle inner
    exact .expect (by decide) (chain (.hash opens (.whole inner trivial))) fun _ _ _ _ => .pure _
  · exact absurd starts (by simp_all [starters])

/-- One operator, applied to an operand that it binds no more tightly than. -/
theorem fails_operation (sound : ExplainsExpressions bound) (failing : FailsExpressions bound)
    {level : Level} {left : Expr} {token : Token} {before : List Token}
    (first : Derives (.expression level) before left (token :: tokens))
    (binds : token.kind ∈ continuing)
    (under : (Precedence.ofKind token.kind).rank ≤ level.ceiling)
    (fits : tokens.length < bound) (short : Short tokens) :
    Fails (operation bound (expression bound) token left) tokens fun left =>
      ∃ outer : Level, min (Precedence.ofKind token.kind).rank Level.chain.floor ≤ outer.floor ∧
        Begins (.expression outer) before left := by
  have chain (opens : token.kind = .leftParen ∨ token.kind = .leftBracket) : level = .chain := by
    rcases opens with opens | opens <;> rw [opens] at under <;> cases level <;>
      first
        | rfl
        | exact absurd under (by decide)
  have broken {left : List Token} (begins : Begins (.expression .chain) before left) :
      ∃ outer : Level, min (Precedence.ofKind token.kind).rank Level.chain.floor ≤ outer.floor ∧
        Begins (.expression outer) before left := ⟨.chain, Nat.min_le_right _ _, begins⟩
  unfold operation
  split
  · rename_i opens
    obtain rfl := chain (.inl opens)
    exact .bind ((fails_expressions sound failing (by decide) (Nat.le_of_lt fits) fits short).mono
      fun left begins => broken (.call first opens begins))
      (explains_expressions sound (by decide) (Nat.le_of_lt fits) fits short) fun _ _ _ => .pure _
  · rename_i opens
    obtain rfl := chain (.inr opens)
    exact (fails_indexOrSlice sound failing first opens fits short).mono fun _ => broken
  · rename_i unopened unindexed
    obtain ⟨outer, joins⟩ := Level.exists_mem_operators binds unopened unindexed
    obtain ⟨low, high, room⟩ := Level.rank_of_mem_operators joins
    have most := outer.tighter.floor_le
    refine .bind ((failing _ tokens (by omega) fits short).mono fun left broken => ?_)
      (sound _ tokens (by omega) fits short) fun _ _ _ => .pure _
    obtain ⟨inner, tight, begins⟩ := broken
    have looser : outer.tighter.ceiling ≤ inner.ceiling :=
      Level.ceiling_tighter_le (by omega) (List.ne_nil_of_mem joins)
    exact ⟨outer, by omega, .binary (first.loosen (by omega)) joins (begins.loosen looser)⟩

/-- By induction on the operators still to be applied, as for what they are read as. -/
theorem fails_operations (sound : ExplainsExpressions bound) (failing : FailsExpressions bound)
    {surroundings : Precedence} {count : Nat} {left : Expr} {before : List Token}
    (lax : surroundings.rank < Level.chain.floor) (enough : tokens.length ≤ count)
    (fits : tokens.length ≤ bound) (short : Short tokens)
    (read : ∃ level : Level, surroundings.rank < level.floor ∧
      Derives (.expression level) before left tokens ∧
      (Precedence.ofKind (following tokens)).rank ≤ level.ceiling) :
    Fails (operations bound (expression bound) surroundings count left) tokens
      (Broken surroundings before) := by
  induction count generalizing left tokens with
  | zero => exact .pure left
  | succ count ih =>
    obtain ⟨level, tight, derives, under⟩ := read
    refine .peek fun next shown => ?_
    rw [shown]
    split
    · rename_i binds
      have continues : following tokens ∈ continuing := by
        refine Decidable.of_not_not fun stops => ?_
        have loose := rank_of_not_mem_continuing.mp stops
        have low := surroundings.rank_pos
        omega
      cases tokens with
      | nil => exact absurd continues (by decide)
      | cons token tokens =>
      simp only [List.length_cons] at enough fits
      rw [following_cons] at binds continues under
      have short := short.suffix (List.suffix_cons _ _)
      refine .take (.bind ((fails_operation sound failing derives continues under (by omega)
        short).mono fun left broken => ?_)
        (explains_operation sound derives continues under (by omega) short).suffix ?_)
      · obtain ⟨outer, high, begins⟩ := broken
        exact ⟨outer, by omega, begins⟩
      · intro whole rest read
        obtain ⟨suffix, outer, high, derives, under⟩ := read
        have shorter := suffix.length_le
        exact ih (by omega) (by omega) (short.suffix suffix) ⟨outer, by omega, derives, under⟩
    · exact .pure left

theorem fails_expression (bound : Nat) : FailsExpressions bound := by
  induction bound with
  | zero => exact fun _ _ _ fits => absurd fits (Nat.not_lt_zero _)
  | succ bound ih =>
    intro surroundings tokens lax fits short
    have fits := Nat.le_of_lt_succ fits
    have sound := explains_expression bound
    refine .bind ((fails_operand sound ih fits short).mono fun left broken => ?_)
      (explains_operand sound fits short) ?_
    · obtain ⟨level, same, begins⟩ := broken
      exact ⟨level, same ▸ lax, begins⟩
    intro left middle read
    obtain ⟨level, same, derives, under⟩ := read
    have shorter := derives.length_le
    exact fails_operations sound ih lax (by omega) (by omega) (short.suffix derives.suffix)
      ⟨level, by omega, derives, under⟩

/-- Where the first problem of a text is noted, what was read begins a program. -/
theorem fails_text {count : Nat} (enough : tokens.length ≤ count) (short : Short tokens)
    (inside : ∀ token ∈ tokens, token.kind ≠ .eof) :
    Fails (text count) tokens (Begins .statements tokens) :=
  fails_untilEnd (explains_expression (count + 1)) (fails_expression (count + 1)) enough
    (Nat.lt_succ_of_le enough) short inside

end

end Monkey.Reading

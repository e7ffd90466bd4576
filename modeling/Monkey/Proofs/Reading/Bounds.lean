import Monkey.Proofs.Reading.Soundness

/-!
The bounds of the readers are not seen. As long as a bound covers the tokens that are still ahead, a
larger one gives the same result and leaves the same stream. That rests on progress: an expression
or a statement takes at least one token, if there is one.
-/

namespace Monkey.Reading

section
variable {α β : Type}

/-- The reader takes a token, if there is one. -/
def Shrinks (reader : Reading α) : Prop :=
  ∀ stream, stream.ahead ≠ [] → (reader stream).2.ahead.length < stream.ahead.length

theorem shrinks_take : Shrinks take := by
  intro stream more
  obtain ⟨token, rest, ahead⟩ := List.exists_cons_of_ne_nil more
  change stream.ahead.tail.length < stream.ahead.length
  rw [ahead]
  exact Nat.lt_succ_self _

theorem Shrinks.bind {first : Reading α} {next : α → Reading β} (start : Shrinks first)
    (further : ∀ value, Composed (next value)) : Shrinks (first >>= next) := by
  intro stream more
  have shorter := start stream more
  cases outcome : first stream with
  | mk result later =>
    rw [outcome] at shorter
    cases result with
    | none => rwa [bind_none outcome]
    | some value =>
      rw [bind_some outcome]
      exact Nat.lt_of_le_of_lt (ahead_suffix (next value) later).length_le shorter

theorem Shrinks.peek {next : Token → Reading β} (further : ∀ token, Shrinks (next token)) :
    Shrinks (Reading.peek >>= next) := fun stream more => further stream.next stream more

theorem shrinks_expression (bound : Nat) (surroundings : Precedence) :
    Shrinks (expression (bound + 1) surroundings) := by
  have operand : Shrinks (operand bound (expression bound)) := by
    apply shrinks_take.bind
    intro token
    split <;> infer_instance
  exact operand.bind fun _ => inferInstance

theorem shrinks_statement {expression : Reading Expr} [Composed expression]
    (inner : Shrinks expression) : Shrinks (statement expression) := by
  apply Shrinks.peek
  intro first
  split
  · exact shrinks_take.bind fun _ => inferInstance
  · apply shrinks_take.bind
    intro token
    apply Composed.bind .peek
    intro next
    dsimp only
    split <;> infer_instance
  · exact inner.bind fun _ => inferInstance

/-- Two readers do the same on streams of fewer tokens than `size`. -/
def Matches (size : Nat) (first second : Reading α) : Prop :=
  ∀ stream, stream.ahead.length < size → first stream = second stream

/-- The same of streams that are not at the end of the text. -/
def MatchesInside (size : Nat) (first second : Reading α) : Prop :=
  ∀ stream, stream.ahead.length < size → stream.ahead ≠ [] → first stream = second stream

namespace MatchesInside

variable {size : Nat}

/-- Once a token is taken, one fewer is ahead. -/
theorem take {next others : Token → Reading β}
    (further : ∀ token, Matches size (next token) (others token)) :
    MatchesInside (size + 1) (Reading.take >>= next) (Reading.take >>= others) := by
  intro stream fits more
  obtain ⟨token, rest, ahead⟩ := List.exists_cons_of_ne_nil more
  rw [ahead] at fits
  refine further stream.next { stream with ahead := stream.ahead.tail } ?_
  rw [ahead]
  exact Nat.lt_of_succ_lt_succ fits

/-- What comes after a reader that takes a token has fewer tokens ahead. -/
theorem attempt {first second : Reading α} {next others : Option α → Reading β}
    (inner : Matches (size + 1) first second) (shrinks : Shrinks second)
    (further : ∀ result, Matches size (next result) (others result)) :
    MatchesInside (size + 1) (Reading.attempt first >>= next)
      (Reading.attempt second >>= others) := by
  intro stream fits more
  change next (first stream).1 (first stream).2 = others (second stream).1 (second stream).2
  rw [inner stream fits]
  exact further _ _ (Nat.lt_of_lt_of_le (shrinks stream more) (Nat.le_of_lt_succ fits))

end MatchesInside

namespace Matches

variable {size : Nat}

theorem refl (reader : Reading α) : Matches size reader reader := fun _ _ => rfl

theorem mono {smaller : Nat} {first second : Reading α} (matching : Matches size first second)
    (less : smaller ≤ size) : Matches smaller first second :=
  fun stream fits => matching stream (Nat.lt_of_lt_of_le fits less)

theorem bind {first second : Reading α} {next others : α → Reading β} [Composed second]
    (start : Matches size first second)
    (further : ∀ value, Matches size (next value) (others value)) :
    Matches size (first >>= next) (second >>= others) := by
  intro stream fits
  have same := start stream fits
  have shorter := (ahead_suffix second stream).length_le
  cases outcome : second stream with
  | mk result later =>
    rw [outcome] at same shorter
    cases result with
    | none => rw [bind_none same, bind_none outcome]
    | some value =>
      rw [bind_some same, bind_some outcome]
      exact further value later (Nat.lt_of_le_of_lt shorter fits)

theorem map {first second : Reading α} [Composed second] (change : α → β)
    (inner : Matches size first second) : Matches size (change <$> first) (change <$> second) :=
  inner.bind fun _ => .refl _

theorem peek {next others : Token → Reading β}
    (further : ∀ token, Matches size (next token) (others token)) :
    Matches size (Reading.peek >>= next) (Reading.peek >>= others) :=
  fun stream => further stream.next stream

/-- At the end of the text its end is what is peeked at. -/
theorem peek_inside {next others : Token → Reading β}
    (further : ∀ token, MatchesInside size (next token) (others token))
    (ended : ∀ token, token.kind = .eof → next token = others token) :
    Matches size (Reading.peek >>= next) (Reading.peek >>= others) := by
  intro stream fits
  change next stream.next stream = others stream.next stream
  by_cases more : stream.ahead = []
  · rw [ended stream.next (by rw [Stream.next, more]; rfl)]
  · exact further stream.next stream fits more

theorem take {next others : Token → Reading β}
    (further : ∀ token, Matches size (next token) (others token))
    (ended : ∀ token, token.kind = .eof → next token = others token) :
    Matches (size + 1) (Reading.take >>= next) (Reading.take >>= others) := by
  intro stream fits
  by_cases more : stream.ahead = []
  · have kind : stream.next.kind = .eof := by rw [Stream.next, more]; rfl
    change next stream.next _ = others stream.next _
    rw [ended stream.next kind]
  · exact MatchesInside.take further stream fits more

theorem expect {kind : TokenKind} (inside : kind ≠ .eof) {next others : Token → Reading β}
    (further : ∀ token, Matches size (next token) (others token)) :
    Matches (size + 1) (Reading.expect kind >>= next) (Reading.expect kind >>= others) := by
  intro stream fits
  by_cases found : stream.next.kind = kind
  · have chosen : Reading.expect kind stream = Reading.take stream := congrFun (if_pos found) stream
    rw [bind_some chosen, bind_some chosen]
    cases tokens : stream.ahead with
    | nil => exact absurd (found.symm.trans (by rw [Stream.next, tokens]; rfl)) inside
    | cons token rest =>
      rw [tokens] at fits
      exact further _ { stream with ahead := rest } (Nat.lt_of_succ_lt_succ fits)
  · have chosen : Reading.expect kind stream = (none, { stream with
        problems := .unexpected kind stream.next.kind stream.next.position :: stream.problems }) :=
      congrFun (if_neg found) stream
    rw [bind_none chosen, bind_none chosen]

theorem takeIf {kind : TokenKind} (inside : kind ≠ .eof) {next others : Bool → Reading β}
    (taken : Matches size (next true) (others true))
    (left : Matches (size + 1) (next false) (others false)) :
    Matches (size + 1) (Reading.takeIf kind >>= next) (Reading.takeIf kind >>= others) := by
  intro stream fits
  by_cases found : stream.next.kind = kind
  · have chosen : Reading.takeIf kind stream =
        (some true, { stream with ahead := stream.ahead.tail }) := congrFun (if_pos found) stream
    rw [bind_some chosen, bind_some chosen]
    cases tokens : stream.ahead with
    | nil => exact absurd (found.symm.trans (by rw [Stream.next, tokens]; rfl)) inside
    | cons token rest =>
      rw [tokens] at fits
      exact taken { stream with ahead := rest } (Nat.lt_of_succ_lt_succ fits)
  · have chosen : Reading.takeIf kind stream = (some false, stream) :=
      congrFun (if_neg found) stream
    rw [bind_some chosen, bind_some chosen]
    exact left stream fits

end Matches
end

/-! The readers with a larger bound. -/

section
variable {first second : Reading Expr} [Composed second] {limit : Nat}

theorem matches_statement (inner : Matches limit first second) :
    Matches limit (statement first) (statement second) := by
  apply Matches.peek
  intro token
  split
  · refine .bind (.refl _) fun token => .bind (.refl _) fun name => .bind (.refl _) fun _ => ?_
    exact .bind inner fun value => .refl _
  · refine .bind (.refl _) fun token => .peek fun next => ?_
    dsimp only
    split
    · exact .refl _
    · exact .refl _
    · exact .refl _
    · exact .bind (.map _ inner) fun value => .refl _
  · exact .bind inner fun value => .refl _

theorem matches_moreExpressions (inner : Matches limit first second) :
    Matches limit (moreExpressions first limit) (moreExpressions second (limit + 1)) := by
  induction limit with
  | zero => exact fun _ fits => absurd fits (Nat.not_lt_zero _)
  | succ limit ih =>
    have fewer := inner.mono (Nat.le_succ limit)
    refine .takeIf (by decide) (.bind fewer fun value => ?_) (.refl _)
    exact .bind (ih fewer) fun others => .refl _

theorem matches_expressions (inner : Matches limit first second) (closing : TokenKind) :
    Matches limit (expressions limit first closing) (expressions (limit + 1) second closing) := by
  refine .bind (.refl _) fun closed => ?_
  split
  · exact .refl _
  · exact .bind inner fun value => .bind (matches_moreExpressions inner) fun others => .refl _

theorem matches_pairs (inner : Matches limit first second) :
    Matches limit (pairs first limit) (pairs second (limit + 1)) := by
  induction limit with
  | zero => exact fun _ fits => absurd fits (Nat.not_lt_zero _)
  | succ limit ih =>
    have fewer := inner.mono (Nat.le_succ limit)
    refine .peek fun next => ?_
    split
    · exact .refl _
    refine .bind inner fun key => .expect (by decide) fun colon => .bind fewer fun value => ?_
    refine .peek fun next => ?_
    split
    · exact .refl _
    · exact .bind (.refl _) fun comma => .bind (ih fewer) fun others => .refl _

theorem matches_moreParameters (limit : Nat) :
    Matches limit (moreParameters limit) (moreParameters (limit + 1)) := by
  induction limit with
  | zero => exact fun _ fits => absurd fits (Nat.not_lt_zero _)
  | succ limit ih =>
    refine .takeIf (by decide) (.bind (.refl _) fun first => ?_) (.refl _)
    exact .bind ih fun others => .refl _

theorem matches_parameters (limit : Nat) :
    Matches limit (parameters limit) (parameters (limit + 1)) := by
  refine .bind (.refl _) fun closed => ?_
  split
  · exact .refl _
  · exact .bind (.refl _) fun first => .bind (matches_moreParameters limit) fun others => .refl _

theorem matches_untilBrace (inner : Matches limit first second) (shrinks : Shrinks second) :
    Matches limit (untilBrace (statement first) limit)
      (untilBrace (statement second) (limit + 1)) := by
  induction limit with
  | zero => exact fun _ fits => absurd fits (Nat.not_lt_zero _)
  | succ limit ih =>
    have others := ih (inner.mono (Nat.le_succ limit))
    refine .peek_inside (fun token => ?_) fun token ended => by simp only [ended]
    split
    · exact fun _ _ _ => rfl
    · exact fun _ _ _ => rfl
    · exact .attempt (matches_statement inner) (shrinks_statement shrinks) fun _ =>
        .bind others fun _ => .refl _

/-- Each statement takes a token, so there are no more of them than tokens. -/
theorem matches_untilEnd (inner : Matches (limit + 1) first second) (shrinks : Shrinks second) :
    Matches (limit + 1) (untilEnd (statement first) limit)
      (untilEnd (statement second) (limit + 1)) := by
  induction limit with
  | zero =>
    intro stream fits
    have ended := List.eq_nil_of_length_eq_zero (Nat.lt_one_iff.mp fits)
    have stops : Reads (untilEnd (statement second) 1) [] [] [] := reads_untilEnd_nil 1
    have same := stops stream
    rw [← ended] at same
    exact same.symm
  | succ limit ih =>
    have others := ih (inner.mono (Nat.le_succ _))
    refine .peek_inside (fun token => ?_) fun token ended => by simp only [ended]
    split
    · exact fun _ _ _ => rfl
    · exact .attempt (matches_statement inner) (shrinks_statement shrinks) fun _ =>
        .bind others fun _ => .refl _

theorem matches_block (inner : Matches limit first second) (shrinks : Shrinks second) :
    Matches limit (block limit first) (block (limit + 1) second) :=
  .bind (.refl _) fun _ => .bind (matches_untilBrace inner shrinks) fun _ => .refl _

theorem matches_conditional (inner : Matches limit first second) (shrinks : Shrinks second)
    (token : Token) :
    Matches limit (conditional limit first token) (conditional (limit + 1) second token) := by
  have block := matches_block inner shrinks
  refine .bind (.refl _) fun opening => .bind inner fun condition => ?_
  refine .bind (.refl _) fun closing => ?_
  refine .bind block fun consequence => .bind (.refl _) fun otherwise => ?_
  split
  · exact .bind block fun alternative => .refl _
  · exact .refl _

theorem matches_function (inner : Matches limit first second) (shrinks : Shrinks second)
    (token : Token) :
    Matches limit (function limit first token) (function (limit + 1) second token) :=
  .bind (.refl _) fun _ => .bind (matches_parameters limit) fun _ =>
    .bind (matches_block inner shrinks) fun _ => .refl _

theorem matches_slice (inner : Matches limit first second) (token : Token) (left : Expr)
    (lower : Option Expr) :
    Matches limit (slice first token left lower) (slice second token left lower) := by
  refine .peek fun next => ?_
  split
  · exact .refl _
  · exact .bind (.map _ inner) fun upper => .refl _

theorem matches_indexOrSlice (inner : Matches limit first second) (token : Token) (left : Expr) :
    Matches limit (indexOrSlice first token left) (indexOrSlice second token left) := by
  refine .bind (.refl _) fun colon => ?_
  split
  · exact matches_slice inner token left none
  · refine .bind inner fun position => .bind (.refl _) fun colon => ?_
    split
    · exact matches_slice inner token left (some position)
    · exact .refl _

end

section
variable {first second : Precedence → Reading Expr} [∀ surroundings, Composed (second surroundings)]
variable {limit : Nat} (inner : ∀ surroundings, Matches limit (first surroundings)
  (second surroundings))
include inner

theorem matches_operation (token : Token) (left : Expr) :
    Matches limit (operation limit first token left) (operation (limit + 1) second token left) := by
  unfold operation
  split
  · exact .bind (matches_expressions (inner .lowest) .rightParen) fun arguments => .refl _
  · exact matches_indexOrSlice (inner .lowest) token left
  · exact .bind (inner _) fun right => .refl _

theorem matches_operations (surroundings : Precedence) {count : Nat} (less : count ≤ limit)
    (left : Expr) :
    Matches (count + 1) (operations limit first surroundings count left)
      (operations (limit + 1) second surroundings (count + 1) left) := by
  induction count generalizing left with
  | zero =>
    intro stream fits
    have ended := List.eq_nil_of_length_eq_zero (Nat.lt_one_iff.mp fits)
    have stops : Reads (operations (limit + 1) second surroundings 1 left) [] left [] :=
      operations_stop 1 surroundings.rank_pos
    have same := stops stream
    rw [← ended] at same
    exact same.symm
  | succ count ih =>
    refine .peek_inside (fun next => ?_) fun next ended => ?_
    · split
      · refine .take fun token => ?_
        refine .bind ((matches_operation inner token left).mono less) fun whole => ?_
        exact ih (Nat.le_of_succ_le less) whole
      · exact fun _ _ _ => rfl
    · have loose : ¬ surroundings.rank < (Precedence.ofKind next.kind).rank := by
        rw [ended]
        exact Nat.not_lt.mpr surroundings.rank_pos
      rw [if_neg loose, if_neg loose]

theorem matches_operand (shrinks : Shrinks (second .lowest)) :
    Matches (limit + 1) (operand limit first) (operand (limit + 1) second) := by
  refine .take (fun token => ?_) fun token ended => by simp only [ended]
  have lowest := inner .lowest
  have sign : Matches limit
      (first .sign >>= fun right => pure (Expr.unary token (.ofText token.literal) right))
      (second .sign >>= fun right => pure (Expr.unary token (.ofText token.literal) right)) :=
    .bind (inner .sign) fun _ => .refl _
  split
  · exact .refl _
  · exact .refl _
  · exact .refl _
  · exact .refl _
  · exact .refl _
  · exact sign
  · exact sign
  · exact .bind lowest fun _ => .refl _
  · exact matches_conditional lowest shrinks token
  · exact matches_function lowest shrinks token
  · exact .bind (matches_expressions lowest .rightBracket) fun _ => .refl _
  · exact .bind (matches_pairs lowest) fun _ => .refl _
  · exact .refl _

end

/-- A bound that covers the tokens ahead may as well be larger by one. -/
theorem matches_expression (bound : Nat) (surroundings : Precedence) :
    Matches bound (expression bound surroundings) (expression (bound + 1) surroundings) := by
  induction bound generalizing surroundings with
  | zero => exact fun _ fits => absurd fits (Nat.not_lt_zero _)
  | succ bound ih =>
    refine .bind (matches_operand ih (shrinks_expression bound .lowest)) fun left => ?_
    exact matches_operations ih surroundings (Nat.le_refl bound) left

/-- The readers of a whole text, with the bounds of a text of so many tokens. -/
def text (count : Nat) : Reading (List Statement) :=
  untilEnd (statement (expression (count + 1) .lowest)) count

theorem text_eq_of_le {count larger : Nat} (more : count ≤ larger) (stream : Stream)
    (fits : stream.ahead.length ≤ count) : text count stream = text larger stream := by
  induction more with
  | refl => rfl
  | @step larger more ih =>
    have grown : Matches (larger + 1) (text larger) (text (larger + 1)) :=
      matches_untilEnd (matches_expression (larger + 1) .lowest)
        (shrinks_expression (larger + 1) .lowest)
    exact ih.trans (grown stream (Nat.lt_succ_of_le (Nat.le_trans fits more)))

end Reading

theorem Stream.ofTokens_append (tokens : List Token) (ending : Token) :
    ofTokens (tokens ++ [ending]) = ⟨tokens, ending.position, [], false⟩ := by
  simp [ofTokens]

/-- A text is read the same under any bounds that cover its tokens. -/
theorem parseTokens_eq_text {tokens : List Token} {count : Nat} (enough : tokens.length ≤ count)
    (ending : Token) : parseTokens (tokens ++ [ending]) =
      ⟨⟨(Reading.text count ⟨tokens, ending.position, [], false⟩).1.getD []⟩,
        (Reading.text count ⟨tokens, ending.position, [], false⟩).2.problems.reverse,
        (Reading.text count ⟨tokens, ending.position, [], false⟩).2.refused⟩ := by
  rw [← Reading.text_eq_of_le enough ⟨tokens, ending.position, [], false⟩ (Nat.le_refl _)]
  unfold parseTokens
  rw [Stream.ofTokens_append]
  rfl

end Monkey

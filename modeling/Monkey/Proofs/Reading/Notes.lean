import Monkey.Proofs.Reading.Failure

/-!
Where problems are noted and how many. A reader notes problems only about the token that comes next
or the one it has just taken, so their places never go back. Each problem is paid for: the first
token of a statement pays for what makes the statement fail, and the brace that opens a block pays
for the closing one that may be missing. So there are no more problems than tokens.
-/

namespace Monkey

/-- Going along a row, notes are made of what comes next, once or several times, but not of what was
passed by. What is left of the row where that ends is given too. -/
inductive Along {α : Type} : List α → List α → List α → Prop
  | stop (row : List α) : Along row row []
  | note {first : α} {row left noted : List α} (further : Along (first :: row) left noted) :
      Along (first :: row) left (first :: noted)
  | pass {first : α} {row left noted : List α} (further : Along row left noted) :
      Along (first :: row) left noted

namespace Along

variable {α : Type} {row middle left noted others : List α}

theorem trans (start : Along row middle noted) (further : Along middle left others) :
    Along row left (noted ++ others) := by
  induction start with
  | stop _ => exact further
  | note _ ih => exact .note (ih further)
  | pass _ ih => exact .pass (ih further)

theorem subset (along : Along row left noted) : noted ⊆ row := by
  induction along with
  | stop _ => exact List.nil_subset _
  | note _ ih => exact List.cons_subset.mpr ⟨List.mem_cons_self, ih⟩
  | pass _ ih => exact fun _ member => List.mem_cons_of_mem _ (ih member)

/-- The notes are in the order of the row. -/
theorem pairwise {before : α → α → Prop} (along : Along row left noted)
    (ordered : row.Pairwise before) :
    noted.Pairwise fun first second => first = second ∨ before first second := by
  induction along with
  | stop _ => exact .nil
  | note further ih =>
    refine List.pairwise_cons.mpr ⟨fun other member => ?_, ih ordered⟩
    rcases List.mem_cons.mp (further.subset member) with same | inside
    · exact .inl same.symm
    · exact .inr ((List.pairwise_cons.mp ordered).1 other inside)
  | pass _ ih => exact ih (List.pairwise_cons.mp ordered).2

end Along

namespace Stream

/-- The places of the tokens ahead and of the end. -/
def places (stream : Stream) : List Position :=
  stream.ahead.map Token.position ++ [stream.finish]

variable {stream : Stream}

theorem exists_places (stream : Stream) :
    ∃ rest, stream.places = stream.next.position :: rest := by
  unfold places next
  cases stream.ahead with
  | nil => exact ⟨[], rfl⟩
  | cons token rest => exact ⟨_, rfl⟩

theorem along_tail (stream : Stream) :
    Along stream.places { stream with ahead := stream.ahead.tail }.places [] := by
  unfold places
  cases stream.ahead with
  | nil => exact .stop _
  | cons token rest => exact .pass (.stop _)

theorem ahead_ne_nil (inside : stream.next.kind ≠ .eof) : stream.ahead ≠ [] := by
  intro ended
  rw [next, ended] at inside
  exact inside rfl

theorem length_take_one (more : stream.ahead ≠ []) : (stream.ahead.take 1).length = 1 := by
  rw [List.length_take]
  exact Nat.min_eq_left (List.length_pos_iff.mpr more)

end Stream

namespace Reading

/-- From one stream to a later one these tokens are taken and these problems noted, the earliest
first. -/
structure Went (taken : List Token) (noted : List Problem) (stream later : Stream) : Prop where
  ahead : stream.ahead = taken ++ later.ahead
  problems : later.problems = noted.reverse ++ stream.problems
  along : Along stream.places later.places (noted.map Problem.place)

namespace Went

variable {stream middle later : Stream}

theorem nil (stream : Stream) : Went [] [] stream stream := ⟨rfl, rfl, .stop _⟩

theorem one (stream : Stream) :
    Went (stream.ahead.take 1) [] stream { stream with ahead := stream.ahead.tail } where
  ahead := by rw [← List.drop_one, List.take_append_drop]
  problems := rfl
  along := stream.along_tail

theorem problem {problem : Problem} (place : problem.place = stream.next.position) :
    Went [] [problem] stream { stream with problems := problem :: stream.problems } where
  ahead := rfl
  problems := rfl
  along := by
    obtain ⟨rest, places⟩ := stream.exists_places
    change Along stream.places stream.places [problem.place]
    rw [places, place]
    exact .note (.stop _)

theorem trans {first second : List Token} {noted others : List Problem}
    (start : Went first noted stream middle) (further : Went second others middle later) :
    Went (first ++ second) (noted ++ others) stream later where
  ahead := by rw [start.ahead, further.ahead, List.append_assoc]
  problems := by
    rw [further.problems, start.problems, List.reverse_append, List.append_assoc]
  along := by
    rw [List.map_append]
    exact start.along.trans further.along

end Went

/-- Beginning with some credit, to which each token that is taken adds one and from which each
problem takes one, the reader gets along; when it succeeds, so much credit is left. -/
def Tells {α : Type} (reader : Reading α) (stream : Stream) (credit left : Nat) : Prop :=
  ∃ taken noted, Went taken noted stream (reader stream).2 ∧
    noted.length ≤ credit + taken.length ∧
    ∀ value, (reader stream).1 = some value → noted.length + left ≤ credit + taken.length

namespace Tells

variable {α β : Type} {stream : Stream} {credit middle left : Nat}

theorem mono {reader : Reading α} {more fewer : Nat} (tells : Tells reader stream credit left)
    (starts : credit ≤ more) (ends : fewer ≤ left) : Tells reader stream more fewer := by
  obtain ⟨taken, noted, went, paid, spared⟩ := tells
  refine ⟨taken, noted, went, by omega, fun value given => ?_⟩
  have := spared value given
  omega

/-- Credit that is not touched. -/
theorem frame {reader : Reading α} (tells : Tells reader stream credit left) (extra : Nat) :
    Tells reader stream (credit + extra) (left + extra) := by
  obtain ⟨taken, noted, went, paid, spared⟩ := tells
  refine ⟨taken, noted, went, by omega, fun value given => ?_⟩
  have := spared value given
  omega

theorem pure (value : α) (enough : left ≤ credit) :
    Tells (Pure.pure value) stream credit left :=
  ⟨[], [], .nil stream, Nat.zero_le _, fun _ _ => by simpa using enough⟩

theorem fail : Tells (Reading.fail : Reading α) stream credit left :=
  ⟨[], [], .nil stream, Nat.zero_le _, fun _ given => nomatch given⟩

/-- What comes after a reader comes after what that reader has given. -/
theorem follow {first : Reading α} {next : α → Reading β} (start : Tells first stream credit middle)
    (further : ∀ value later, first stream = (some value, later) →
      Tells (next value) later middle left) : Tells (first >>= next) stream credit left := by
  obtain ⟨taken, noted, went, paid, spared⟩ := start
  cases outcome : first stream with
  | mk result later =>
    rw [outcome] at went spared
    cases result with
    | none =>
      rw [Tells, bind_none outcome]
      exact ⟨taken, noted, went, paid, fun _ given => nomatch given⟩
    | some value =>
      rw [Tells, bind_some outcome]
      obtain ⟨taken', noted', went', paid', spared'⟩ := further value later outcome
      have between := spared value rfl
      refine ⟨taken ++ taken', noted ++ noted', went.trans went', ?_, fun result given => ?_⟩
      · simp only [List.length_append]
        omega
      · have := spared' result given
        simp only [List.length_append]
        omega

theorem bind {first : Reading α} {next : α → Reading β} (start : Tells first stream credit middle)
    (further : ∀ value later, Tells (next value) later middle left) :
    Tells (first >>= next) stream credit left :=
  start.follow fun value later _ => further value later

theorem map {reader : Reading α} (change : α → β) (inner : Tells reader stream credit left) :
    Tells (change <$> reader) stream credit left :=
  inner.bind fun value _ => pure (change value) (Nat.le_refl _)

theorem peek {next : Token → Reading β} (further : Tells (next stream.next) stream credit left) :
    Tells (Reading.peek >>= next) stream credit left := further

theorem take {next : Token → Reading β} (more : stream.ahead ≠ [])
    (further : ∀ later, Tells (next stream.next) later (credit + 1) left) :
    Tells (Reading.take >>= next) stream credit left := by
  have taken : Tells Reading.take stream credit (credit + 1) := by
    refine ⟨stream.ahead.take 1, [], .one stream, Nat.zero_le _, fun _ _ => ?_⟩
    rw [Stream.length_take_one more, List.length_nil]
    omega
  refine taken.follow fun value later outcome => ?_
  cases outcome
  exact further _

theorem note {next : Unit → Reading β} {problem : Problem}
    (place : problem.place = stream.next.position)
    (further : ∀ later, Tells (next ()) later credit left) :
    Tells (Reading.note problem >>= next) stream (credit + 1) left := by
  have noted : Tells (Reading.note problem) stream (credit + 1) credit :=
    ⟨[], [problem], .problem place, Nat.le_add_left 1 credit, fun _ _ => Nat.le_of_eq
      (Nat.add_comm 1 credit)⟩
  exact noted.bind fun _ => further

theorem expect (kind : TokenKind) (inside : kind ≠ .eof) :
    Tells (Reading.expect kind) stream 1 2 := by
  refine peek ?_
  split
  · rename_i found
    have more : stream.ahead ≠ [] := Stream.ahead_ne_nil (found ▸ inside)
    change Tells (Reading.take >>= Pure.pure) stream 1 2
    exact take more fun later => pure _ (Nat.le_refl _)
  · exact note rfl fun later => fail

/-- A token that has to come here, without the credit that it brings. -/
theorem expected {kind : TokenKind} {next : Token → Reading β} (inside : kind ≠ .eof)
    (further : ∀ token later, Tells (next token) later 1 left) :
    Tells (Reading.expect kind >>= next) stream 1 left :=
  ((expect kind inside).mono (Nat.le_refl _) (by decide)).bind further

theorem takeIf {kind : TokenKind} {next : Bool → Reading β}
    (further : ∀ found later, Tells (next found) later credit left) :
    Tells (Reading.takeIf kind >>= next) stream credit left := by
  have chosen : Tells (Reading.takeIf kind) stream credit credit := by
    refine peek ?_
    split
    · refine ⟨stream.ahead.take 1, [], .one stream, Nat.zero_le _, fun _ _ => ?_⟩
      simp only [List.length_nil]
      omega
    · exact pure _ (Nat.le_refl _)
  exact chosen.bind further

/-- A failure has taken its credit and no more. -/
theorem attempt {reader : Reading α} (inner : Tells reader stream credit left) :
    Tells (Reading.attempt reader) stream credit 0 := by
  obtain ⟨taken, noted, went, paid, -⟩ := inner
  exact ⟨taken, noted, went, paid, fun _ _ => paid⟩

end Tells

/-! The readers of the language. -/

/-- An expression needs a credit of one, unless there is a token to begin with, and leaves that. -/
def TellsExpressions (expression : Reading Expr) : Prop :=
  ∀ stream credit, stream.ahead ≠ [] ∨ 0 < credit → Tells expression stream credit 1

section
variable {expression : Reading Expr} {stream : Stream}

theorem TellsExpressions.later (inner : TellsExpressions expression) (stream : Stream) :
    Tells expression stream 1 1 := inner stream 1 (.inr Nat.one_pos)

theorem tells_missingBrace : Tells untilBrace.missingBrace stream 1 0 :=
  .peek (.note rfl fun _ => .pure _ (Nat.le_refl _))

section
variable (inner : TellsExpressions expression)
include inner

theorem tells_statement (more : stream.ahead ≠ []) :
    Tells (statement expression) stream 0 0 := by
  refine .peek ?_
  split
  · refine .take more fun later => ?_
    refine .expected (by decide) fun name later => .expected (by decide) fun assign later => ?_
    refine (inner.later later).bind fun value later => .takeIf fun ended later => ?_
    exact .pure _ (Nat.zero_le _)
  · refine .take more fun later => .peek ?_
    dsimp only
    have ending (value : Option Expr) (later : Stream) : Tells (do
        let _ ← takeIf .semicolon
        pure (Statement.giveBack stream.next value)) later 1 0 :=
      .takeIf fun ended later => .pure _ (Nat.zero_le _)
    split
    · exact ending none later
    · exact ending none later
    · exact ending none later
    · exact ((inner.later later).map some).bind ending
  · refine (inner stream 0 (.inl more)).bind fun value later => .takeIf fun ended later => ?_
    exact .pure _ (Nat.zero_le _)

/-- The credit is for the brace at the end. -/
theorem tells_untilBrace (limit : Nat) :
    Tells (untilBrace (statement expression) limit) stream 1 0 := by
  induction limit generalizing stream with
  | zero => exact tells_missingBrace
  | succ limit ih =>
    refine .peek ?_
    split
    · rename_i kind
      exact .take (Stream.ahead_ne_nil (by simp [kind])) fun later => .pure _ (Nat.zero_le _)
    · exact tells_missingBrace
    · rename_i other
      have first := (tells_statement inner (Stream.ahead_ne_nil other)).attempt
      exact (first.frame 1).bind fun first later => ih.bind fun rest later =>
        .pure _ (Nat.le_refl _)

theorem tells_untilEnd (limit : Nat) :
    Tells (untilEnd (statement expression) limit) stream 0 0 := by
  induction limit generalizing stream with
  | zero => exact .pure _ (Nat.le_refl _)
  | succ limit ih =>
    refine .peek ?_
    split
    · exact .pure _ (Nat.le_refl _)
    · rename_i other
      exact (tells_statement inner (Stream.ahead_ne_nil other)).attempt.bind fun first later =>
        ih.bind fun rest later => .pure _ (Nat.le_refl _)

theorem tells_block (limit : Nat) : Tells (block limit expression) stream 1 1 :=
  (Tells.expect .leftBrace (by decide)).bind fun _ _ =>
    ((tells_untilBrace inner limit).frame 1).bind fun _ _ => .pure _ (Nat.le_refl _)

theorem tells_moreExpressions (limit : Nat) :
    Tells (moreExpressions expression limit) stream 1 1 := by
  induction limit generalizing stream with
  | zero => exact .pure _ (Nat.le_refl _)
  | succ limit ih =>
    refine .takeIf fun found later => ?_
    split
    · exact (inner.later later).bind fun first later => ih.bind fun rest later =>
        .pure _ (Nat.le_refl _)
    · exact .pure _ (Nat.le_refl _)

theorem tells_expressions (limit : Nat) {closing : TokenKind} (inside : closing ≠ .eof) :
    Tells (expressions limit expression closing) stream 1 1 := by
  refine .takeIf fun found later => ?_
  split
  · exact .pure _ (Nat.le_refl _)
  · refine (inner.later later).bind fun first later => ?_
    refine (tells_moreExpressions inner limit).bind fun rest later => ?_
    exact .expected inside fun token later => .pure _ (Nat.le_refl _)

theorem tells_pairs (limit : Nat) : Tells (pairs expression limit) stream 1 1 := by
  induction limit generalizing stream with
  | zero => exact .pure _ (Nat.le_refl _)
  | succ limit ih =>
    refine .peek ?_
    split
    · exact .pure _ (Nat.le_refl _)
    refine (inner.later stream).bind fun key later => .expected (by decide) fun colon later => ?_
    refine (inner.later later).bind fun value later => .peek ?_
    split
    · exact .pure _ (Nat.le_refl _)
    · exact .expected (by decide) fun comma later => ih.bind fun rest later =>
        .pure _ (Nat.le_refl _)

end

theorem tells_parameter : Tells parameter stream 1 1 :=
  .expected (by decide) fun _ _ => .pure _ (Nat.le_refl _)

theorem tells_moreParameters (limit : Nat) : Tells (moreParameters limit) stream 1 1 := by
  induction limit generalizing stream with
  | zero => exact .pure _ (Nat.le_refl _)
  | succ limit ih =>
    refine .takeIf fun found later => ?_
    split
    · exact tells_parameter.bind fun first later => ih.bind fun rest later =>
        .pure _ (Nat.le_refl _)
    · exact .pure _ (Nat.le_refl _)

theorem tells_parameters (limit : Nat) : Tells (parameters limit) stream 1 1 := by
  refine .takeIf fun found later => ?_
  split
  · exact .pure _ (Nat.le_refl _)
  · refine tells_parameter.bind fun first later => ?_
    refine (tells_moreParameters limit).bind fun rest later => ?_
    exact .expected (by decide) fun token later => .pure _ (Nat.le_refl _)

section
variable (inner : TellsExpressions expression)
include inner

theorem tells_conditional (limit : Nat) (token : Token) :
    Tells (conditional limit expression token) stream 1 1 := by
  refine .expected (by decide) fun opening later => ?_
  refine (inner.later later).bind fun condition later => .expected (by decide) fun closing later => ?_
  refine (tells_block inner limit).bind fun yes later => ?_
  refine .takeIf fun found later => ?_
  split
  · exact (tells_block inner limit).bind fun no later => .pure _ (Nat.le_refl _)
  · exact .pure _ (Nat.le_refl _)

theorem tells_function (limit : Nat) (token : Token) :
    Tells (function limit expression token) stream 1 1 :=
  .expected (by decide) fun _ _ => (tells_parameters limit).bind fun _ _ =>
    (tells_block inner limit).bind fun _ _ => .pure _ (Nat.le_refl _)

theorem tells_slice (token : Token) (left : Expr) (lower : Option Expr) :
    Tells (slice expression token left lower) stream 1 1 := by
  have closed (upper : Option Expr) (later : Stream) : Tells (do
      let _ ← expect .rightBracket
      pure (Expr.slice token left lower upper)) later 1 1 :=
    .expected (by decide) fun closing later => .pure _ (Nat.le_refl _)
  refine .peek ?_
  split
  · exact closed none stream
  · exact ((inner.later stream).map some).bind closed

theorem tells_indexOrSlice (token : Token) (left : Expr) :
    Tells (indexOrSlice expression token left) stream 1 1 := by
  refine .takeIf fun found later => ?_
  split
  · exact tells_slice inner token left none
  · refine (inner.later later).bind fun position later => .takeIf fun found later => ?_
    split
    · exact tells_slice inner token left (some position)
    · exact .expected (by decide) fun closing later => .pure _ (Nat.le_refl _)

end
end

/-- What is wrong with the first token is noted after it was taken. -/
theorem tells_taken {reader : Reading Expr} {stream : Stream} {credit : Nat}
    (paid : stream.ahead ≠ [] ∨ 0 < credit) {problem : Problem}
    (place : problem.place = stream.next.position)
    (same : reader stream = (none, { stream with
      ahead := stream.ahead.tail
      problems := problem :: stream.problems })) : Tells reader stream credit 1 := by
  have went := (Went.problem place).trans
    (Went.one { stream with problems := problem :: stream.problems })
  rw [Tells, same]
  refine ⟨stream.ahead.take 1, [problem], went, ?_, fun _ given => nomatch given⟩
  rw [List.length_singleton]
  rcases paid with more | paid
  · rw [Stream.length_take_one more]
    exact Nat.le_add_left 1 credit
  · exact Nat.le_add_right_of_le paid

/-- A number is too long to be looked at, too large, or read. -/
theorem tells_operand_of_int {stream : Stream} {credit : Nat} (limit : Nat)
    (expression : Precedence → Reading Expr) (kind : stream.next.kind = .int) :
    Tells (operand limit expression) stream credit 1 := by
  have more : stream.ahead ≠ [] := Stream.ahead_ne_nil (by simp [kind])
  have went := Went.one stream
  have same := operand_of_int limit expression kind
  by_cases long : maxDigits < stream.next.literal.length
  · rw [integer_of_long long] at same
    rw [Tells, same]
    exact ⟨_, [], ⟨went.ahead, went.problems, went.along⟩, Nat.zero_le _,
      fun _ given => nomatch given⟩
  · have digits := Nat.le_of_not_lt long
    by_cases large : maxInteger < Nat.ofDigitChars 10 stream.next.literal.toList 0
    · rw [integer_of_large digits large] at same
      exact tells_taken (.inl more) rfl same
    · rw [integer_of_fits digits (Nat.le_of_not_lt large)] at same
      rw [Tells, same]
      exact ⟨_, [], went, Nat.zero_le _, fun _ _ => by simp [Stream.length_take_one more]⟩

section
variable {expression : Precedence → Reading Expr} {stream : Stream}
variable (inner : ∀ surroundings, TellsExpressions (expression surroundings))
include inner

theorem tells_operation (limit : Nat) (token : Token) (left : Expr) :
    Tells (operation limit expression token left) stream 1 1 := by
  unfold operation
  split
  · exact (tells_expressions (inner .lowest) limit (by decide)).bind fun arguments later =>
      .pure _ (Nat.le_refl _)
  · exact tells_indexOrSlice (inner .lowest) token left
  · exact ((inner _).later stream).bind fun right later => .pure _ (Nat.le_refl _)

theorem tells_operations (limit : Nat) (surroundings : Precedence) (count : Nat) (left : Expr) :
    Tells (operations limit expression surroundings count left) stream 1 1 := by
  induction count generalizing left stream with
  | zero => exact .pure _ (Nat.le_refl _)
  | succ count ih =>
    refine .peek ?_
    split
    · rename_i binds
      have inside : stream.next.kind ≠ .eof := by
        intro ended
        rw [ended] at binds
        exact Nat.not_lt.mpr surroundings.rank_pos binds
      refine .take (Stream.ahead_ne_nil inside) fun later => ?_
      exact ((tells_operation inner limit stream.next left).mono (by decide)
        (Nat.le_refl _)).bind fun whole later => ih whole
    · exact .pure _ (Nat.le_refl _)

theorem tells_operand (limit : Nat) : TellsExpressions (operand limit expression) := by
  intro stream credit paid
  by_cases digits : stream.next.kind = .int
  · exact tells_operand_of_int limit expression digits
  by_cases starts : stream.next.kind ∈ starters
  · have more : stream.ahead ≠ [] := Stream.ahead_ne_nil (ne_of_mem_starters starts (by decide))
    refine .take more fun later =>
      Tells.mono (?_ : Tells _ later 1 1) (Nat.le_add_left 1 credit) (Nat.le_refl 1)
    have signed : Tells (do
        let right ← expression .sign
        pure (Expr.unary stream.next (.ofText stream.next.literal) right)) later 1 1 :=
      ((inner .sign).later later).bind fun right later => .pure _ (Nat.le_refl _)
    split
    · exact .pure _ (Nat.le_refl _)
    · rename_i kind
      exact absurd kind digits
    · exact .pure _ (Nat.le_refl _)
    · exact .pure _ (Nat.le_refl _)
    · exact .pure _ (Nat.le_refl _)
    · exact signed
    · exact signed
    · exact ((inner .lowest).later later).bind fun tree later =>
        .expected (by decide) fun closing later => .pure _ (Nat.le_refl _)
    · exact tells_conditional (inner .lowest) limit stream.next
    · exact tells_function (inner .lowest) limit stream.next
    · exact (tells_expressions (inner .lowest) limit (by decide)).bind fun elements later =>
        .pure _ (Nat.le_refl _)
    · exact (tells_pairs (inner .lowest) limit).bind fun pairs later =>
        .expected (by decide) fun closing later => .pure _ (Nat.le_refl _)
    · exact absurd starts (by simp_all [starters])
  · exact tells_taken paid rfl (operand_of_other limit expression starts)

end

theorem tells_expression (bound : Nat) (surroundings : Precedence) :
    TellsExpressions (expression bound surroundings) := by
  induction bound generalizing surroundings with
  | zero => exact fun _ _ _ => .fail
  | succ bound ih =>
    exact fun stream credit paid => (tells_operand ih bound stream credit paid).bind
      fun left later => tells_operations ih bound surroundings bound left

theorem tells_text (count : Nat) (stream : Stream) : Tells (text count) stream 0 0 :=
  tells_untilEnd (tells_expression (count + 1) .lowest) count

end Reading
end Monkey

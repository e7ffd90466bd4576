import Monkey.Proofs.Made
import Monkey.Proofs.Visits

/-!
Integers as words of 64 bits. A result is cut down to its low 64 bits and read as a signed number
again, so the operators are those of a machine with such words. Cutting down respects sums, products
and negatives. However often it is done inside a larger expression, the result is the exact one,
cut down once.
-/

namespace Monkey

open Evaluation

namespace Integer

variable {left right value : Int}

/-- The low 64 bits of an integer. -/
def word (value : Int) : BitVec 64 := .ofInt 64 value

theorem wrap_eq_toInt (value : Int) : wrap value = (word value).toInt := by
  rw [word, BitVec.toInt_ofInt]
  rfl

theorem wrap_of_inRange (fits : InRange value) : wrap value = value :=
  wrap_of_bounds fits.1 fits.2

theorem toInt_word (fits : InRange value) : (word value).toInt = value := by
  rw [← wrap_eq_toInt, wrap_of_inRange fits]

theorem word_inj (fits : InRange left) (fits' : InRange right) :
    word left = word right ↔ left = right := by
  rw [← BitVec.toInt_inj, toInt_word fits, toInt_word fits']

theorem negate_eq_toInt (value : Int) : negate value = (-word value).toInt := by
  rw [negate, wrap_eq_toInt, word, BitVec.ofInt_neg, word]

theorem add_eq_toInt (left right : Int) : add left right = (word left + word right).toInt := by
  rw [add, wrap_eq_toInt, word, BitVec.ofInt_add, word, word]

theorem subtract_eq_toInt (left right : Int) :
    subtract left right = (word left - word right).toInt := by
  rw [subtract, wrap_eq_toInt, word, Int.sub_eq_add_neg, BitVec.ofInt_add, BitVec.ofInt_neg,
    BitVec.sub_eq_add_neg, word, word]

theorem multiply_eq_toInt (left right : Int) :
    multiply left right = (word left * word right).toInt := by
  rw [multiply, wrap_eq_toInt, word, BitVec.ofInt_mul, word, word]

theorem wrap_tdiv_eq_toInt (fits : InRange left) (fits' : InRange right) :
    wrap (left.tdiv right) = ((word left).sdiv (word right)).toInt := by
  rw [BitVec.toInt_sdiv, toInt_word fits, toInt_word fits']
  rfl

/-! Quotients. -/

/-- A quotient rounded toward zero and what it leaves over, which is smaller than the divisor and
not on the other side of zero than the dividend. -/
structure Truncates (left right quotient remainder : Int) : Prop where
  whole : left = quotient * right + remainder
  small : remainder.natAbs < right.natAbs
  sign : remainder = 0 ∨ remainder.sign = left.sign

theorem truncates_tdiv (divisible : right ≠ 0) :
    Truncates left right (left.tdiv right) (left.tmod right) where
  whole := by rw [Int.mul_comm, Int.mul_tdiv_add_tmod]
  small := by
    rw [Int.natAbs_tmod]
    exact Nat.mod_lt _ (Int.natAbs_pos.mpr divisible)
  sign := by
    by_cases divides : right ∣ left
    · exact .inl (Int.tmod_eq_zero_of_dvd divides)
    · exact .inr (by rw [Int.sign_tmod, if_neg divides])

/-- There is one such quotient. -/
theorem Truncates.eq_tdiv {quotient remainder : Int}
    (truncates : Truncates left right quotient remainder) : quotient = left.tdiv right := by
  obtain ⟨whole, small, sign⟩ := truncates
  have divisible : right ≠ 0 := by
    rintro rfl
    exact Nat.not_lt_zero _ small
  have parts : remainder + right * quotient = left := by rw [whole, Int.mul_comm, Int.add_comm]
  rcases Int.le_total 0 left with positive | negative
  · have low : 0 ≤ remainder := by
      rcases sign with rfl | same
      · exact Int.le_refl 0
      · exact Int.sign_nonneg_iff.mp (same ▸ Int.sign_nonneg_iff.mpr positive)
    exact ((Int.tdiv_tmod_unique positive divisible).mpr ⟨parts, low, by omega⟩).1.symm
  · have high : remainder ≤ 0 := by
      rcases sign with rfl | same
      · exact Int.le_refl 0
      · exact Int.sign_nonpos_iff.mp (same ▸ Int.sign_nonpos_iff.mpr negative)
    exact ((Int.tdiv_tmod_unique' negative divisible).mpr ⟨parts, by omega, high⟩).1.symm

theorem exists_truncates_iff (divisible : right ≠ 0) (quotient : Int) :
    (∃ remainder, Truncates left right quotient remainder) ↔ quotient = left.tdiv right := by
  constructor
  · exact fun ⟨_, truncates⟩ => truncates.eq_tdiv
  · rintro rfl
    exact ⟨_, truncates_tdiv divisible⟩

/-- Of all integers in the range only two have a quotient that is outside the range. -/
theorem inRange_tdiv (fits : InRange left) (divisible : right ≠ 0)
    (others : ¬ (left = -0x8000000000000000 ∧ right = -1)) : InRange (left.tdiv right) := by
  have size := Int.natAbs_tdiv_le_natAbs left right
  obtain ⟨whole, small, -⟩ := @truncates_tdiv left _ divisible
  unfold InRange at fits ⊢
  generalize left.tdiv right = quotient at whole size ⊢
  have notBeyond : quotient ≠ 0x8000000000000000 := by
    rintro rfl
    omega
  omega

end Integer

namespace Value

/-- The operators on words. Sums, differences and products are cut down to their low 64 bits, and
quotients are rounded toward zero. Words are compared as signed numbers. -/
def wordBinary (operator : Operator) (left right : BitVec 64) : Except Fault Value :=
  match operator with
  | .plus => .ok (integer (left + right).toInt)
  | .minus => .ok (integer (left - right).toInt)
  | .times => .ok (integer (left * right).toInt)
  | .divide => if right = 0#64 then .error .divisionByZero else .ok (integer (left.sdiv right).toInt)
  | .less => .ok (boolean (left.slt right))
  | .greater => .ok (boolean (right.slt left))
  | .equal => .ok (boolean (left == right))
  | .notEqual => .ok (boolean (left != right))
  | operator => .error (.unknownBinary .integer operator .integer)

open Integer

variable {left right : Int}

theorem slt_word (fits : InRange left) (fits' : InRange right) :
    (word left).slt (word right) = decide (left < right) := by
  rw [Bool.eq_iff_iff, BitVec.slt_iff_toInt_lt, toInt_word fits, toInt_word fits',
    decide_eq_true_iff]

theorem beq_word (fits : InRange left) (fits' : InRange right) :
    (word left == word right) = decide (left = right) := by
  rw [Bool.eq_iff_iff, beq_iff_eq, word_inj fits fits', decide_eq_true_iff]

theorem integerBinary_eq (operator : Operator) (fits : InRange left) (fits' : InRange right) :
    integerBinary operator left right = wordBinary operator (word left) (word right) := by
  cases operator with
  | plus => rw [integerBinary, wordBinary, add_eq_toInt]
  | minus => rw [integerBinary, wordBinary, subtract_eq_toInt]
  | times => rw [integerBinary, wordBinary, multiply_eq_toInt]
  | divide =>
    have none : InRange 0 := ⟨by decide, by decide⟩
    have zero : word right = 0#64 ↔ right = 0 := word_inj fits' none
    rw [integerBinary, wordBinary, divide?]
    by_cases divisor : right = 0
    · rw [if_pos divisor, if_pos (zero.mpr divisor)]
    · rw [if_neg divisor, if_neg (mt zero.mp divisor), wrap_tdiv_eq_toInt fits fits']
  | less => rw [integerBinary, wordBinary, slt_word fits fits']
  | greater => rw [integerBinary, wordBinary, slt_word fits' fits]
  | equal => rw [integerBinary, wordBinary, beq_word fits fits']
  | notEqual => rw [integerBinary, wordBinary, bne, beq_word fits fits', decide_not]
  | bang => rfl
  | other text => rfl

theorem message_unknownBinary_ne (left : ValueKind) (operator : Operator) (right : ValueKind) :
    (Fault.unknownBinary left operator right).message ≠ Fault.divisionByZero.message := by
  intro same
  have begins : "unknown operator: ".toList.head? = some 'u' := by rfl
  have other : "division by zero".toList.head? = some 'd' := by rfl
  unfold Fault.message at same
  have letters := congrArg (fun text => text.toList.head?) same
  simp only [String.toList_append, List.append_assoc] at letters
  rw [List.head?_append, begins, other] at letters
  cases letters

/-- Only a division fails for want of a quotient. -/
theorem answer_integerBinary_eq_error_iff (operator : Operator) (left right : Int) (state : State) :
    answer (integerBinary operator left right) state =
        .error (.error Fault.divisionByZero.message) state ↔
      operator = .divide ∧ right = 0 := by
  have unknown : ∀ other : Operator, answer (.error (.unknownBinary .integer other .integer)) state ≠
      .error (.error Fault.divisionByZero.message) state := by
    intro other same
    injection same with stops
    injection stops with messages
    exact message_unknownBinary_ne _ _ _ messages
  cases operator with
  | divide =>
    by_cases divisor : right = 0
    · have failed : integerBinary .divide left right = .error .divisionByZero := by
        rw [integerBinary, Integer.divide?, if_pos divisor]
      rw [failed]
      exact iff_of_true rfl ⟨rfl, divisor⟩
    · have succeeds : integerBinary .divide left right =
          .ok (integer (Integer.wrap (left.tdiv right))) := by
        rw [integerBinary, Integer.divide?, if_neg divisor]
      rw [succeeds]
      exact iff_of_false (fun same => by cases same) fun both => divisor both.2
  | bang => exact iff_of_false (unknown .bang) fun both => by cases both.1
  | other text => exact iff_of_false (unknown (.other text)) fun both => by cases both.1
  | _ => exact iff_of_false (fun same => by cases same) fun both => by cases both.1

end Value

section
variable {calling : Calling} {scope : Nat} {before between after : State}
variable {leftExpr rightExpr : Expr} {left right : Int}

open Integer

theorem evaluate_binary_of_integers (token : Token) (operator : Operator)
    (first : leftExpr.evaluate calling scope before = .ok (.integer left) between)
    (second : rightExpr.evaluate calling scope between = .ok (.integer right) after) :
    (Expr.binary token leftExpr operator rightExpr).evaluate calling scope before =
      answer (Value.integerBinary operator left right) after := by
  change (leftExpr.evaluate calling scope >>= fun left =>
    rightExpr.evaluate calling scope >>= fun right =>
    answer (Value.binary left operator right)) before = _
  rw [bind_of_ok first, bind_of_ok second]
  rfl

theorem evaluate_negative_of_integer (token : Token)
    (inner : leftExpr.evaluate calling scope before = .ok (.integer left) after) :
    (Expr.unary token .minus leftExpr).evaluate calling scope before =
      .ok (.integer (negate left)) after := by
  change (leftExpr.evaluate calling scope >>= fun right =>
    answer (Value.unary .minus right)) before = _
  rw [bind_of_ok inner]
  rfl

/-- The operators on integers of the language are the signed operators on words of 64 bits. Only a
division by zero fails. Every other quotient is the one that is rounded toward zero, but for the
least integer divided by -1, which gives the least integer again. -/
theorem operators_are_machine_operators (token : Token) (fits : InRange left)
    (fits' : InRange right)
    (first : leftExpr.evaluate calling scope before = .ok (.integer left) between)
    (second : rightExpr.evaluate calling scope between = .ok (.integer right) after) :
    (Expr.unary token .minus leftExpr).evaluate calling scope before =
      .ok (.integer (-word left).toInt) between ∧
    (∀ operator, (Expr.binary token leftExpr operator rightExpr).evaluate calling scope before =
      answer (Value.wordBinary operator (word left) (word right)) after) ∧
    (∀ operator, (Expr.binary token leftExpr operator rightExpr).evaluate calling scope before =
      .error (.error "division by zero") after ↔ operator = .divide ∧ right = 0) ∧
    (right ≠ 0 → ¬ (left = -0x8000000000000000 ∧ right = -1) →
      ∃ quotient, (∀ other, (∃ remainder, Truncates left right other remainder) ↔
          other = quotient) ∧
        (Expr.binary token leftExpr .divide rightExpr).evaluate calling scope before =
          .ok (.integer quotient) after) ∧
    (left = -0x8000000000000000 → right = -1 →
      (Expr.binary token leftExpr .divide rightExpr).evaluate calling scope before =
        .ok (.integer left) after) := by
  have binary := fun operator => evaluate_binary_of_integers token operator first second
  refine ⟨?_, fun operator => ?_, fun operator => ?_, fun divisible others => ?_, ?_⟩
  · rw [evaluate_negative_of_integer token first, negate_eq_toInt]
  · rw [binary, Value.integerBinary_eq operator fits fits']
  · rw [binary]
    exact Value.answer_integerBinary_eq_error_iff operator left right after
  · have inside := inRange_tdiv fits divisible others
    refine ⟨left.tdiv right, exists_truncates_iff divisible, ?_⟩
    rw [binary, Value.integerBinary, divide?, if_neg divisible, wrap_of_inRange inside]
    rfl
  · rintro rfl rfl
    rw [binary]
    rfl

/-- The least integer divided by -1 is the least integer, as it is with words. -/
theorem least_integer_by_minus_one :
    let one := Expr.integer ⟨.int, "1", ⟨1, 24⟩⟩ 1
    let least := Expr.binary ⟨.minus, "-", ⟨1, 22⟩⟩
      (.unary ⟨.minus, "-", ⟨1, 2⟩⟩ .minus
        (.integer ⟨.int, "9223372036854775807", ⟨1, 3⟩⟩ 9223372036854775807)) .minus one
    let minusOne := Expr.unary ⟨.minus, "-", ⟨1, 29⟩⟩ .minus one
    let quotient := Expr.binary ⟨.slash, "/", ⟨1, 27⟩⟩ least .divide minusOne
    let begun := State.fresh 0
    least.evaluate (applyWithin 0) 0 begun = .ok (.integer (-0x8000000000000000)) begun ∧
    minusOne.evaluate (applyWithin 0) 0 begun = .ok (.integer (-1)) begun ∧
    quotient.evaluate (applyWithin 0) 0 begun = .ok (.integer (-0x8000000000000000)) begun ∧
    quotient.evaluate (applyWithin 0) 0 begun =
      answer (.ok (.integer ((word (-0x8000000000000000)).sdiv (word (-1))).toInt)) begun := by
  intro one least minusOne quotient begun
  have first : least.evaluate (applyWithin 0) 0 begun =
      .ok (.integer (-0x8000000000000000)) begun := rfl
  have second : minusOne.evaluate (applyWithin 0) 0 begun = .ok (.integer (-1)) begun := rfl
  have operators := operators_are_machine_operators ⟨.slash, "/", ⟨1, 27⟩⟩
    ⟨by decide, by decide⟩ ⟨by decide, by decide⟩ first second
  exact ⟨first, second, operators.2.2.2.2 rfl rfl, operators.2.1 .divide⟩

end

/-! Sums, differences, products and negatives in one expression. -/

namespace Integer

theorem negate_wrap (value : Int) : negate (wrap value) = wrap (-value) := Int.bmod_neg_bmod

theorem add_wrap (left right : Int) : add (wrap left) (wrap right) = wrap (left + right) :=
  Int.bmod_add_bmod.trans Int.add_bmod_bmod

theorem subtract_wrap (left right : Int) :
    subtract (wrap left) (wrap right) = wrap (left - right) :=
  Int.bmod_sub_bmod.trans Int.sub_bmod_bmod

theorem multiply_wrap (left right : Int) :
    multiply (wrap left) (wrap right) = wrap (left * right) :=
  Int.bmod_mul_bmod.trans Int.mul_bmod_bmod

theorem wrap_eq_iff (left right : Int) : wrap left = wrap right ↔
    left % 0x10000000000000000 = right % 0x10000000000000000 := by
  have remainder : ∀ value : Int, wrap value % 0x10000000000000000 = value % 0x10000000000000000 :=
    fun value => Int.bmod_emod
  have whole : ∀ value : Int, wrap (value % 0x10000000000000000) = wrap value :=
    fun value => Int.emod_bmod value 0x10000000000000000
  constructor
  · intro same
    rw [← remainder left, same, remainder right]
  · intro same
    rw [← whole left, same, whole right]

end Integer

open Integer

/-- The exact value of an expression that only adds, subtracts, multiplies and negates. Its names
stand for integers of the language, and numbers are computed with as if there were no bounds. -/
inductive Expr.Exact (store : Store) (scope : Nat) : Expr → Int → Prop
  | integer (token : Token) {value : Int} (fits : InRange value) :
      Exact store scope (.integer token value) value
  | identifier {name : Identifier} {value : Int}
      (bound : store.find? scope name.name = some (.integer value)) (fits : InRange value) :
      Exact store scope (.identifier name) value
  | negative (token : Token) {right : Expr} {value : Int} (inner : Exact store scope right value) :
      Exact store scope (.unary token .minus right) (-value)
  | sum (token : Token) {left right : Expr} {value value' : Int}
      (first : Exact store scope left value) (second : Exact store scope right value') :
      Exact store scope (.binary token left .plus right) (value + value')
  | difference (token : Token) {left right : Expr} {value value' : Int}
      (first : Exact store scope left value) (second : Exact store scope right value') :
      Exact store scope (.binary token left .minus right) (value - value')
  | product (token : Token) {left right : Expr} {value value' : Int}
      (first : Exact store scope left value) (second : Exact store scope right value') :
      Exact store scope (.binary token left .times right) (value * value')

/-- An expression comes to its exact value cut down once, though every step of it is cut down. -/
theorem Expr.Exact.evaluate {state : State} {scope : Nat} {tree : Expr} {value : Int}
    (exact : tree.Exact state.store scope value) (calling : Calling) :
    tree.evaluate calling scope state = .ok (.integer (wrap value)) state := by
  induction exact with
  | integer token fits =>
    rw [wrap_of_inRange fits]
    rfl
  | @identifier name value bound fits =>
    rw [wrap_of_inRange fits]
    change resolve scope name.name state = _
    have read : (get : Evaluation State) state = .ok state state := rfl
    rw [resolve, bind_of_ok read, bound]
    rfl
  | negative token _ ih => rw [evaluate_negative_of_integer token ih, negate_wrap]
  | sum token _ _ ih ih' =>
    rw [evaluate_binary_of_integers token .plus ih ih', Value.integerBinary, add_wrap]
    rfl
  | difference token _ _ ih ih' =>
    rw [evaluate_binary_of_integers token .minus ih ih', Value.integerBinary, subtract_wrap]
    rfl
  | product token _ _ ih ih' =>
    rw [evaluate_binary_of_integers token .times ih ih', Value.integerBinary, multiply_wrap]
    rfl

/-- Overflow on the way does not matter to an expression that only adds, subtracts, multiplies and
negates. It comes to its exact value cut down once, and two of them come to the same integer
whenever their exact values differ by a multiple of 2^64. -/
theorem overflow_on_the_way_does_not_matter {state : State} {scope : Nat} {tree : Expr}
    {value : Int} (exact : tree.Exact state.store scope value) (calling : Calling) :
    tree.evaluate calling scope state = .ok (.integer (wrap value)) state ∧
    ∀ {state' : State} {scope' : Nat} {other : Expr} {value' : Int},
      other.Exact state'.store scope' value' →
      ((∃ result, tree.evaluate calling scope state = .ok result state ∧
        other.evaluate calling scope' state' = .ok result state') ↔
          value % 0x10000000000000000 = value' % 0x10000000000000000) := by
  refine ⟨exact.evaluate calling, fun exact' => ?_⟩
  rw [exact.evaluate calling, exact'.evaluate calling, ← wrap_eq_iff]
  constructor
  · rintro ⟨result, same, same'⟩
    injection same with first
    injection same' with second
    injection first.trans second.symm
  · intro same
    exact ⟨.integer (wrap value), rfl, by rw [same]⟩

/-- With the greatest integer for `a` the sum `a + 1` overflows, and `a + 1 - (a + -1)` is the same
as `2` for all that. -/
theorem overflow_cancels_out :
    let store : Store := ⟨#[⟨none, [("a", .integer 0x7fffffffffffffff)]⟩]⟩
    let name := Expr.identifier ⟨⟨.ident, "a", ⟨1, 1⟩⟩, "a"⟩
    let one := Expr.integer ⟨.int, "1", ⟨1, 5⟩⟩ 1
    let tree := Expr.binary ⟨.minus, "-", ⟨1, 7⟩⟩
      (.binary ⟨.plus, "+", ⟨1, 3⟩⟩ name .plus one) .minus
      (.binary ⟨.plus, "+", ⟨1, 12⟩⟩ name .plus (.unary ⟨.minus, "-", ⟨1, 14⟩⟩ .minus one))
    let state : State := ⟨store, [], .start 0⟩
    tree.Exact store 0 (0x7fffffffffffffff + 1 - (0x7fffffffffffffff + -1)) ∧
    tree.evaluate (applyWithin 0) 0 state = .ok (.integer 2) state ∧
    ∃ result, tree.evaluate (applyWithin 0) 0 state = .ok result state ∧
      (Expr.integer ⟨.int, "2", ⟨1, 1⟩⟩ 2).evaluate (applyWithin 0) 0 state = .ok result state := by
  intro store name one tree state
  have bound : store.find? 0 "a" = some (.integer 0x7fffffffffffffff) := by
    rw [Store.find?]
    rfl
  have greatest : name.Exact store 0 0x7fffffffffffffff :=
    .identifier bound ⟨by decide, by decide⟩
  have unit : one.Exact store 0 1 := .integer _ ⟨by decide, by decide⟩
  have exact : tree.Exact store 0 (0x7fffffffffffffff + 1 - (0x7fffffffffffffff + -1)) :=
    .difference _ (.sum _ greatest unit) (.sum _ greatest (.negative _ unit))
  have two : (Expr.integer ⟨.int, "2", ⟨1, 1⟩⟩ 2).Exact store 0 2 :=
    .integer _ ⟨by decide, by decide⟩
  obtain ⟨computed, others⟩ :=
    @overflow_on_the_way_does_not_matter state 0 tree _ exact (applyWithin 0)
  exact ⟨exact, computed, (@others state 0 _ _ two).mpr rfl⟩

end Monkey

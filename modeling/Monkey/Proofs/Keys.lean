import Mathlib
import Monkey.Session

/-!
Hash keys and equality. A hash compares the keys of its entries by kind and a 64-bit number. For
integers and truth values that number tells the value, so a hash finds a value under just the keys
that are equal to it. The number of a text is a digest: equal texts have equal digests, but two
different texts may have the same one, and then each is found under the other.
-/

namespace Monkey

/-- Every integer of the language has a number of its own. -/
theorem HashKey.eq_of_ofInteger {first second : Int} (low : -0x8000000000000000 ≤ first)
    (high : first < 0x8000000000000000) (low' : -0x8000000000000000 ≤ second)
    (high' : second < 0x8000000000000000) (same : ofInteger first = ofInteger second) :
    first = second := by
  have numbers : UInt64.ofInt first = UInt64.ofInt second := congrArg HashKey.number same
  -- The numbers are remainders by 2^64, and the range is no longer than that.
  have remainders := congrArg UInt64.toNat numbers
  simp only [UInt64.ofInt, UInt64.toNat_ofNat'] at remainders
  omega

theorem HashKey.eq_of_ofBoolean {first second : Bool} (same : ofBoolean first = ofBoolean second) :
    first = second := by
  cases first <;> cases second <;> first
    | rfl
    | exact absurd same (by decide)

namespace Value

/-- What can be the key of an entry. -/
inductive Key : Value → Prop
  | integer {value : Int} (low : -0x8000000000000000 ≤ value) (high : value < 0x8000000000000000) :
      Key (integer value)
  | boolean (value : Bool) : Key (boolean value)
  | string (text : String) : Key (string text)

/-- Two different texts of which the bytes have the same digest. -/
def Collides : Value → Value → Prop
  | string first, string second =>
    first ≠ second ∧ fnv1a first.toUTF8.data.toList = fnv1a second.toUTF8.data.toList
  | _, _ => False

/-- The language takes two values for equal ones of the same kind. -/
def Equals (first second : Value) : Prop :=
  first.kind = second.kind ∧ binary first .equal second = .ok (boolean true)

variable {first second : Value}

theorem Key.equals_iff (key : first.Key) (key' : second.Key) :
    first.Equals second ↔ first = second := by
  cases key <;> cases key' <;>
    simp [Equals, kind, binary, integerBinary, booleanBinary, stringBinary]

/-- Which keys a hash takes for the same one. -/
theorem Key.hashKey?_eq_iff (key : first.Key) (key' : second.Key) :
    first.hashKey? = second.hashKey? ↔ first.Equals second ∨ first.Collides second := by
  rw [key.equals_iff key']
  cases key with
  | @integer value low high =>
    cases key' with
    | @integer other low' high' =>
      simp only [hashKey?, Collides, or_false, Option.some.injEq, Value.integer.injEq]
      exact ⟨HashKey.eq_of_ofInteger low high low' high', congrArg _⟩
    | _ => simp [hashKey?, Collides, HashKey.ofInteger, HashKey.ofBoolean, HashKey.ofString]
  | boolean value =>
    cases key' with
    | boolean other =>
      simp only [hashKey?, Collides, or_false, Option.some.injEq, Value.boolean.injEq]
      exact ⟨HashKey.eq_of_ofBoolean, congrArg _⟩
    | _ => simp [hashKey?, Collides, HashKey.ofInteger, HashKey.ofBoolean, HashKey.ofString]
  | string text =>
    cases key' with
    | string other =>
      simp only [hashKey?, Collides, HashKey.ofString, Option.some.injEq, HashKey.mk.injEq,
        true_and, Value.string.injEq]
      by_cases same : text = other <;> simp [same]
    | _ => simp [hashKey?, Collides, HashKey.ofInteger, HashKey.ofBoolean, HashKey.ofString]

theorem Key.exists_hashKey (key : first.Key) : ∃ hashKey, first.hashKey? = some hashKey := by
  cases key <;> exact ⟨_, rfl⟩

end Value

section
variable {calling : Calling} {scope : Nat} {before afterKey afterValue after : State}
variable {keyExpr valueExpr positionExpr : Expr} {key value position : Value}

/-- What the hash of one entry has under a key. -/
theorem evaluate_index_of_single (opening bracket : Token) {hashKey wanted : HashKey}
    (hashed : key.hashKey? = some hashKey) (asked : position.hashKey? = some wanted)
    (first : keyExpr.evaluate calling scope before = .ok key afterKey)
    (second : valueExpr.evaluate calling scope afterKey = .ok value afterValue)
    (third : positionExpr.evaluate calling scope afterValue = .ok position after) :
    (Expr.index bracket (.hash opening [(keyExpr, valueExpr)]) positionExpr).evaluate calling scope
        before =
      Evaluation.settle (if hashKey = wanted then value else .null) after := by
  have literal : (Expr.hash opening [(keyExpr, valueExpr)]).evaluate calling scope before =
      .ok (.hash [⟨hashKey, key, value⟩]) afterValue := by
    simp [Expr.evaluate, Expr.evaluatePairs, bind, EStateM.bind, first, second, hashed, pure,
      EStateM.pure, Entry.insert]
  have found : (Value.hash [⟨hashKey, key, value⟩]).index position =
      .ok (if hashKey = wanted then value else .null) := by
    simp only [Value.index, asked, Entry.find?, List.find?_cons, List.find?_nil]
    by_cases same : hashKey = wanted <;> simp [same]
  unfold Expr.evaluate
  simp only [bind, EStateM.bind, literal, third, found, Evaluation.answer]

/-- A hash of one entry has the value under the keys that the language takes for equal to the key it
was given, and under texts with the digest of that key. Under every other key it has nothing. -/
theorem index_of_single_agrees_with_equality (opening bracket : Token) (keyed : key.Key)
    (positioned : position.Key) (settled : value.isError = false)
    (first : keyExpr.evaluate calling scope before = .ok key afterKey)
    (second : valueExpr.evaluate calling scope afterKey = .ok value afterValue)
    (third : positionExpr.evaluate calling scope afterValue = .ok position after) :
    (key.hashKey? = position.hashKey? ↔ key.Equals position ∨ key.Collides position) ∧
    (key.Equals position ∨ key.Collides position →
      (Expr.index bracket (.hash opening [(keyExpr, valueExpr)]) positionExpr).evaluate calling
        scope before = .ok value after) ∧
    (¬ (key.Equals position ∨ key.Collides position) →
      (Expr.index bracket (.hash opening [(keyExpr, valueExpr)]) positionExpr).evaluate calling
        scope before = .ok .null after) := by
  have same := keyed.hashKey?_eq_iff positioned
  obtain ⟨hashKey, hashed⟩ := keyed.exists_hashKey
  obtain ⟨wanted, asked⟩ := positioned.exists_hashKey
  have outcome := evaluate_index_of_single opening bracket hashed asked first second third
  refine ⟨same, fun either => ?_, fun neither => ?_⟩
  · have found : hashKey = wanted := by
      have keys := same.mpr either
      rw [hashed, asked] at keys
      exact Option.some.inj keys
    rw [outcome, if_pos found]
    cases value <;> first
      | rfl
      | cases settled
  · have missing : hashKey ≠ wanted := by
      intro found
      apply neither
      rw [← same, hashed, asked, found]
    rw [outcome, if_neg missing]
    rfl

end

/-- The keys `1` and `true` have the same number, but are of different kinds. -/
theorem one_is_not_found_under_true :
    ((Value.integer 1).hashKey? = (Value.boolean true).hashKey? ↔
      (Value.integer 1).Equals (.boolean true) ∨ (Value.integer 1).Collides (.boolean true)) ∧
    ((Value.integer 1).Equals (.boolean true) ∨ (Value.integer 1).Collides (.boolean true) →
      (Expr.index ⟨.leftBracket, "[", .start⟩ (.hash ⟨.leftBrace, "\x7b", .start⟩
        [(.integer ⟨.int, "1", .start⟩ 1, .integer ⟨.int, "2", .start⟩ 2)])
        (.boolean ⟨.trueKeyword, "true", .start⟩ true)).evaluate (applyWithin 0) 0 (State.fresh 0) =
          .ok (.integer 2) (State.fresh 0)) ∧
    (¬ ((Value.integer 1).Equals (.boolean true) ∨ (Value.integer 1).Collides (.boolean true)) →
      (Expr.index ⟨.leftBracket, "[", .start⟩ (.hash ⟨.leftBrace, "\x7b", .start⟩
        [(.integer ⟨.int, "1", .start⟩ 1, .integer ⟨.int, "2", .start⟩ 2)])
        (.boolean ⟨.trueKeyword, "true", .start⟩ true)).evaluate (applyWithin 0) 0 (State.fresh 0) =
          .ok .null (State.fresh 0)) :=
  index_of_single_agrees_with_equality _ _ (.integer (by decide) (by decide)) (.boolean true) rfl
    rfl rfl rfl

/-- Two different texts of one digest: the value filed under the one is found under the other. -/
theorem text_is_found_under_another :
    ¬ (Value.string "8yn0iYCKYHlIj4-BwPqk").Equals (.string "GReLUrM4wMqfg9yzV3KQ") ∧
    (runText callDepth 0
      "\x7b\"8yn0iYCKYHlIj4-BwPqk\": 1\x7d[\"GReLUrM4wMqfg9yzV3KQ\"]").map
        (fun outcome => outcome.1) = .ok (.value (.integer 1)) := by
  constructor
  · simp [Value.Equals, Value.binary, Value.stringBinary, Value.kind]
  · cbv

end Monkey

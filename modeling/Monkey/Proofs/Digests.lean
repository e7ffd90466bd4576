import Monkey.Proofs.HashLiterals

/-!
Digests of texts that are nearly the same. A step of the digest loses nothing: for each byte it is
one to one on digests, since the factor is odd, and from each digest it takes different bytes to
different digests. So the difference of one byte is there to the end, however much comes after it.
-/

namespace Monkey

/-- Two rows of one length that differ in exactly one position. -/
structure DifferOnce {α : Type} (first second : List α) : Prop where
  length : first.length = second.length
  once : ∃! position : Nat, first[position]? ≠ second[position]?

/-- What comes before and after the one position is the same. -/
theorem differOnce_iff {α : Type} {first second : List α} : DifferOnce first second ↔
    ∃ front one other back, first = front ++ one :: back ∧ second = front ++ other :: back ∧
      one ≠ other := by
  constructor
  · rintro ⟨length, position, unequal, unique⟩
    induction first generalizing second position with
    | nil =>
      obtain rfl := List.length_eq_zero_iff.mp length.symm
      exact absurd rfl unequal
    | cons one rest ih =>
      obtain _ | ⟨other, rest'⟩ := second
      · cases length
      cases position with
      | zero =>
        have same : rest = rest' := by
          refine List.ext_getElem? fun later => ?_
          by_contra unlike
          exact absurd (unique (later + 1) unlike) (Nat.succ_ne_zero later)
        exact ⟨[], one, other, rest', same ▸ rfl, rfl, fun same => unequal (congrArg some same)⟩
      | succ position =>
        have same : one = other := by
          by_contra unlike
          exact absurd (unique 0 fun same => unlike (Option.some.inj same)) (Nat.zero_ne_add_one _)
        obtain ⟨front, one', other', back, split, split', unlike⟩ :=
          ih (Nat.succ.inj length) position unequal
            fun later unlike => Nat.succ.inj (unique (later + 1) unlike)
        exact ⟨one :: front, one', other', back, congrArg (one :: ·) split,
          same ▸ congrArg (one :: ·) split', unlike⟩
  · rintro ⟨front, one, other, back, rfl, rfl, unlike⟩
    refine ⟨by simp, front.length, by simpa using unlike, fun position unequal => ?_⟩
    by_contra apart
    refine unequal ?_
    rw [List.getElem?_append, List.getElem?_append]
    split
    · rfl
    · obtain ⟨later, further⟩ := Nat.exists_eq_succ_of_ne_zero
        (show position - front.length ≠ 0 by omega)
      rw [further]
      rfl

/-! Digests of bytes. -/

/-- The digest on numbers without a bound. After each byte what is above 64 bits is cut off. -/
def digestStepwise (bytes : List UInt8) : Nat :=
  bytes.foldl step 0xcbf29ce484222325
where
  step (digest : Nat) (byte : UInt8) : Nat :=
    ((digest ^^^ byte.toNat) * 0x100000001b3) &&& 0xffffffffffffffff

namespace fnv1a

theorem toNat_mix (digest : UInt64) (byte : UInt8) :
    (mix digest byte).toNat = digestStepwise.step digest.toNat byte := by
  unfold mix digestStepwise.step
  rw [UInt64.toNat_mul, UInt64.toNat_xor, UInt8.toNat_toUInt64]
  exact (Nat.and_two_pow_sub_one_eq_mod _ 64).symm

theorem toNat_foldl_mix (digest : UInt64) (bytes : List UInt8) :
    (bytes.foldl mix digest).toNat = bytes.foldl digestStepwise.step digest.toNat := by
  induction bytes generalizing digest with
  | nil => rfl
  | cons byte rest ih => rw [List.foldl_cons, List.foldl_cons, ih, toNat_mix]

/-- The factor has an inverse, so it can be divided out again. -/
theorem mul_factor_injective {digest other : UInt64}
    (same : digest * 0x100000001b3 = other * 0x100000001b3) : digest = other := by
  have inverse : (0x100000001b3 : UInt64) * 0xce965057aff6957b = 1 := by decide
  have divided := congrArg (· * 0xce965057aff6957b) same
  simpa only [UInt64.mul_assoc, inverse, UInt64.mul_one] using divided

theorem mix_injective (byte : UInt8) : Function.Injective (mix · byte) := by
  intro digest other same
  exact (UInt64.xor_left_inj _).mp (mul_factor_injective same)

theorem mix_injective_byte (digest : UInt64) : Function.Injective (mix digest) := by
  intro byte other same
  exact UInt8.toUInt64_inj.mp ((UInt64.xor_right_inj _).mp (mul_factor_injective same))

/-- Digests that differ are still different after any bytes, by induction on these. -/
theorem foldl_mix_injective (bytes : List UInt8) : Function.Injective (bytes.foldl mix ·) := by
  induction bytes with
  | nil => exact fun _ _ => id
  | cons byte rest ih => exact fun _ _ same => mix_injective byte (ih same)

end fnv1a

theorem toNat_fnv1a (bytes : List UInt8) : (fnv1a bytes).toNat = digestStepwise bytes :=
  fnv1a.toNat_foldl_mix _ bytes

theorem fnv1a_ne {one other : UInt8} (unlike : one ≠ other) (front back : List UInt8) :
    fnv1a (front ++ one :: back) ≠ fnv1a (front ++ other :: back) := by
  unfold fnv1a
  rw [List.foldl_append, List.foldl_append]
  intro same
  exact unlike (fnv1a.mix_injective_byte _ (fnv1a.foldl_mix_injective back same))

/-! Keys. -/

def Ascii (text : String) : Prop := ∀ c ∈ text.toList, c.toNat < 128

/-- A text of ASCII characters has one byte for each of them. -/
theorem Ascii.bytes_eq {text : String} (ascii : Ascii text) :
    text.toUTF8.data.toList = text.toList.map fun c => UInt8.ofNat c.toNat := by
  have encoded (c : Char) (member : c ∈ text.toList) :
      String.utf8EncodeChar c = [UInt8.ofNat c.toNat] := by
    have small : c.val.toNat ≤ 127 := Nat.le_of_lt_succ (ascii c member)
    simp only [String.utf8EncodeChar, if_pos small]
    rfl
  rw [String.toUTF8, ← String.utf8Encode_toList, List.utf8Encode, List.data_toByteArray,
    List.flatMap_congr encoded, List.map_eq_flatMap]

/-- Texts of ASCII characters that differ in one of them have different keys. -/
theorem HashKey.ofString_ne {first second : String} (ascii : Ascii first) (ascii' : Ascii second)
    (differ : DifferOnce first.toList second.toList) : ofString first ≠ ofString second := by
  obtain ⟨front, one, other, back, split, split', unlike⟩ := differOnce_iff.mp differ
  have low : one.toNat < 128 := ascii one (by simp [split])
  have low' : other.toNat < 128 := ascii' other (by simp [split'])
  have bytes : UInt8.ofNat one.toNat ≠ UInt8.ofNat other.toNat := by
    intro same
    have numbers := congrArg UInt8.toNat same
    simp only [UInt8.toNat_ofNat'] at numbers
    exact unlike (Char.toNat_inj.mp (by omega))
  intro same
  have digests := congrArg HashKey.number same
  simp only [ofString, ascii.bytes_eq, ascii'.bytes_eq, split, split', List.map_append,
    List.map_cons] at digests
  exact fnv1a_ne bytes _ _ digests

/-- A pair with another key does not count for what is filed under a key. -/
theorem Value.lastFiled?_of_other {pair : Value × Value} {wanted : HashKey}
    (other : pair.1.hashKey? ≠ some wanted) (front back : List (Value × Value)) :
    lastFiled? (front ++ pair :: back) wanted = lastFiled? (front ++ back) wanted := by
  unfold lastFiled?
  rw [List.filter_append, List.filter_append, List.filter_cons_of_neg (by simpa using other)]

/-- Bytes that differ in one place, wherever that is and however many there are, have different
digests, all of which are numbers of 64 bits. So texts of ASCII characters that differ in one of
them are different keys: in any hash literal a pair with the one text changes nothing about what is
found under the other. -/
theorem near_texts_are_kept_apart :
    (∀ bytes, (fnv1a bytes).toNat = digestStepwise bytes ∧
      digestStepwise bytes ≤ 2 ^ 64 - 1) ∧
    (∀ first second, DifferOnce first second → digestStepwise first ≠ digestStepwise second) ∧
    ∀ first second : String, Ascii first → Ascii second → DifferOnce first.toList second.toList →
      HashKey.ofString first ≠ HashKey.ofString second ∧
      ∀ (calling : Calling) (scope : Nat) (before after last : State) (list : List (Expr × Expr))
        (front back : List (Value × Value)) (value : Value) (positionExpr : Expr),
        Yields calling scope before list (front ++ (.string first, value) :: back) after →
        positionExpr.evaluate calling scope after = .ok (.string second) last →
        ∀ opening bracket,
          (Expr.index bracket (.hash opening list) positionExpr).evaluate calling scope before =
            .ok (((Value.lastFiled? (front ++ back) (.ofString second)).map Prod.snd).getD .null)
              last := by
  refine ⟨fun bytes => ?_, fun first second differ same => ?_, ?_⟩
  · rw [← toNat_fnv1a]
    exact ⟨rfl, Nat.le_pred_of_lt (UInt64.toNat_lt _)⟩
  · obtain ⟨front, one, other, back, rfl, rfl, unlike⟩ := differOnce_iff.mp differ
    rw [← toNat_fnv1a, ← toNat_fnv1a] at same
    exact fnv1a_ne unlike front back (UInt64.toNat_inj.mp same)
  · intro first second ascii ascii' differ
    have unlike := HashKey.ofString_ne ascii ascii' differ
    refine ⟨unlike, ?_⟩
    intro calling scope before after last list front back value positionExpr yields third opening
      bracket
    have other : (Value.string first).hashKey? ≠ some (.ofString second) :=
      fun same => unlike (Option.some.inj same)
    rw [yields.evaluate_index opening bracket third rfl, Value.lastFiled?_of_other other]

/-- The pairs of `{"ab": 1, "ac": 2}`. -/
def nearPairs : List (Expr × Expr) :=
  [(.string ⟨.string, "ab", .start⟩ "ab", .integer ⟨.int, "1", .start⟩ 1),
    (.string ⟨.string, "ac", .start⟩ "ac", .integer ⟨.int, "2", .start⟩ 2)]

/-- The last characters differ, and each text has its own value. -/
theorem near_names_are_kept_apart :
    DifferOnce "ab".toList "ac".toList ∧ Ascii "ab" ∧ Ascii "ac" ∧
    Yields (applyWithin 0) 0 (State.fresh 0) nearPairs
      [(.string "ab", .integer 1), (.string "ac", .integer 2)] (State.fresh 0) ∧
    digestStepwise [97, 98] ≠ digestStepwise [97, 99] ∧
    (Expr.index ⟨.leftBracket, "[", .start⟩ (.hash ⟨.leftBrace, "\x7b", .start⟩ nearPairs)
      (.string ⟨.string, "ac", .start⟩ "ac")).evaluate (applyWithin 0) 0 (State.fresh 0) =
        .ok (.integer 2) (State.fresh 0) ∧
    (Expr.index ⟨.leftBracket, "[", .start⟩ (.hash ⟨.leftBrace, "\x7b", .start⟩ nearPairs)
      (.string ⟨.string, "ab", .start⟩ "ab")).evaluate (applyWithin 0) 0 (State.fresh 0) =
        .ok (.integer 1) (State.fresh 0) := by
  have differ : DifferOnce "ab".toList "ac".toList :=
    differOnce_iff.mpr ⟨['a'], 'b', 'c', [], rfl, rfl, by decide⟩
  have differ' : DifferOnce "ac".toList "ab".toList :=
    differOnce_iff.mpr ⟨['a'], 'c', 'b', [], rfl, rfl, by decide⟩
  have ascii : Ascii "ab" := by simp [Ascii]
  have ascii' : Ascii "ac" := by simp [Ascii]
  have yields : Yields (applyWithin 0) 0 (State.fresh 0) nearPairs
      [(.string "ab", .integer 1), (.string "ac", .integer 2)] (State.fresh 0) :=
    .cons rfl rfl rfl rfl (.cons rfl rfl rfl rfl (.nil _))
  obtain ⟨-, bytes, texts⟩ := near_texts_are_kept_apart
  refine ⟨differ, ascii, ascii', yields, ?_, ?_, ?_⟩
  · exact bytes _ _ (differOnce_iff.mpr ⟨[97], 98, 99, [], rfl, rfl, by decide⟩)
  · exact (texts _ _ ascii ascii' differ).2 _ _ _ _ _ _ [] _ _ _ yields rfl _ _
  · exact (texts _ _ ascii' ascii differ').2 _ _ _ _ _ _ [_] [] _ _ yields rfl _ _

end Monkey

import Mathlib.Data.Int.Basic
import Monkey.Evaluation

/-!
Steps that a machine cannot always take: to pick an element by its place, to cut a stretch out of a
list, to divide. Here such a step has no result where it must not be taken. The operations that take
one are spelled out below, and each of them has its result for all operands, so it takes the step
only where it may.
-/

namespace Monkey

/-! The steps. -/

section
variable {α : Type} (elements : List α)

/-- The element at a place, which counts from the far end when it is negative. -/
def item? (place : Int) : Option α :=
  if 0 ≤ place then elements[place.toNat]?
  else if 0 ≤ place + elements.length then elements[(place + elements.length).toNat]?
  else none

/-- The elements between two places. -/
def between? (start stop : Int) : Option (List α) :=
  if 0 ≤ start ∧ start ≤ stop ∧ stop ≤ elements.length then
    some ((elements.drop start.toNat).take (stop - start).toNat)
  else none

theorem item?_of_nonneg {place : Int} (low : 0 ≤ place) :
    item? elements place = elements[place.toNat]? := if_pos low

end

/-- The quotient rounded down. -/
def quotient? (left right : Int) : Option Int :=
  if right = 0 then none else some (left.fdiv right)

/-- What a division that is rounded down leaves over. -/
def remainder? (left right : Int) : Option Int :=
  if right = 0 then none else some (left.fmod right)

/-! The operations. -/

namespace Value

def divideStepwise (left right : Int) : Option (Except Fault Value) :=
  if right = 0 then some (.error .divisionByZero)
  else do
    let size ← quotient? left.natAbs right.natAbs
    let quotient := if (left < 0) = (right < 0) then size else -size
    pure (.ok (integer (Integer.wrap quotient)))

def indexStepwise (left position : Value) : Option (Except Fault Value) :=
  match left, position with
  | array elements, integer position =>
    if elements = [] then some (.ok null)
    else do
      let place ← remainder? position elements.length
      let value ← item? elements place
      pure (.ok value)
  | left, position => some (left.index position)

def stretchStepwise (elements : List Value) (lower upper : Int) : Option (List Value) :=
  match normalizeBound lower elements.length, normalizeBound upper elements.length with
  | some start, some stop => if stop ≤ start then some [] else between? elements start stop
  | _, _ => some []

def sliceStepwise (left : Value) (lower upper : Option Value) : Option (Except Fault Value) :=
  match left with
  | array elements =>
    match boundOr 0 lower, boundOr elements.length upper with
    | some start, some stop => do
      let part ← stretchStepwise elements start stop
      pure (.ok (array part))
    | _, _ => some (left.slice lower upper)
  | left => some (left.slice lower upper)

/-- A quotient is rounded toward zero by dividing the sizes and seeing to the sign afterwards. -/
theorem signed_quotient (left right : Int) :
    (if (left < 0) = (right < 0) then (left.natAbs : Int).fdiv right.natAbs
      else -(left.natAbs : Int).fdiv right.natAbs) = left.tdiv right := by
  have size : (left.natAbs : Int).fdiv right.natAbs = (left.natAbs : Int).tdiv right.natAbs := by
    rw [Int.fdiv_eq_ediv_of_nonneg _ (Int.natCast_nonneg _)]
    rw [Int.tdiv_eq_ediv_of_nonneg (Int.natCast_nonneg _)]
  rw [size]
  by_cases negative : left < 0 <;> by_cases divided : right < 0
  · rw [if_pos (by simp [negative, divided])]
    rw [Int.ofNat_natAbs_of_nonpos (by omega), Int.ofNat_natAbs_of_nonpos (by omega)]
    rw [Int.neg_tdiv_neg]
  · rw [if_neg (by simp [negative, divided])]
    rw [Int.ofNat_natAbs_of_nonpos (by omega), Int.natAbs_of_nonneg (by omega)]
    rw [Int.neg_tdiv, Int.neg_neg]
  · rw [if_neg (by simp [negative, divided])]
    rw [Int.natAbs_of_nonneg (by omega), Int.ofNat_natAbs_of_nonpos (by omega)]
    rw [Int.tdiv_neg, Int.neg_neg]
  · rw [if_pos (by simp [negative, divided])]
    rw [Int.natAbs_of_nonneg (by omega), Int.natAbs_of_nonneg (by omega)]

theorem divideStepwise_eq (left right : Int) :
    divideStepwise left right = some (integerBinary .divide left right) := by
  unfold divideStepwise integerBinary Integer.divide?
  by_cases zero : right = 0
  · simp [zero]
  · simp only [zero, if_false, quotient?, Int.natCast_eq_zero, Int.natAbs_eq_zero,
      Option.bind_eq_bind, Option.bind_some, signed_quotient]
    rfl

theorem indexStepwise_eq (left position : Value) :
    indexStepwise left position = some (left.index position) := by
  unfold indexStepwise
  split
  · rename_i elements position
    split
    · rename_i empty
      subst empty
      rfl
    · rename_i filled
      have length : (elements.length : Int) ≠ 0 := by
        exact mt (fun none => List.eq_nil_of_length_eq_zero (Int.ofNat_inj.mp none)) filled
      have low := Int.emod_nonneg position length
      have high := Int.emod_lt_of_pos position (by omega : (0 : Int) < elements.length)
      have inside : (position % elements.length).toNat < elements.length := by omega
      have rounded := Int.fmod_eq_emod_of_nonneg position (Int.natCast_nonneg elements.length)
      simp only [remainder?, if_neg length, rounded, Option.bind_eq_bind, Option.bind_some,
        item?_of_nonneg elements low, index, element, List.getElem?_eq_getElem inside,
        Option.getD_some]
      rfl
  · rfl

/-- Bounds that are not refused lie within the list. -/
theorem of_normalizeBound {bound length counted : Int}
    (fits : normalizeBound bound length = some counted) : 0 ≤ counted ∧ counted ≤ length := by
  unfold normalizeBound at fits
  generalize (if bound < 0 then bound + length else bound) = place at fits
  by_cases inside : 0 ≤ place ∧ place ≤ length
  · rw [if_pos inside] at fits
    cases fits
    exact inside
  · rw [if_neg inside] at fits
    cases fits

theorem stretchStepwise_eq (elements : List Value) (lower upper : Int) :
    stretchStepwise elements lower upper = some (stretch elements lower upper) := by
  unfold stretchStepwise stretch
  cases begins : normalizeBound lower elements.length with
  | none => rfl
  | some start =>
    cases ends : normalizeBound upper elements.length with
    | none => rfl
    | some stop =>
      have low := of_normalizeBound begins
      have high := of_normalizeBound ends
      dsimp only
      by_cases backwards : stop ≤ start
      · rw [if_pos backwards, List.drop_eq_nil_of_le]
        rw [List.length_take]
        omega
      · rw [if_neg backwards, between?, if_pos (by omega), List.drop_take, Int.toNat_sub'']
        all_goals omega

theorem sliceStepwise_eq (left : Value) (lower upper : Option Value) :
    sliceStepwise left lower upper = some (left.slice lower upper) := by
  unfold sliceStepwise
  split
  · rename_i elements
    unfold slice
    split
    · rename_i start stop begins ends
      rw [stretchStepwise_eq]
      dsimp only
      rw [begins, ends]
      rfl
    · rfl
  · rfl

end Value

namespace Builtin

/-- Goes on with the arguments if there are as many as there have to be. -/
def counted (wanted : Nat) (arguments : List Value)
    (further : Option (Except Fault Value)) : Option (Except Fault Value) :=
  if arguments.length = wanted then further
  else some (.error (.wrongCount arguments.length wanted))

/-- Picks the one argument and goes on with its elements. -/
def ofElements (builtin : Builtin) (arguments : List Value)
    (further : List Value → Option Value) : Option (Except Fault Value) :=
  counted 1 arguments do
    match ← item? arguments 0 with
    | .array elements => (further elements).map .ok
    | value => pure (.error (.notAnArray builtin value.kind))

/-- What a builtin function gives, whatever it prints. -/
def applyStepwise (builtin : Builtin) (arguments : List Value) : Option (Except Fault Value) :=
  match builtin with
  | len => counted 1 arguments do
    match ← item? arguments 0 with
    | .string text => pure (.ok (.integer text.utf8ByteSize))
    | .array elements => pure (.ok (.integer elements.length))
    | value => pure (.error (.noLength value.kind))
  | push => counted 2 arguments do
    match ← item? arguments 0 with
    | .array elements =>
      let value ← item? arguments 1
      pure (.ok (.array (elements ++ [value])))
    | value => pure (.error (.notAnArray push value.kind))
  | puts => some (.ok .null)
  | first => ofElements first arguments fun elements =>
    if elements = [] then some .null else item? elements 0
  | last => ofElements last arguments fun elements =>
    if elements = [] then some .null else item? elements (-1)
  | rest => ofElements rest arguments fun elements =>
    if elements = [] then some .null else
      (between? elements 1 elements.length).map Value.array

theorem counted_of_ne {wanted : Nat} {arguments : List Value}
    (further : Option (Except Fault Value)) (other : arguments.length ≠ wanted) :
    counted wanted arguments further = some (.error (.wrongCount arguments.length wanted)) :=
  if_neg other

/-- A list of one argument has the argument; other lists are refused. -/
theorem counted_one (arguments : List Value) (further : Value → Option (Except Fault Value)) :
    counted 1 arguments (item? arguments 0 >>= further) =
      match single arguments with
      | .ok value => further value
      | .error cause => some (.error cause) := by
  rcases arguments with _ | ⟨value, _ | ⟨other, others⟩⟩
  · rfl
  · rfl
  · exact counted_of_ne _ (show others.length + 2 ≠ 1 by omega)

theorem ofElements_eq (builtin : Builtin) (arguments : List Value)
    {further : List Value → Option Value} {change : List Value → Value}
    (always : ∀ values, further values = some (change values)) :
    ofElements builtin arguments further = some ((elements builtin arguments).map change) := by
  unfold ofElements
  rw [counted_one]
  unfold elements
  cases single arguments with
  | error cause => rfl
  | ok value =>
    cases value with
    | array values =>
      dsimp only
      rw [always]
      rfl
    | _ => rfl

/-- What a builtin function prints. -/
def prints (builtin : Builtin) (arguments : List Value) : Evaluation Unit :=
  match builtin with
  | puts => printAll arguments
  | _ => pure ()

theorem applyStepwise_eq (builtin : Builtin) (arguments : List Value) :
    ∃ result, applyStepwise builtin arguments = some result ∧
      builtin.apply arguments = (do builtin.prints arguments; Evaluation.answer result) := by
  cases builtin with
  | len =>
    refine ⟨length arguments, ?_, rfl⟩
    unfold applyStepwise length
    dsimp only
    rw [counted_one]
    cases single arguments with
    | error cause => rfl
    | ok value => cases value <;> rfl
  | push =>
    refine ⟨pushed arguments, ?_, rfl⟩
    unfold applyStepwise
    dsimp only
    rcases arguments with _ | ⟨left, _ | ⟨value, _ | ⟨other, others⟩⟩⟩
    · rfl
    · rw [counted_of_ne _ (by simp)]
      cases left <;> rfl
    · cases left <;> rfl
    · rw [counted_of_ne _ (by simp)]
      cases left <;> rfl
  | puts => exact ⟨_, rfl, rfl⟩
  | first =>
    refine ⟨_, ofElements_eq first arguments (fun values => ?_), rfl⟩
    cases values <;> rfl
  | last =>
    refine ⟨_, ofElements_eq last arguments (fun values => ?_), rfl⟩
    cases values with
    | nil => rfl
    | cons value values =>
      have inside : 0 ≤ (-1 : Int) + (value :: values).length := by
        rw [List.length_cons]
        omega
      have place : (-1 + (value :: values).length : Int).toNat = (value :: values).length - 1 := by
        rw [List.length_cons]
        omega
      rw [if_neg (List.cons_ne_nil _ _), item?, if_neg (by decide), if_pos inside, place]
      rw [← List.getLast?_eq_getElem?, List.getLast?_eq_some_getLast (List.cons_ne_nil _ _)]
      rfl
  | rest =>
    refine ⟨_, ofElements_eq rest arguments (fun values => ?_), rfl⟩
    cases values with
    | nil => rfl
    | cons value values =>
      have inside : (0 : Int) ≤ 1 ∧ (1 : Int) ≤ (value :: values).length ∧
          ((value :: values).length : Int) ≤ (value :: values).length := by
        rw [List.length_cons]
        omega
      rw [if_neg (List.cons_ne_nil _ _), between?, if_pos inside, List.take_of_length_le]
      · rfl
      · rw [List.length_drop, List.length_cons]
        omega

end Builtin
end Monkey

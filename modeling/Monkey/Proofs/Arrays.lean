import Monkey.Proofs.Visits

/-!
Arrays. An index goes round an array as often as it takes, a bound of a slice only once, and the
builtin functions have rules of their own. For all that they agree with one another: on where an
array is divided, on what its first and last elements are and on how long its parts are.
-/

namespace Monkey

open Evaluation

/-- From every state the evaluation comes to this value, and nothing else comes of it. -/
def Evaluation.Gives (evaluation : Evaluation Value) (value : Value) : Prop :=
  ∀ state, evaluation.finish state = (.value value, state)

/-- An error too is a value, as it is for what comes after. -/
theorem Evaluation.gives_answer (value : Value) : (answer (.ok value)).Gives value := by
  intro state
  cases value <;> rfl

/-! Bounds. -/

/-- Where a bound stands in a list of this length. Negative bounds count from the far end. -/
def placeIn (length : Nat) (bound : Int) : Int := if bound < 0 then bound + length else bound

section
variable {length : Nat} {bound : Int}

theorem placeIn_of_nonneg (low : 0 ≤ bound) : placeIn length bound = bound :=
  if_neg (Int.not_lt.mpr low)

theorem placeIn_of_neg (negative : bound < 0) : placeIn length bound = bound + length :=
  if_pos negative

theorem placeIn_bounds (low : -length ≤ bound) (high : bound ≤ length) :
    0 ≤ placeIn length bound ∧ placeIn length bound ≤ length := by
  unfold placeIn
  split <;> omega

theorem normalizeBound_of_inside (low : -length ≤ bound) (high : bound ≤ length) :
    normalizeBound bound length = some (placeIn length bound) :=
  if_pos (placeIn_bounds low high)

theorem normalizeBound_of_outside (outside : ¬ (-length ≤ bound ∧ bound ≤ length)) :
    normalizeBound bound length = none := by
  have beyond : ¬ (0 ≤ placeIn length bound ∧ placeIn length bound ≤ length) := by
    unfold placeIn
    split <;> omega
  exact if_neg beyond

/-- An index that needs to go round no more than once meets the place of the bound. -/
theorem emod_eq_placeIn (low : -length ≤ bound) (high : bound < length) :
    bound % length = placeIn length bound := by
  unfold placeIn
  split
  · rw [← Int.add_emod_right]
    exact Int.emod_eq_of_lt (by omega) (by omega)
  · exact Int.emod_eq_of_lt (by omega) high

end

/-- The length of a list is a place in it, its end. -/
theorem placeIn_length (length : Nat) : placeIn length length = length :=
  placeIn_of_nonneg (Int.natCast_nonneg length)

namespace Value

variable {elements : List Value} {lower upper bound position : Int}

/-! Slices. -/

theorem stretch_of_inside (low : -elements.length ≤ lower ∧ lower ≤ elements.length)
    (high : -elements.length ≤ upper ∧ upper ≤ elements.length) :
    stretch elements lower upper =
      (elements.take (placeIn elements.length upper).toNat).drop
        (placeIn elements.length lower).toNat := by
  unfold stretch
  rw [normalizeBound_of_inside low.1 low.2, normalizeBound_of_inside high.1 high.2]

theorem stretch_of_outside (outside : ¬ (-elements.length ≤ lower ∧ lower ≤ elements.length) ∨
    ¬ (-elements.length ≤ upper ∧ upper ≤ elements.length)) :
    stretch elements lower upper = [] := by
  unfold stretch
  rcases outside with below | above
  · rw [normalizeBound_of_outside below]
  · rw [normalizeBound_of_outside above]
    cases normalizeBound lower elements.length <;> rfl

theorem stretch_from_start (inside : -elements.length ≤ bound ∧ bound ≤ elements.length) :
    stretch elements 0 bound = elements.take (placeIn elements.length bound).toNat := by
  rw [stretch_of_inside ⟨by omega, by omega⟩ inside, placeIn_of_nonneg (Int.le_refl 0)]
  rfl

theorem stretch_to_end (inside : -elements.length ≤ bound ∧ bound ≤ elements.length) :
    stretch elements bound elements.length =
      elements.drop (placeIn elements.length bound).toNat := by
  rw [stretch_of_inside inside ⟨by omega, by omega⟩, placeIn_length, Int.toNat_natCast,
    List.take_length]

theorem length_stretch (low : -elements.length ≤ lower ∧ lower ≤ elements.length)
    (high : -elements.length ≤ upper ∧ upper ≤ elements.length) :
    ((stretch elements lower upper).length : Int) =
      max 0 (placeIn elements.length upper - placeIn elements.length lower) := by
  have start := placeIn_bounds low.1 low.2
  have stop := placeIn_bounds high.1 high.2
  rw [stretch_of_inside low high, List.length_drop, List.length_take]
  omega

theorem stretch_next (low : -elements.length ≤ position) (high : position < elements.length)
    (notLast : position ≠ -1) :
    stretch elements position (position + 1) = [element elements position] := by
  have place := placeIn_bounds low (Int.le_of_lt high)
  have next : placeIn elements.length (position + 1) = placeIn elements.length position + 1 := by
    unfold placeIn
    split <;> split <;> omega
  have inside : (placeIn elements.length position).toNat < elements.length := by
    unfold placeIn at place ⊢
    split <;> omega
  rw [stretch_of_inside ⟨low, by omega⟩ ⟨by omega, by omega⟩, next, element,
    emod_eq_placeIn low high, Int.toNat_add place.1 (by decide)]
  generalize (placeIn elements.length position).toNat = start at inside ⊢
  rw [List.drop_take, List.drop_eq_getElem_cons inside, List.getElem?_eq_getElem inside]
  rw [show start + (1 : Int).toNat - start = 1 by omega, List.take_succ_cons, List.take_zero,
    Option.getD_some]

/-! Indices. -/

theorem element_of_filled (filled : 0 < elements.length) (position : Int) :
    ∃ inside : (position % elements.length).toNat < elements.length,
      element elements position = elements[(position % elements.length).toNat] := by
  have low := Int.emod_nonneg position (by omega : (elements.length : Int) ≠ 0)
  have high := Int.emod_lt_of_pos position (by omega : (0 : Int) < elements.length)
  have inside : (position % elements.length).toNat < elements.length := by omega
  exact ⟨inside, by rw [element, List.getElem?_eq_getElem inside, Option.getD_some]⟩

/-- The last place from the far end. -/
theorem toNat_placeIn_minus_one (length : Nat) : (placeIn length (-1)).toNat = length - 1 := by
  rw [placeIn_of_neg (by decide)]
  omega

theorem element_minus_one (filled : 0 < elements.length) :
    element elements (-1) = elements.getLast?.getD .null := by
  rw [element, emod_eq_placeIn (by omega) (by omega), toNat_placeIn_minus_one,
    List.getLast?_eq_getElem?]

theorem stretch_concat (elements : List Value) (value : Value) :
    stretch (elements ++ [value]) 0 (-1) = elements := by
  have length : (elements ++ [value]).length = elements.length + 1 := List.length_append
  rw [stretch_from_start (by omega), toNat_placeIn_minus_one, length, Nat.add_sub_cancel,
    List.take_left]

end Value

/-! Operations. -/

namespace Evaluation

/-- A slice of an array. Either bound may be left out. -/
def sliceOf (elements : List Value) (lower upper : Option Int) : Evaluation Value :=
  answer ((Value.array elements).slice (lower.map .integer) (upper.map .integer))

/-- An element of an array. -/
def elementOf (elements : List Value) (position : Int) : Evaluation Value :=
  answer ((Value.array elements).index (.integer position))

variable {elements part : List Value} {lower upper : Int}

theorem gives_slice (same : Value.stretch elements lower upper = part) :
    (sliceOf elements (some lower) (some upper)).Gives (.array part) :=
  same ▸ gives_answer _

theorem gives_front (same : Value.stretch elements 0 upper = part) :
    (sliceOf elements none (some upper)).Gives (.array part) :=
  same ▸ gives_answer _

theorem gives_back (same : Value.stretch elements lower elements.length = part) :
    (sliceOf elements (some lower) none).Gives (.array part) :=
  same ▸ gives_answer _

theorem gives_pick {position : Int} {value : Value}
    (same : Value.element elements position = value) : (elementOf elements position).Gives value :=
  same ▸ gives_answer _

end Evaluation

namespace Builtin

theorem gives_len (elements : List Value) :
    (len.apply [.array elements]).Gives (.integer elements.length) :=
  gives_answer (.integer elements.length)

theorem gives_first (head : Value) (tail : List Value) :
    (first.apply [.array (head :: tail)]).Gives head := gives_answer head

theorem gives_rest (head : Value) (tail : List Value) :
    (rest.apply [.array (head :: tail)]).Gives (.array tail) := gives_answer (.array tail)

theorem gives_last (elements : List Value) :
    (last.apply [.array elements]).Gives (elements.getLast?.getD .null) :=
  gives_answer (elements.getLast?.getD .null)

theorem gives_push (elements : List Value) (value : Value) :
    (push.apply [.array elements, value]).Gives (.array (elements ++ [value])) :=
  gives_answer (.array (elements ++ [value]))

end Builtin

/-- Slices, indices and the builtin functions on arrays agree. A place divides an array into two
slices that make it up. A slice of one element is what the index has, and the index goes round the
array in both directions. The first and last elements and the rest are those with these indices and
bounds. What was pushed is the last element, and the length is that of the elements. -/
theorem array_operations_agree (elements : List Value) :
    (∀ place : Int, -elements.length ≤ place ∧ place ≤ elements.length →
      ∃ front back, front ++ back = elements ∧
        (sliceOf elements none (some place)).Gives (.array front) ∧
        (sliceOf elements (some place) none).Gives (.array back)) ∧
    (∀ place : Int, ¬ (-elements.length ≤ place ∧ place ≤ elements.length) →
      (sliceOf elements none (some place)).Gives (.array []) ∧
      (sliceOf elements (some place) none).Gives (.array [])) ∧
    (∀ position : Int, -elements.length ≤ position → position < elements.length → position ≠ -1 →
      ∃ value, (elementOf elements position).Gives value ∧
        (sliceOf elements (some position) (some (position + 1))).Gives (.array [value])) ∧
    (∀ position : Int, 0 < elements.length →
      ∃ inside : (position % elements.length).toNat < elements.length,
        (elementOf elements position).Gives elements[(position % elements.length).toNat]) ∧
    (0 < elements.length → ∃ first rest last, first :: rest = elements ∧
      (Builtin.first.apply [.array elements]).Gives first ∧ (elementOf elements 0).Gives first ∧
      (Builtin.last.apply [.array elements]).Gives last ∧ (elementOf elements (-1)).Gives last ∧
      (Builtin.rest.apply [.array elements]).Gives (.array rest) ∧
      (sliceOf elements (some 1) none).Gives (.array rest)) ∧
    (∀ value, ∃ longer, (Builtin.push.apply [.array elements, value]).Gives (.array longer) ∧
      (sliceOf longer none (some (-1))).Gives (.array elements) ∧
      (Builtin.last.apply [.array longer]).Gives value ∧
      (Builtin.len.apply [.array elements]).Gives (.integer elements.length) ∧
      (Builtin.len.apply [.array longer]).Gives (.integer (elements.length + 1))) ∧
    (∀ lower upper : Int, -elements.length ≤ lower ∧ lower ≤ elements.length →
      -elements.length ≤ upper ∧ upper ≤ elements.length →
      ∃ part, (sliceOf elements (some lower) (some upper)).Gives (.array part) ∧
        (Builtin.len.apply [.array part]).Gives (.integer
          (max 0 (placeIn elements.length upper - placeIn elements.length lower)))) := by
  refine ⟨fun place inside => ?halves, fun place outside => ?outside,
    fun position low high notLast => ?single, fun position filled => ?round, fun filled => ?ends,
    fun value => ?pushed, fun lower upper low high => ?length⟩
  case halves =>
    exact ⟨_, _, List.take_append_drop _ _, gives_front (Value.stretch_from_start inside),
      gives_back (Value.stretch_to_end inside)⟩
  case outside =>
    exact ⟨gives_front (Value.stretch_of_outside (.inr outside)),
      gives_back (Value.stretch_of_outside (.inl outside))⟩
  case single =>
    exact ⟨_, gives_pick rfl, gives_slice (Value.stretch_next low high notLast)⟩
  case round =>
    obtain ⟨inside, same⟩ := Value.element_of_filled filled position
    exact ⟨inside, gives_pick same⟩
  case ends =>
    have last := Value.element_minus_one filled
    obtain ⟨first, rest, rfl⟩ := List.exists_cons_of_length_pos filled
    have inside : -(first :: rest).length ≤ (1 : Int) ∧ (1 : Int) ≤ (first :: rest).length :=
      ⟨by omega, Int.ofNat_le.mpr filled⟩
    have back := Value.stretch_to_end inside
    exact ⟨first, rest, _, rfl, Builtin.gives_first first rest, gives_pick rfl,
      Builtin.gives_last _, gives_pick last, Builtin.gives_rest first rest, gives_back back⟩
  case pushed =>
    have longer := Builtin.gives_len (elements ++ [value])
    have last := Builtin.gives_last (elements ++ [value])
    rw [List.getLast?_concat, Option.getD_some] at last
    rw [List.length_append, List.length_singleton, Int.natCast_succ] at longer
    exact ⟨_, Builtin.gives_push elements value, gives_front (Value.stretch_concat elements value),
      last, Builtin.gives_len elements, longer⟩
  case length =>
    rw [← Value.length_stretch low high]
    exact ⟨_, gives_slice rfl, Builtin.gives_len _⟩

/-- In an array of three elements -1 and 2 are the same bound and -2, 1 and 7 the same index. -/
theorem three_elements_agree :
    let elements := [Value.integer 10, .integer 20, .integer 30]
    (∃ front back, front ++ back = elements ∧
      (sliceOf elements none (some (-1))).Gives (.array front) ∧
      (sliceOf elements (some (-1)) none).Gives (.array back)) ∧
    (sliceOf elements none (some 4)).Gives (.array []) ∧
    (∃ value, (elementOf elements (-2)).Gives value ∧
      (sliceOf elements (some (-2)) (some (-1))).Gives (.array [value])) ∧
    (elementOf elements 7).Gives (.integer 20) ∧
    ∃ part, (sliceOf elements (some (-3)) (some 2)).Gives (.array part) ∧
      (Builtin.len.apply [.array part]).Gives (.integer 2) := by
  intro elements
  obtain ⟨halves, outside, single, round, -, -, length⟩ := array_operations_agree elements
  obtain ⟨inside, seventh⟩ := round 7 (by decide)
  have second : elements[((7 : Int) % elements.length).toNat] = .integer 20 := by cbv
  rw [second] at seventh
  exact ⟨halves (-1) (by decide), (outside 4 (by decide)).1,
    single (-2) (by decide) (by decide) (by decide), seventh, length (-3) 2 (by decide) (by decide)⟩

end Monkey

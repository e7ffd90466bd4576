import Mathlib.Order.Monotone.Basic
import Monkey.Evaluation
import Monkey.Proofs.Stores

/-!
Scopes under other numbers. A program can tell one scope from another by what is bound there, never
by its number. So where a store has the same scopes under other numbers, in the same order, all that
is evaluated comes to the same, with these numbers for the others and no other difference.
-/

namespace Monkey

namespace Value

mutual

/-- The value with other numbers for the scopes that are referred to in it. -/
def renumbered (shift : Nat → Nat) : Value → Value
  | .array elements => .array (allRenumbered shift elements)
  | .hash entries => .hash (entriesRenumbered shift entries)
  | .function parameters body scope => .function parameters body (shift scope)
  | .returned value => .returned (value.renumbered shift)
  | value => value

def allRenumbered (shift : Nat → Nat) : List Value → List Value
  | [] => []
  | value :: rest => value.renumbered shift :: allRenumbered shift rest

def entriesRenumbered (shift : Nat → Nat) : List (Entry Value) → List (Entry Value)
  | [] => []
  | ⟨hashKey, key, value⟩ :: rest =>
    ⟨hashKey, key.renumbered shift, value.renumbered shift⟩ :: entriesRenumbered shift rest

end

end Value

def Entry.renumbered (shift : Nat → Nat) (entry : Entry Value) : Entry Value :=
  ⟨entry.hashKey, entry.key.renumbered shift, entry.value.renumbered shift⟩

variable {shift : Nat → Nat}

namespace Value

variable {values elements : List Value} {entries : List (Entry Value)}

theorem allRenumbered_eq : allRenumbered shift values = values.map (renumbered shift) := by
  induction values with
  | nil => rfl
  | cons value rest ih => rw [allRenumbered, ih, List.map_cons]

theorem entriesRenumbered_eq :
    entriesRenumbered shift entries = entries.map (Entry.renumbered shift) := by
  induction entries with
  | nil => rfl
  | cons entry rest ih =>
    rw [List.map_cons, ← ih]
    rfl

theorem renumbered_array :
    (array elements).renumbered shift = .array (elements.map (renumbered shift)) :=
  congrArg array allRenumbered_eq

theorem renumbered_hash :
    (hash entries).renumbered shift = .hash (entries.map (Entry.renumbered shift)) :=
  congrArg hash entriesRenumbered_eq

theorem kind_renumbered (value : Value) : (value.renumbered shift).kind = value.kind := by
  cases value <;> rfl

theorem isTruthy_renumbered (value : Value) :
    (value.renumbered shift).isTruthy = value.isTruthy := by
  cases value <;> rfl

theorem hashKey?_renumbered (value : Value) :
    (value.renumbered shift).hashKey? = value.hashKey? := by
  cases value <;> rfl

theorem unwrapped_renumbered (value : Value) :
    (value.renumbered shift).unwrapped = value.unwrapped.renumbered shift := by
  cases value <;> rfl

theorem getD_null_renumbered (found : Option Value) :
    (found.map (renumbered shift)).getD null = (found.getD null).renumbered shift := by
  cases found <;> rfl

mutual

/-- The text of a value does not show scopes. -/
theorem inspect_renumbered : ∀ value : Value, (value.renumbered shift).inspect = value.inspect
  | .array elements => by
    simp only [renumbered, inspect, inspectAll_renumbered elements]
  | .hash entries => by
    simp only [renumbered, inspect, inspectEntries_renumbered entries]
  | .returned value => by
    simp only [renumbered, inspect, inspect_renumbered value]
  | .function _ _ _ => by simp only [renumbered, inspect]
  | .integer _ | .boolean _ | .string _ | .null | .builtin _ | .error _ => rfl

theorem inspectAll_renumbered : ∀ values : List Value,
    inspectAll (allRenumbered shift values) = inspectAll values
  | [] => rfl
  | value :: rest => by
    simp only [allRenumbered, inspectAll, inspect_renumbered value, inspectAll_renumbered rest]

theorem inspectEntries_renumbered : ∀ entries : List (Entry Value),
    inspectEntries (entriesRenumbered shift entries) = inspectEntries entries
  | [] => rfl
  | ⟨_, key, value⟩ :: rest => by
    simp only [entriesRenumbered, inspectEntries, inspect_renumbered key, inspect_renumbered value,
      inspectEntries_renumbered rest]

end

/-! The operations. -/

theorem unary_renumbered (operator : Operator) (right : Value) :
    unary operator (right.renumbered shift) =
      (unary operator right).map (renumbered shift) := by
  cases operator with
  | bang =>
    unfold unary
    dsimp only
    rw [isTruthy_renumbered]
    rfl
  | minus => cases right <;> rfl
  | _ =>
    unfold unary
    dsimp only
    rw [kind_renumbered]
    rfl

theorem integerBinary_renumbered (operator : Operator) (left right : Int) :
    (integerBinary operator left right).map (renumbered shift) =
      integerBinary operator left right := by
  unfold integerBinary
  cases operator with
  | divide => cases Integer.divide? left right <;> rfl
  | _ => rfl

theorem booleanBinary_renumbered (operator : Operator) (left right : Bool) :
    (booleanBinary operator left right).map (renumbered shift) =
      booleanBinary operator left right := by
  cases operator <;> rfl

theorem stringBinary_renumbered (operator : Operator) (left right : String) :
    (stringBinary operator left right).map (renumbered shift) =
      stringBinary operator left right := by
  cases operator <;> rfl

theorem binary_renumbered (operator : Operator) (left right : Value) :
    binary (left.renumbered shift) operator (right.renumbered shift) =
      (binary left operator right).map (renumbered shift) := by
  unfold binary
  rw [kind_renumbered, kind_renumbered]
  split
  · rfl
  · cases left with
    | integer => cases right <;> first | exact (integerBinary_renumbered ..).symm | rfl
    | boolean => cases right <;> first | exact (booleanBinary_renumbered ..).symm | rfl
    | string => cases right <;> first | exact (stringBinary_renumbered ..).symm | rfl
    | _ =>
      dsimp only [renumbered]
      rw [kind_renumbered]
      rfl

theorem element_renumbered (elements : List Value) (position : Int) :
    element (elements.map (renumbered shift)) position =
      (element elements position).renumbered shift := by
  unfold element
  rw [List.length_map, List.getElem?_map, getD_null_renumbered]

theorem find?_renumbered (entries : List (Entry Value)) (hashKey : HashKey) :
    Entry.find? (entries.map (Entry.renumbered shift)) hashKey =
      (Entry.find? entries hashKey).map (Entry.renumbered shift) := List.find?_map

theorem index_renumbered (left position : Value) :
    (left.renumbered shift).index (position.renumbered shift) =
      (left.index position).map (renumbered shift) := by
  cases left with
  | array elements =>
    rw [renumbered_array]
    cases position with
    | integer position => exact congrArg Except.ok (element_renumbered elements position)
    | _ => rfl
  | hash entries =>
    rw [renumbered_hash]
    unfold index
    dsimp only
    rw [hashKey?_renumbered, kind_renumbered]
    cases position.hashKey? with
    | none => rfl
    | some hashKey =>
      dsimp only
      rw [find?_renumbered]
      cases Entry.find? entries hashKey <;> rfl
  | _ => rfl

theorem boundOr_renumbered (default : Int) (bound : Option Value) :
    boundOr default (bound.map (renumbered shift)) = boundOr default bound := by
  cases bound with
  | none => rfl
  | some value => cases value <;> rfl

theorem kinds_renumbered (bound : Option Value) :
    (bound.map (renumbered shift)).map kind = bound.map kind := by
  cases bound with
  | none => rfl
  | some value => exact congrArg some (kind_renumbered value)

theorem stretch_renumbered (elements : List Value) (lower upper : Int) :
    stretch (elements.map (renumbered shift)) lower upper =
      (stretch elements lower upper).map (renumbered shift) := by
  unfold stretch
  rw [List.length_map]
  split
  · rw [List.map_drop, List.map_take]
  · rfl

theorem slice_renumbered (left : Value) (lower upper : Option Value) :
    (left.renumbered shift).slice (lower.map (renumbered shift)) (upper.map (renumbered shift)) =
      (left.slice lower upper).map (renumbered shift) := by
  cases left with
  | array elements =>
    rw [renumbered_array]
    unfold slice
    dsimp only
    rw [boundOr_renumbered, boundOr_renumbered, kinds_renumbered, kinds_renumbered,
      List.length_map]
    split
    · rw [stretch_renumbered, ← renumbered_array]
      rfl
    · rfl
  | _ =>
    unfold slice
    dsimp only [renumbered]
    rw [kinds_renumbered, kinds_renumbered]
    rfl

end Value

theorem Entry.insert_renumbered (entry : Entry Value) (entries : List (Entry Value)) :
    insert (entry.renumbered shift) (entries.map (renumbered shift)) =
      (insert entry entries).map (renumbered shift) := by
  induction entries with
  | nil => rfl
  | cons first rest ih =>
    rw [List.map_cons]
    unfold insert
    by_cases filed : first.hashKey = entry.hashKey
    · rw [if_pos filed]
      exact if_pos filed
    · rw [if_neg filed, List.map_cons, ← ih]
      exact if_neg filed

namespace Builtin

open Value

theorem single_renumbered (arguments : List Value) :
    single (arguments.map (renumbered shift)) = (single arguments).map (renumbered shift) := by
  match arguments with
  | [] | [_] => rfl
  | left :: right :: others =>
    have count : ((left :: right :: others).map (renumbered shift)).length =
      (left :: right :: others).length := List.length_map _
    exact congrArg (fun count => Except.error (Fault.wrongCount count 1)) count

theorem length_renumbered (arguments : List Value) :
    length (arguments.map (renumbered shift)) = (length arguments).map (renumbered shift) := by
  unfold length
  rw [single_renumbered]
  cases single arguments with
  | error cause => rfl
  | ok value =>
    cases value with
    | array elements =>
      dsimp only [Except.map]
      rw [renumbered_array]
      dsimp only
      rw [List.length_map]
      rfl
    | _ => rfl

theorem elements_renumbered (builtin : Builtin) (arguments : List Value) :
    elements builtin (arguments.map (renumbered shift)) =
      (elements builtin arguments).map (List.map (renumbered shift)) := by
  unfold elements
  rw [single_renumbered]
  cases single arguments with
  | error cause => rfl
  | ok value =>
    cases value with
    | array elements =>
      dsimp only [Except.map]
      rw [renumbered_array]
    | _ => rfl

theorem pushed_renumbered (arguments : List Value) :
    pushed (arguments.map (renumbered shift)) = (pushed arguments).map (renumbered shift) := by
  match arguments with
  | [] => rfl
  | [left] => cases left <;> rfl
  | [left, value] =>
    cases left with
    | array elements =>
      rw [List.map_cons, renumbered_array]
      have added : (elements ++ [value]).map (renumbered shift) =
          elements.map (renumbered shift) ++ [value.renumbered shift] := List.map_append
      exact congrArg Except.ok ((congrArg array added).symm.trans renumbered_array.symm)
    | _ => rfl
  | left :: value :: other :: others =>
    have count : ((left :: value :: other :: others).map (renumbered shift)).length =
      (left :: value :: other :: others).length := List.length_map _
    cases left <;> exact congrArg (fun count => Except.error (Fault.wrongCount count 2)) count

/-- What is made of the elements of the one argument. -/
theorem map_elements_renumbered (builtin : Builtin) {change : List Value → Value}
    (changes : ∀ elements, change (elements.map (renumbered shift)) =
      (change elements).renumbered shift) (arguments : List Value) :
    (elements builtin (arguments.map (renumbered shift))).map change =
      ((elements builtin arguments).map change).map (renumbered shift) := by
  rw [elements_renumbered]
  cases elements builtin arguments with
  | error cause => rfl
  | ok elements => exact congrArg Except.ok (changes elements)

end Builtin

/-! Stores. -/

def Scope.renumbered (shift : Nat → Nat) (scope : Scope) : Scope where
  parent := scope.parent.map shift
  bindings := scope.bindings.map (Prod.map id (Value.renumbered shift))

/-- The second store has all scopes of the first under other numbers, and it goes on to count as the
first does. -/
structure Store.Renumbered (shift : Nat → Nat) (store store' : Store) : Prop where
  scope : ∀ number,
    store'.scope? (shift number) = (store.scope? number).map (Scope.renumbered shift)
  fresh : ∀ count, shift (store.size + count) = store'.size + count

theorem Scope.lookup_renumbered (bindings : List (String × Value)) (name : String) :
    (bindings.map (Prod.map id (Value.renumbered shift))).lookup name =
      (bindings.lookup name).map (Value.renumbered shift) := by
  induction bindings with
  | nil => rfl
  | cons first rest ih =>
    rw [List.map_cons, List.lookup_cons, List.lookup_cons, ih]
    change (match name == first.1 with | true => _ | false => _) = _
    cases name == first.1 <;> rfl

theorem Scope.bind_renumbered (scope : Scope) (name : String) (value : Value) :
    (scope.renumbered shift).bind name (value.renumbered shift) =
      (scope.bind name value).renumbered shift := by
  have assigned (bindings : List (String × Value)) :
      assign name (value.renumbered shift)
          (bindings.map (Prod.map id (Value.renumbered shift))) =
        (assign name value bindings).map (Prod.map id (Value.renumbered shift)) := by
    induction bindings with
    | nil => rfl
    | cons first rest ih =>
      rw [List.map_cons]
      unfold assign
      by_cases here : first.1 = name
      · rw [if_pos here]
        exact if_pos here
      · rw [if_neg here, List.map_cons, ← ih]
        exact if_neg here
  exact congrArg (Scope.mk _) (assigned scope.bindings)

namespace Store.Renumbered

variable {store store' : Store} (same : store.Renumbered shift store') (up : StrictMono shift)
include same up

theorem find? (number : Nat) (name : String) : store'.find? (shift number) name =
    (store.find? number name).map (Value.renumbered shift) := by
  induction number using Nat.strongRecOn with
  | ind number ih =>
    unfold Store.find?
    rw [same.scope number]
    cases store.scope? number with
    | none => rfl
    | some scope =>
      dsimp only [Option.map_some, Scope.renumbered]
      rw [Scope.lookup_renumbered]
      cases scope.bindings.lookup name with
      | some value => rfl
      | none =>
        cases scope.parent with
        | none => rfl
        | some outer =>
          dsimp only [Option.map_some, Option.map_none]
          by_cases inner : outer < number
          · rw [if_pos inner, if_pos (up.lt_iff_lt.mpr inner), ih outer inner]
          · rw [if_neg inner, if_neg (mt up.lt_iff_lt.mp inner)]
            rfl

theorem opened (parent : Option Nat) :
    (store.opened parent).Renumbered shift (store'.opened (parent.map shift)) where
  scope number := by
    have newest : shift store.size = store'.size := same.fresh 0
    rw [scope?_opened, scope?_opened, ← newest, same.scope number]
    by_cases last : number = store.size
    · rw [if_pos last, if_pos (congrArg shift last)]
      rfl
    · rw [if_neg last, if_neg (mt up.injective.eq_iff.mp last)]
  fresh count := by
    rw [size_opened, size_opened, Nat.add_assoc, Nat.add_assoc]
    exact same.fresh (1 + count)

theorem bind (number : Nat) (name : String) (value : Value) :
    (store.bind number name value).Renumbered shift
      (store'.bind (shift number) name (value.renumbered shift)) where
  scope other := by
    rw [scope?_bind, scope?_bind, same.scope other]
    by_cases here : other = number
    · rw [if_pos here, if_pos (congrArg shift here)]
      cases store.scope? other with
      | none => rfl
      | some scope => exact congrArg some (scope.bind_renumbered name value)
    · rw [if_neg here, if_neg (mt up.injective.eq_iff.mp here)]
  fresh count := by
    rw [size_bind, size_bind]
    exact same.fresh count

theorem bindAll (number : Nat) (names : List String) (values : List Value) :
    (store.bindAll number (names.zip values)).Renumbered shift
      (store'.bindAll (shift number) (names.zip (values.map (Value.renumbered shift)))) := by
  induction values generalizing names store store' with
  | nil =>
    rw [List.map_nil, List.zip_nil_right]
    exact same
  | cons value values ih =>
    cases names with
    | nil => exact same
    | cons name names => exact ih (same.bind up number name value) names

end Store.Renumbered

end Monkey

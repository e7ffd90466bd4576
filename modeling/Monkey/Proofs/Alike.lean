import Mathlib.Data.List.Forall2
import Mathlib.Logic.Relator
import Monkey.Proofs.Agreement
import Monkey.Proofs.Stores
import Monkey.Session

/-!
Values that are the same but for places and scopes: functions may stand elsewhere in a text, and
where one refers to a scope the other refers to the scope that corresponds to it. What is done to
two such values comes to the same.
-/

namespace Monkey

theorem forall₂_getElem? {α β : Type} {related : α → β → Prop} {elements : List α}
    {others : List β} (same : List.Forall₂ related elements others) (place : Nat) :
    Option.Rel related elements[place]? others[place]? := by
  induction same generalizing place with
  | nil => exact .none
  | cons first _ ih =>
    cases place with
    | zero => exact .some first
    | succ place => exact ih place

namespace Value

/-- Two values that are the same, where `scopes` tells which scopes correspond. -/
inductive Alike (scopes : Nat → Nat → Prop) : Value → Value → Prop
  | integer (value : Int) : Alike scopes (.integer value) (.integer value)
  | boolean (value : Bool) : Alike scopes (.boolean value) (.boolean value)
  | string (text : String) : Alike scopes (.string text) (.string text)
  | null : Alike scopes .null .null
  | array {elements others : List Value} (length : elements.length = others.length)
      (parts : ∀ pair ∈ elements.zip others, Alike scopes pair.1 pair.2) :
      Alike scopes (.array elements) (.array others)
  | hash {entries others : List (Entry Value)} (length : entries.length = others.length)
      (hashKeys : ∀ pair ∈ entries.zip others, pair.1.hashKey = pair.2.hashKey)
      (keys : ∀ pair ∈ entries.zip others, Alike scopes pair.1.key pair.2.key)
      (values : ∀ pair ∈ entries.zip others, Alike scopes pair.1.value pair.2.value) :
      Alike scopes (.hash entries) (.hash others)
  | function {parameters parameters' : List Identifier} {body body' : Block} {scope scope' : Nat}
      (names : Identifier.allAgree parameters parameters' = true)
      (bodies : body.agrees body' = true) (corresponds : scopes scope scope') :
      Alike scopes (.function parameters body scope) (.function parameters' body' scope')
  | builtin (builtin : Builtin) : Alike scopes (.builtin builtin) (.builtin builtin)
  | returned {value other : Value} (content : Alike scopes value other) :
      Alike scopes (.returned value) (.returned other)
  | error (message : String) : Alike scopes (.error message) (.error message)

end Value

structure Entry.Alike (scopes : Nat → Nat → Prop) (entry other : Entry Value) : Prop where
  hashKey : entry.hashKey = other.hashKey
  key : entry.key.Alike scopes other.key
  value : entry.value.Alike scopes other.value

variable {scopes : Nat → Nat → Prop}

namespace Value

variable {value other left left' right right' : Value}
variable {elements others : List Value} {entries entries' : List (Entry Value)}

namespace Alike

theorem array_iff : Alike scopes (.array elements) (.array others) ↔
    List.Forall₂ (Alike scopes) elements others := by
  rw [List.forall₂_iff_zip]
  constructor
  · intro same
    cases same with
    | array length parts => exact ⟨length, fun member => parts _ member⟩
  · exact fun ⟨length, parts⟩ => .array length fun _ member => parts member

theorem hash_iff : Alike scopes (.hash entries) (.hash entries') ↔
    List.Forall₂ (Entry.Alike scopes) entries entries' := by
  rw [List.forall₂_iff_zip]
  constructor
  · intro same
    cases same with
    | hash length hashKeys keys values =>
      exact ⟨length, fun member => ⟨hashKeys _ member, keys _ member, values _ member⟩⟩
  · exact fun ⟨length, parts⟩ => .hash length (fun _ member => (parts member).hashKey)
      (fun _ member => (parts member).key) (fun _ member => (parts member).value)

theorem kind_eq (same : Alike scopes value other) : value.kind = other.kind := by
  cases same <;> rfl

theorem isTruthy_eq (same : Alike scopes value other) : value.isTruthy = other.isTruthy := by
  cases same <;> rfl

theorem hashKey?_eq (same : Alike scopes value other) : value.hashKey? = other.hashKey? := by
  cases same <;> rfl

theorem unwrapped (same : Alike scopes value other) :
    Alike scopes value.unwrapped other.unwrapped := by
  have kept := same
  cases same with
  | returned content => exact content
  | _ => exact kept

theorem getD_null {found found' : Option Value} (same : Option.Rel (Alike scopes) found found') :
    Alike scopes (found.getD .null) (found'.getD .null) := by
  cases same with
  | some same => exact same
  | none => exact .null

theorem inspectAll_eq (same : List.Forall₂ (fun value other => inspect value = inspect other)
    elements others) : inspectAll elements = inspectAll others := by
  induction same with
  | nil => rfl
  | cons first _ ih => simp only [inspectAll, first, ih]

theorem inspectEntries_eq (same : List.Forall₂ (fun entry entry' : Entry Value =>
    entry.key.inspect = entry'.key.inspect ∧ entry.value.inspect = entry'.value.inspect)
    entries entries') : inspectEntries entries = inspectEntries entries' := by
  induction same with
  | nil => rfl
  | @cons entry entry' _ _ first _ ih =>
    obtain ⟨hashKey, key, value⟩ := entry
    obtain ⟨hashKey', key', value'⟩ := entry'
    simp only [inspectEntries, first, ih]

theorem inspect_eq (same : Alike scopes value other) : value.inspect = other.inspect := by
  induction same with
  | array length _ parts =>
    have rows := inspectAll_eq (List.forall₂_iff_zip.mpr ⟨length, fun member => parts _ member⟩)
    simp only [inspect, rows]
  | hash length _ _ _ keys values =>
    have rows := inspectEntries_eq (List.forall₂_iff_zip.mpr
      ⟨length, fun member => ⟨keys _ member, values _ member⟩⟩)
    simp only [inspect, rows]
  | @function parameters parameters' body body' _ _ names bodies _ =>
    have shown : parameters.map Identifier.render = parameters'.map Identifier.render :=
      Identifier.names_eq_of_allAgree names
    simp only [inspect, shown, Block.render_eq body bodies]
  | returned _ ih => simpa only [inspect] using ih
  | _ => rfl

end Alike

/-! The operations. -/

/-- Two operations that come to the same: they give values that are alike, or both fail for one
cause. -/
inductive Meet (scopes : Nat → Nat → Prop) : Except Fault Value → Except Fault Value → Prop
  | ok {value other : Value} (same : value.Alike scopes other) : Meet scopes (.ok value) (.ok other)
  | error (cause : Fault) : Meet scopes (.error cause) (.error cause)

theorem meet_unary (operator : Operator) (rights : right.Alike scopes right') :
    Meet scopes (unary operator right) (unary operator right') := by
  cases operator with
  | bang =>
    unfold unary
    dsimp only
    rw [rights.isTruthy_eq]
    exact .ok (.boolean _)
  | minus => cases rights <;> first | exact .ok (.integer _) | exact .error _
  | _ =>
    unfold unary
    dsimp only
    rw [rights.kind_eq]
    exact .error _

theorem meet_integerBinary (operator : Operator) (left right : Int) :
    Meet scopes (integerBinary operator left right) (integerBinary operator left right) := by
  unfold integerBinary
  cases operator with
  | divide =>
    dsimp only
    cases Integer.divide? left right with
    | some quotient => exact .ok (.integer _)
    | none => exact .error _
  | _ => first | exact .ok (.integer _) | exact .ok (.boolean _) | exact .error _

theorem meet_booleanBinary (operator : Operator) (left right : Bool) :
    Meet scopes (booleanBinary operator left right) (booleanBinary operator left right) := by
  cases operator <;> first | exact .ok (.boolean _) | exact .error _

theorem meet_stringBinary (operator : Operator) (left right : String) :
    Meet scopes (stringBinary operator left right) (stringBinary operator left right) := by
  cases operator <;> first | exact .ok (.string _) | exact .ok (.boolean _) | exact .error _

theorem meet_binary (operator : Operator) (lefts : left.Alike scopes left')
    (rights : right.Alike scopes right') :
    Meet scopes (binary left operator right) (binary left' operator right') := by
  unfold binary
  rw [lefts.kind_eq, rights.kind_eq]
  split
  · exact .error _
  · cases lefts with
    | integer => cases rights <;> first | exact meet_integerBinary .. | exact .error _
    | boolean => cases rights <;> first | exact meet_booleanBinary .. | exact .error _
    | string => cases rights <;> first | exact meet_stringBinary .. | exact .error _
    | _ =>
      dsimp only
      rw [rights.kind_eq]
      exact .error _

theorem element_alike (rows : List.Forall₂ (Alike scopes) elements others) (position : Int) :
    (element elements position).Alike scopes (element others position) := by
  unfold element
  rw [rows.length_eq]
  exact .getD_null (forall₂_getElem? rows _)

theorem find?_alike (rows : List.Forall₂ (Entry.Alike scopes) entries entries')
    (hashKey : HashKey) : Option.Rel (Entry.Alike scopes)
      (Entry.find? entries hashKey) (Entry.find? entries' hashKey) := by
  unfold Entry.find?
  induction rows with
  | nil => exact .none
  | @cons entry entry' _ _ first _ ih =>
    rw [List.find?_cons, List.find?_cons, first.hashKey]
    split
    · exact .some first
    · exact ih

theorem value_alike {found found' : Option (Entry Value)}
    (same : Option.Rel (Entry.Alike scopes) found found') :
    Option.Rel (Alike scopes) (found.map Entry.value) (found'.map Entry.value) := by
  cases same with
  | none => exact .none
  | some same => exact .some same.value

theorem meet_index {position position' : Value} (lefts : left.Alike scopes left')
    (positions : position.Alike scopes position') :
    Meet scopes (left.index position) (left'.index position') := by
  cases lefts with
  | array length parts =>
    have rows := Alike.array_iff.mp (.array length parts)
    cases positions with
    | integer position => exact .ok (element_alike rows position)
    | _ => exact .error _
  | @hash listed listed' length hashKeys keys values =>
    have rows := Alike.hash_iff.mp (.hash length hashKeys keys values)
    unfold index
    dsimp only
    rw [positions.hashKey?_eq, positions.kind_eq]
    cases position'.hashKey? with
    | none => exact .error _
    | some hashKey =>
      exact .ok (.getD_null (value_alike (find?_alike rows hashKey)))
  | _ => exact .error _

theorem boundOr_eq {bound bound' : Option Value} (bounds : Option.Rel (Alike scopes) bound bound')
    (default : Int) : boundOr default bound = boundOr default bound' := by
  cases bounds with
  | none => rfl
  | some same => cases same <;> rfl

theorem kinds_eq {bound bound' : Option Value} (bounds : Option.Rel (Alike scopes) bound bound') :
    bound.map kind = bound'.map kind := by
  cases bounds with
  | none => rfl
  | some same => exact congrArg some same.kind_eq

theorem stretch_alike (rows : List.Forall₂ (Alike scopes) elements others) (lower upper : Int) :
    List.Forall₂ (Alike scopes) (stretch elements lower upper) (stretch others lower upper) := by
  unfold stretch
  rw [rows.length_eq]
  split
  · exact List.forall₂_drop _ (List.forall₂_take _ rows)
  · exact .nil

theorem meet_slice {lower lower' upper upper' : Option Value} (lefts : left.Alike scopes left')
    (lowers : Option.Rel (Alike scopes) lower lower')
    (uppers : Option.Rel (Alike scopes) upper upper') :
    Meet scopes (left.slice lower upper) (left'.slice lower' upper') := by
  cases lefts with
  | array length parts =>
    have rows := Alike.array_iff.mp (.array length parts)
    unfold slice
    dsimp only
    rw [boundOr_eq lowers, boundOr_eq uppers, kinds_eq lowers, kinds_eq uppers, length]
    split
    · exact .ok (Alike.array_iff.mpr (stretch_alike rows _ _))
    · exact .error _
  | _ =>
    unfold slice
    dsimp only
    rw [kinds_eq lowers, kinds_eq uppers]
    exact .error _

end Value

namespace Builtin

open Value

variable {arguments others : List Value}

/-- Argument lists of equal length are both taken or both refused. -/
theorem meet_counted (wanted : Nat) (rows : List.Forall₂ (Alike scopes) arguments others) :
    Meet scopes (.error (.wrongCount arguments.length wanted))
      (.error (.wrongCount others.length wanted)) := by
  rw [rows.length_eq]
  exact .error _

theorem meet_length (rows : List.Forall₂ (Alike scopes) arguments others) :
    Meet scopes (length arguments) (length others) := by
  cases rows with
  | nil => exact .error _
  | cons first rest =>
    cases rest with
    | nil =>
      cases first with
      | string => exact .ok (.integer _)
      | array length =>
        unfold Builtin.length single
        dsimp only
        rw [length]
        exact .ok (.integer _)
      | _ => exact .error _
    | cons second rest => exact meet_counted 1 (.cons first (.cons second rest))

theorem meet_pushed (rows : List.Forall₂ (Alike scopes) arguments others) :
    Meet scopes (pushed arguments) (pushed others) := by
  cases rows with
  | nil => exact .error _
  | cons first rest =>
    cases rest with
    | nil => cases first <;> exact .error _
    | cons second rest =>
      cases rest with
      | nil =>
        cases first with
        | array length parts =>
          have elements := Alike.array_iff.mp (.array length parts)
          exact .ok (Alike.array_iff.mpr (List.rel_append elements (.cons second .nil)))
        | _ => exact .error _
      | cons third rest =>
        have counted := meet_counted 2 (.cons first (.cons second (.cons third rest)))
        cases first <;> exact counted

theorem meet_elements (builtin : Builtin) {change : List Value → Value}
    (changes : ∀ {elements elements'}, List.Forall₂ (Alike scopes) elements elements' →
      (change elements).Alike scopes (change elements'))
    (rows : List.Forall₂ (Alike scopes) arguments others) :
    Meet scopes ((elements builtin arguments).map change)
      ((elements builtin others).map change) := by
  cases rows with
  | nil => exact .error _
  | cons first rest =>
    cases rest with
    | nil =>
      cases first with
      | array length parts => exact .ok (changes (Alike.array_iff.mp (.array length parts)))
      | _ => exact .error _
    | cons second rest => exact meet_counted 1 (.cons first (.cons second rest))

end Builtin

/-! Stores. -/

/-- Two scopes with the same names in them, at these numbers. -/
structure Scope.Alike (scopes : Nat → Nat → Prop) (number number' : Nat) (scope scope' : Scope) :
    Prop where
  parent : Option.Rel
    (fun outer outer' => scopes outer outer' ∧ (outer < number ↔ outer' < number'))
    scope.parent scope'.parent
  bindings : ∀ name, Option.Rel (Value.Alike scopes) (scope.bindings.lookup name)
    (scope'.bindings.lookup name)

/-- Names bound to the same stay so when one of them is bound anew. -/
theorem Scope.lookup_assign_alike {bindings others : List (String × Value)}
    (same : ∀ name, Option.Rel (Value.Alike scopes) (bindings.lookup name) (others.lookup name))
    (name : String) {value value' : Value} (values : value.Alike scopes value') (other : String) :
    Option.Rel (Value.Alike scopes) ((assign name value bindings).lookup other)
      ((assign name value' others).lookup other) := by
  rw [lookup_assign, lookup_assign]
  by_cases here : other = name
  · rw [if_pos here, if_pos here]
    exact .some values
  · rw [if_neg here, if_neg here]
    exact same other

theorem Scope.Alike.bind {number number' : Nat} {scope scope' : Scope}
    (same : Scope.Alike scopes number number' scope scope') (name : String) {value value' : Value}
    (values : value.Alike scopes value') :
    Scope.Alike scopes number number' (scope.bind name value) (scope'.bind name value') where
  parent := same.parent
  bindings := Scope.lookup_assign_alike same.bindings name values

/-- Scopes that correspond are alike, and the scopes that are opened next will correspond. -/
structure Store.Alike (scopes : Nat → Nat → Prop) (store store' : Store) : Prop where
  scope : ∀ number number', scopes number number' →
    Option.Rel (Scope.Alike scopes number number') (store.scope? number) (store'.scope? number')
  fresh : ∀ count, scopes (store.size + count) (store'.size + count)

namespace Store.Alike

variable {store store' : Store} (alone : Relator.BiUnique scopes)

theorem find? (alike : store.Alike scopes store') {number number' : Nat}
    (corresponds : scopes number number') (name : String) :
    Option.Rel (Value.Alike scopes) (store.find? number name) (store'.find? number' name) := by
  induction number using Nat.strongRecOn generalizing number' with
  | ind number ih =>
    have scopesAlike := alike.scope number number' corresponds
    unfold Store.find?
    generalize store.scope? number = scope, store'.scope? number' = scope' at scopesAlike
    cases scopesAlike with
    | none => exact .none
    | @some scope scope' same =>
      have bound := same.bindings name
      dsimp only
      generalize scope.bindings.lookup name = value, scope'.bindings.lookup name = value' at bound
      cases bound with
      | some values => exact .some values
      | none =>
        have parents := same.parent
        dsimp only
        generalize scope.parent = parent, scope'.parent = parent' at parents
        cases parents with
        | none => exact .none
        | @some outer outer' related =>
          dsimp only
          by_cases inner : outer < number
          · rw [if_pos inner, if_pos (related.2.mp inner)]
            exact ih outer inner related.1
          · rw [if_neg inner, if_neg (mt related.2.mpr inner)]
            exact .none

include alone

/-- Where two scopes correspond, either both are open or neither is. -/
theorem lt_size_iff (alike : store.Alike scopes store') {number number' : Nat}
    (corresponds : scopes number number') : number < store.size ↔ number' < store'.size := by
  constructor <;> intro isOpen <;> by_contra later
  · obtain ⟨count, rfl⟩ := Nat.exists_eq_add_of_le (Nat.le_of_not_lt later)
    obtain rfl := alone.1 corresponds (alike.fresh count)
    omega
  · obtain ⟨count, rfl⟩ := Nat.exists_eq_add_of_le (Nat.le_of_not_lt later)
    obtain rfl := alone.2 corresponds (alike.fresh count)
    omega

theorem opened (alike : store.Alike scopes store') {parent parent' : Option Nat}
    (parents : Option.Rel scopes parent parent') :
    (store.opened parent).Alike scopes (store'.opened parent') := by
  have newest : scopes store.size store'.size := alike.fresh 0
  refine ⟨fun number number' corresponds => ?_, fun count => ?_⟩
  · rw [Store.scope?_opened, Store.scope?_opened]
    by_cases last : number = store.size
    · obtain rfl := alone.2 (last ▸ newest) corresponds
      rw [if_pos last, if_pos rfl, last]
      refine .some ⟨?_, fun _ => .none⟩
      cases parents with
      | none => exact .none
      | some outer => exact .some ⟨outer, alike.lt_size_iff alone outer⟩
    · have others : number' ≠ store'.size := by
        rintro rfl
        exact last (alone.1 corresponds newest)
      rw [if_neg last, if_neg others]
      exact alike.scope number number' corresponds
  · rw [Store.size_opened, Store.size_opened, Nat.add_assoc, Nat.add_assoc]
    exact alike.fresh (1 + count)

theorem bind (alike : store.Alike scopes store') {number number' : Nat}
    (corresponds : scopes number number') (name : String) {value value' : Value}
    (values : value.Alike scopes value') :
    (store.bind number name value).Alike scopes (store'.bind number' name value') := by
  refine ⟨fun other other' same => ?_, fun count => ?_⟩
  · have before := alike.scope other other' same
    rw [Store.scope?_bind, Store.scope?_bind]
    by_cases here : other = number
    · obtain rfl := here
      obtain rfl := alone.2 corresponds same
      rw [if_pos rfl, if_pos rfl]
      generalize store.scope? other = scope, store'.scope? number' = scope' at before
      cases before with
      | none => exact .none
      | some same => exact .some (same.bind name values)
    · have others : other' ≠ number' := by
        rintro rfl
        exact here (alone.1 same corresponds)
      rw [if_neg here, if_neg others]
      exact before
  · rw [Store.size_bind, Store.size_bind]
    exact alike.fresh count

end Store.Alike

end Monkey

import Monkey.Proofs.Made

/-!
What a value is made of: its elements, its keys and values and what a `return` has given back, and
again what these are made of. The scope of a function is not a part of it.
-/

namespace Monkey.Value

/-- A value stands somewhere in another one, which may be all of it. -/
inductive Part (part : Value) : Value → Prop
  | whole : Part part part
  | element {elements : List Value} {element : Value} (member : element ∈ elements)
      (inside : Part part element) : Part part (.array elements)
  | key {entries : List (Entry Value)} {entry : Entry Value} (member : entry ∈ entries)
      (inside : Part part entry.key) : Part part (.hash entries)
  | value {entries : List (Entry Value)} {entry : Entry Value} (member : entry ∈ entries)
      (inside : Part part entry.value) : Part part (.hash entries)
  | content {value : Value} (inside : Part part value) : Part part (.returned value)

/-- A test of every part of a value. -/
def Each (test : Value → Prop) (value : Value) : Prop := ∀ part, Part part value → test part

namespace Each

variable {test : Value → Prop} {value : Value} {elements : List Value}
variable {entries : List (Entry Value)}

theorem mono {weaker : Value → Prop} (each : Each test value)
    (weaken : ∀ part, test part → weaker part) : Each weaker value :=
  fun part inside => weaken part (each part inside)

theorem array_iff : Each test (.array elements) ↔
    test (.array elements) ∧ ∀ element ∈ elements, Each test element := by
  constructor
  · exact fun each =>
      ⟨each _ .whole, fun _ member part inside => each part (.element member inside)⟩
  · rintro ⟨fine, parts⟩ part (_ | ⟨member, inside⟩)
    · exact fine
    · exact parts _ member part inside

theorem hash_iff : Each test (.hash entries) ↔ test (.hash entries) ∧
    ∀ entry ∈ entries, Each test entry.key ∧ Each test entry.value := by
  constructor
  · exact fun each => ⟨each _ .whole, fun _ member =>
      ⟨fun part inside => each part (.key member inside),
        fun part inside => each part (.value member inside)⟩⟩
  · rintro ⟨fine, parts⟩ part (_ | _ | ⟨member, inside⟩ | ⟨member, inside⟩)
    · exact fine
    · exact (parts _ member).1 part inside
    · exact (parts _ member).2 part inside

theorem returned_iff : Each test (.returned value) ↔ test (.returned value) ∧ Each test value := by
  constructor
  · exact fun each => ⟨each _ .whole, fun part inside => each part (.content inside)⟩
  · rintro ⟨fine, content⟩ part (_ | _ | _ | _ | inside)
    · exact fine
    · exact content part inside

theorem unwrapped (each : Each test value) : Each test value.unwrapped := by
  cases value with
  | returned value => exact (returned_iff.mp each).2
  | _ => exact each

end Each

/-- A value without other values in it. -/
def isAtom : Value → Bool
  | array _ | hash _ | returned _ => false
  | _ => true

theorem each_of_atom {test : Value → Prop} {value : Value} (atom : value.isAtom = true)
    (fine : test value) : Each test value := by
  intro part inside
  cases inside with
  | whole => exact fine
  | _ => cases atom

/-- A test that the results of operators pass, apart from what is inside them. -/
class Mild (test : Value → Prop) : Prop where
  integer {value : Int} (fits : Integer.InRange value) : test (.integer value)
  boolean (value : Bool) : test (.boolean value)
  string (text : String) : test (.string text)
  null : test .null
  array (elements : List Value) : test (.array elements)
  hash (entries : List (Entry Value)) : test (.hash entries)
  builtin (builtin : Builtin) : test (.builtin builtin)

instance {test : Value → Prop} [Mild test] : Closed (Each test) where
  integer fits := each_of_atom rfl (Mild.integer fits)
  boolean value := each_of_atom rfl (Mild.boolean value)
  string text := each_of_atom rfl (Mild.string text)
  null := each_of_atom rfl Mild.null
  array parts := Each.array_iff.mpr ⟨Mild.array _, parts⟩
  element whole := (Each.array_iff.mp whole).2
  entry whole entry member := ((Each.hash_iff.mp whole).2 entry member).2

end Monkey.Value

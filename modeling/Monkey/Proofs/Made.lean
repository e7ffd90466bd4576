import Monkey.Evaluation

/-!
What the language makes out of values. Operators, indices, slices and the builtin functions do not
put anything into a value that was not somewhere in their operands, but for integers, truth values,
texts and functions. So what holds of these and of the operands holds of all that they give.
-/

namespace Monkey

/-- The range of the integers of the language. -/
def Integer.InRange (value : Int) : Prop :=
  -0x8000000000000000 ≤ value ∧ value < 0x8000000000000000

namespace Value

/-- A value that can be had from others. Wrappers are only taken off. -/
inductive Made (sources : List Value) : Value → Prop
  | integer (value : Int) : Made sources (.integer value)
  | boolean (value : Bool) : Made sources (.boolean value)
  | string (text : String) : Made sources (.string text)
  | null : Made sources .null
  | function (parameters : List Identifier) (body : Block) (scope : Nat) :
      Made sources (.function parameters body scope)
  | builtin (builtin : Builtin) : Made sources (.builtin builtin)
  | array {elements : List Value} (parts : ∀ value ∈ elements, Made sources value) :
      Made sources (.array elements)
  | hash {entries : List (Entry Value)} (parts : ∀ entry ∈ entries, Made sources entry.value) :
      Made sources (.hash entries)
  | given {value : Value} (member : value ∈ sources) : Made sources value
  | element {elements : List Value} {value : Value} (whole : Made sources (.array elements))
      (member : value ∈ elements) : Made sources value
  | entry {entries : List (Entry Value)} {entry : Entry Value}
      (whole : Made sources (.hash entries)) (member : entry ∈ entries) : Made sources entry.value
  | content {value : Value} (whole : Made sources (.returned value)) : Made sources value

theorem Made.unwrapped {sources : List Value} {value : Value} (made : Made sources value) :
    Made sources value.unwrapped := by
  cases value with
  | returned inner => exact made.content
  | _ => exact made

/-- What holds of all values that the operators can make up, and of an array or a hash only if it
holds of what is inside. -/
class Closed (good : Value → Prop) : Prop where
  integer {value : Int} (fits : Integer.InRange value) : good (.integer value)
  boolean (value : Bool) : good (.boolean value)
  string (text : String) : good (.string text)
  null : good .null
  array {elements : List Value} (parts : ∀ value ∈ elements, good value) : good (.array elements)
  element {elements : List Value} (whole : good (.array elements)) : ∀ value ∈ elements, good value
  entry {entries : List (Entry Value)} (whole : good (.hash entries)) :
    ∀ entry ∈ entries, good entry.value

instance (sources : List Value) : Closed (Made sources) where
  integer _ := .integer _
  boolean := .boolean
  string := .string
  null := .null
  array := .array
  element whole _ := .element whole
  entry whole _ := .entry whole

section
variable {good : Value → Prop} [Closed good] {left right value : Value} {operator : Operator}

theorem Closed.getD_null {found : Option Value} (fine : ∀ value, found = some value → good value) :
    good (found.getD .null) := by
  cases found with
  | none => exact Closed.null
  | some value => exact fine value rfl

/-- All integers that the operators give are wrapped around. -/
theorem Closed.wrap (value : Int) : good (.integer (Integer.wrap value)) :=
  Closed.integer (Integer.wrap_bounds value)

theorem closed_unary (same : unary operator right = .ok value) : good value := by
  unfold unary at same
  split at same <;> cases same
  · exact Closed.boolean _
  · exact Closed.wrap _

theorem closed_integerBinary {first second : Int}
    (same : integerBinary operator first second = .ok value) : good value := by
  cases operator with
  | divide =>
    simp only [integerBinary, Integer.divide?] at same
    by_cases zero : second = 0
    · rw [if_pos zero] at same
      cases same
    · rw [if_neg zero] at same
      cases same
      exact Closed.wrap _
  | plus | minus | times =>
    cases same
    exact Closed.wrap _
  | less | greater | equal | notEqual =>
    cases same
    exact Closed.boolean _
  | _ => cases same

theorem closed_binary (same : binary left operator right = .ok value) : good value := by
  unfold binary booleanBinary stringBinary at same
  repeat' split at same
  all_goals first
    | exact closed_integerBinary same
    | cases same
      first | exact Closed.boolean _ | exact Closed.string _
    | cases same

theorem closed_index {position : Value} (fine : good left)
    (same : left.index position = .ok value) : good value := by
  unfold index at same
  split at same
  · cases same
    exact Closed.getD_null fun value found =>
      Closed.element fine value (List.mem_of_getElem? found)
  · split at same
    · cases same
      refine Closed.getD_null fun value found => ?_
      obtain ⟨entry, filed, rfl⟩ := Option.map_eq_some_iff.mp found
      exact Closed.entry fine entry (List.mem_of_find?_eq_some filed)
    · cases same
  · cases same

theorem closed_slice {lower upper : Option Value} (fine : good left)
    (same : left.slice lower upper = .ok value) : good value := by
  unfold slice at same
  split at same
  · split at same
    · cases same
      refine Closed.array fun value member => Closed.element fine value ?_
      unfold stretch at member
      split at member
      · exact List.mem_of_mem_take (List.mem_of_mem_drop member)
      · exact absurd member List.not_mem_nil
    · cases same
  · cases same

end

end Value

theorem Entry.value_of_mem_insert {α : Type} {entry other : Entry α} {entries : List (Entry α)}
    (member : other ∈ entry.insert entries) : other = entry ∨ other ∈ entries := by
  induction entries with
  | nil => exact .inl (List.mem_singleton.mp member)
  | cons first rest ih =>
    unfold insert at member
    split at member
    · exact (List.mem_cons.mp member).imp_right (List.mem_cons_of_mem _)
    · rcases List.mem_cons.mp member with rfl | member
      · exact .inr (List.mem_cons_self ..)
      · exact (ih member).imp_right (List.mem_cons_of_mem _)

namespace Builtin

open Value

variable {builtin : Builtin} {arguments values : List Value} {value : Value}

theorem eq_of_elements (same : elements builtin arguments = .ok values) :
    arguments = [.array values] := by
  unfold elements single at same
  split at same
  · rename_i found
    split at found
    · cases found
      cases same
      rfl
    · cases found
  · cases same
  · cases same

/-- Lengths are those of strings and arrays. -/
theorem exists_of_length (same : length arguments = .ok value) :
    (∃ text, arguments = [.string text] ∧ value = .integer text.utf8ByteSize) ∨
      ∃ elements, arguments = [.array elements] ∧ value = .integer elements.length := by
  unfold length single at same
  split at same <;> rename_i found <;> split at found <;> cases found <;> cases same
  · exact .inl ⟨_, rfl, rfl⟩
  · exact .inr ⟨_, rfl, rfl⟩

variable {good : Value → Prop} [Closed good] (fine : ∀ argument ∈ arguments, good argument)
include fine

theorem closed_pushed (same : pushed arguments = .ok value) : good value := by
  unfold pushed at same
  split at same
  · cases same
    refine Closed.array fun value member => ?_
    rcases List.mem_append.mp member with member | member
    · exact Closed.element (fine _ List.mem_cons_self) value member
    · exact fine value (List.mem_cons_of_mem _ member)
  · cases same
  · cases same

/-- What is made of the elements of an array. -/
theorem closed_map {change : List Value → Value}
    (changed : ∀ values, (∀ value ∈ values, good value) → good (change values))
    (same : (elements builtin arguments).map change = .ok value) : good value := by
  cases found : elements builtin arguments with
  | ok values =>
    rw [found] at same
    cases same
    obtain rfl := eq_of_elements found
    exact changed values (Closed.element (fine _ List.mem_cons_self))
  | error cause =>
    rw [found] at same
    cases same

end Builtin
end Monkey

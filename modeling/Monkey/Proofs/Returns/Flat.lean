import Monkey.Proofs.Made
import Monkey.Proofs.Stores

/-!
Values that are wrapped at most once. A value on its way out of a block is wrapped, and since a
block can stand where an operand does, a wrapped value can be bound, passed on and put into arrays
like any other. In a flat value no wrapped one is wrapped again, however deep inside. All that the
language does to values keeps them flat, but for `return` itself.
-/

namespace Monkey

namespace Value

inductive Flat : Value → Prop
  | integer (value : Int) : Flat (.integer value)
  | boolean (value : Bool) : Flat (.boolean value)
  | string (text : String) : Flat (.string text)
  | null : Flat .null
  | array {elements : List Value} (flat : ∀ value ∈ elements, Flat value) : Flat (.array elements)
  | hash {entries : List (Entry Value)} (flat : ∀ entry ∈ entries, Flat entry.value) :
      Flat (.hash entries)
  | function (parameters : List Identifier) (body : Block) (scope : Nat) :
      Flat (.function parameters body scope)
  | builtin (builtin : Builtin) : Flat (.builtin builtin)
  | returned {value : Value} (flat : Flat value) (once : ∀ inner, value ≠ .returned inner) :
      Flat (.returned value)
  | error (message : String) : Flat (.error message)

namespace Flat

variable {left value : Value} {elements : List Value} {entries : List (Entry Value)}

theorem of_array (flat : Flat (.array elements)) : ∀ value ∈ elements, Flat value := by
  cases flat with
  | array flat => exact flat

theorem of_hash (flat : Flat (.hash entries)) : ∀ entry ∈ entries, Flat entry.value := by
  cases flat with
  | hash flat => exact flat

theorem unwrapped (flat : Flat value) : Flat value.unwrapped := by
  cases flat with
  | returned flat => exact flat
  | array flat => exact .array flat
  | hash flat => exact .hash flat
  | _ => constructor

end Flat

/-- By induction on how the value is made. -/
theorem Made.flat {sources : List Value} {value : Value} (made : Made sources value)
    (flat : ∀ source ∈ sources, source.Flat) : value.Flat := by
  induction made with
  | given member => exact flat _ member
  | element _ member ih => exact ih.of_array _ member
  | entry _ member ih => exact ih.of_hash _ member
  | content _ ih => exact ih.unwrapped
  | array _ ih => exact .array ih
  | hash _ ih => exact .hash ih
  | _ => constructor

end Value

/-- All that is bound in the scopes of a store is flat. -/
def Store.Flat (store : Store) : Prop :=
  ∀ scope ∈ store.scopes, ∀ binding ∈ scope.bindings, binding.2.Flat

namespace Store.Flat

variable {store : Store}

theorem opened (flat : store.Flat) (parent : Option Nat) : (store.opened parent).Flat :=
  Store.Holds.opened flat parent

theorem bind (flat : store.Flat) (number : Nat) (name : String) {value : Value}
    (fine : value.Flat) : (store.bind number name value).Flat :=
  Store.Holds.bind flat number name fine

theorem bindAll (flat : store.Flat) (number : Nat) {bindings : List (String × Value)}
    (fine : ∀ binding ∈ bindings, binding.2.Flat) : (store.bindAll number bindings).Flat :=
  Store.Holds.bindAll flat number fine

/-- What is found in a scope or in one around it. -/
theorem find? (flat : store.Flat) {number : Nat} {name : String} {value : Value}
    (found : store.find? number name = some value) : value.Flat :=
  Store.Holds.find? flat found

end Store.Flat

end Monkey

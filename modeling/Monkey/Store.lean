import Monkey.Value

/-!
Scopes and the store that holds them. A scope binds names and refers to the scope around it, which
was opened earlier. Scopes are known by the number in which they were opened, so that all values
that refer to one see its later bindings.
-/

namespace Monkey

structure Scope where
  parent : Option Nat
  bindings : List (String × Value)

namespace Scope

/-- Binds a name anew, in the place it had if it was bound before. -/
def assign (name : String) (value : Value) : List (String × Value) → List (String × Value)
  | [] => [(name, value)]
  | first :: rest =>
    if first.1 = name then (name, value) :: rest else first :: assign name value rest

theorem lookup_assign (name other : String) (value : Value) (bindings : List (String × Value)) :
    (assign name value bindings).lookup other =
      if other = name then some value else bindings.lookup other := by
  induction bindings with
  | nil => grind [assign]
  | cons first rest ih => grind [assign]

def bind (scope : Scope) (name : String) (value : Value) : Scope :=
  { scope with bindings := assign name value scope.bindings }

/-- The bindings in the order of their names. -/
def sorted (scope : Scope) : List (String × Value) :=
  scope.bindings.mergeSort (fun first second => !(second.1 < first.1))

end Scope

structure Store where
  scopes : Array Scope

namespace Store

def empty : Store := ⟨#[]⟩

/-- The number that the next scope will have. -/
def size (store : Store) : Nat := store.scopes.size

def scope? (store : Store) (number : Nat) : Option Scope := store.scopes[number]?

/-- Opens a scope without bindings. -/
def opened (store : Store) (parent : Option Nat) : Store := ⟨store.scopes.push ⟨parent, []⟩⟩

/-- Binds a name in one scope, whatever the scopes around it bind. -/
def bind (store : Store) (number : Nat) (name : String) (value : Value) : Store :=
  ⟨store.scopes.modify number (·.bind name value)⟩

/-- Binds names one after the other. -/
def bindAll (store : Store) (number : Nat) : List (String × Value) → Store
  | [] => store
  | (name, value) :: rest => (store.bind number name value).bindAll number rest

/-- The value of a name in the innermost scope that binds it. -/
def find? (store : Store) (number : Nat) (name : String) : Option Value :=
  match store.scope? number with
  | none => none
  | some scope =>
    match scope.bindings.lookup name with
    | some value => some value
    | none =>
      match scope.parent with
      | none => none
      | some parent => if parent < number then store.find? parent name else none
termination_by number

end Store
end Monkey

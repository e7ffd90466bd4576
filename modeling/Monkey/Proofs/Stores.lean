import Monkey.Store

/-!
Scopes before and after a step, and what holds of all values that are bound. Nothing but what is
bound is ever found in a store, so a property of values that every binding has is kept by all that
is done to a store.
-/

namespace Monkey

theorem Scope.mem_assign {name : String} {value : Value} {bindings : List (String × Value)}
    {binding : String × Value} (member : binding ∈ assign name value bindings) :
    binding = (name, value) ∨ binding ∈ bindings := by
  induction bindings with
  | nil => exact .inl (List.mem_singleton.mp member)
  | cons first rest ih =>
    unfold assign at member
    split at member
    · exact (List.mem_cons.mp member).imp_right (List.mem_cons_of_mem _)
    · rcases List.mem_cons.mp member with rfl | member
      · exact .inr (List.mem_cons_self ..)
      · exact (ih member).imp_right (List.mem_cons_of_mem _)

theorem mem_of_lookup {name : String} {value : Value} {bindings : List (String × Value)}
    (found : bindings.lookup name = some value) : ∃ binding ∈ bindings, binding.2 = value := by
  induction bindings with
  | nil => cases found
  | cons first rest ih =>
    rw [List.lookup_cons] at found
    split at found
    · exact ⟨first, List.mem_cons_self .., Option.some.inj found⟩
    · obtain ⟨binding, member, same⟩ := ih found
      exact ⟨binding, List.mem_cons_of_mem _ member, same⟩

namespace Store

theorem lt_size {store : Store} {number : Nat} {found : Scope}
    (same : store.scope? number = some found) : number < store.size :=
  (Array.getElem?_eq_some_iff.mp same).1

/-- A store is as large at least as one whose scopes it all has. -/
theorem size_le_of_scope? {before after : Store} (still : ∀ number scope,
    before.scope? number = some scope → ∃ later, after.scope? number = some later) :
    before.size ≤ after.size := by
  refine Nat.le_of_not_lt fun fewer => ?_
  have last : after.size < before.scopes.size := fewer
  obtain ⟨later, found⟩ := still after.size _ (Array.getElem?_eq_getElem last)
  exact absurd (lt_size found) (Nat.lt_irrefl _)

/-! The scopes of a store after a step. -/

theorem size_opened (store : Store) (parent : Option Nat) :
    (store.opened parent).size = store.size + 1 := Array.size_push _

theorem size_le_opened (store : Store) (parent : Option Nat) :
    store.size ≤ (store.opened parent).size := by
  rw [size_opened]
  exact Nat.le_succ _

theorem size_bind (store : Store) (number : Nat) (name : String) (value : Value) :
    (store.bind number name value).size = store.size := Array.size_modify

theorem size_bindAll (store : Store) (number : Nat) (bindings : List (String × Value)) :
    (store.bindAll number bindings).size = store.size := by
  induction bindings generalizing store with
  | nil => rfl
  | cons first rest ih => exact (ih _).trans (store.size_bind number first.1 first.2)

theorem scope?_opened (store : Store) (parent : Option Nat) (number : Nat) :
    (store.opened parent).scope? number =
      if number = store.size then some ⟨parent, []⟩ else store.scope? number :=
  Array.getElem?_push

theorem scope?_bind (store : Store) (number other : Nat) (name : String) (value : Value) :
    (store.bind number name value).scope? other =
      if other = number then (store.scope? other).map (·.bind name value)
      else store.scope? other := by
  unfold Store.bind scope?
  rw [Array.getElem?_modify]
  by_cases same : number = other
  · rw [if_pos same, if_pos same.symm]
  · rw [if_neg same, if_neg (Ne.symm same)]

end Store

/-- All that is bound in the scopes of a store is good. -/
def Store.Holds (good : Value → Prop) (store : Store) : Prop :=
  ∀ scope ∈ store.scopes, ∀ binding ∈ scope.bindings, good binding.2

namespace Store.Holds

variable {good : Value → Prop} {store : Store}

theorem empty : Store.empty.Holds good := fun _ member => absurd member (Array.not_mem_empty _)

theorem opened (holds : store.Holds good) (parent : Option Nat) :
    (store.opened parent).Holds good := by
  intro scope member
  rcases Array.mem_push.mp member with member | rfl
  · exact holds scope member
  · exact fun _ member => absurd member List.not_mem_nil

theorem bind (holds : store.Holds good) (number : Nat) (name : String) {value : Value}
    (fine : good value) : (store.bind number name value).Holds good := by
  intro scope member binding inside
  obtain ⟨position, bound, rfl⟩ := Array.mem_iff_getElem.mp member
  unfold Store.bind at bound inside
  rw [Array.getElem_modify] at inside
  have kept := holds _ (Array.getElem_mem (by simpa using bound : position < store.scopes.size))
  split at inside
  · rcases Scope.mem_assign inside with rfl | inside
    · exact fine
    · exact kept binding inside
  · exact kept binding inside

theorem bindAll (holds : store.Holds good) (number : Nat) {bindings : List (String × Value)}
    (fine : ∀ binding ∈ bindings, good binding.2) : (store.bindAll number bindings).Holds good := by
  induction bindings generalizing store with
  | nil => exact holds
  | cons first rest ih =>
    exact ih (holds.bind number first.1 (fine first (List.mem_cons_self ..)))
      fun binding member => fine binding (List.mem_cons_of_mem _ member)

/-- What is found in a scope or in one around it. -/
theorem find? (holds : store.Holds good) {number : Nat} {name : String} {value : Value}
    (found : store.find? number name = some value) : good value := by
  induction number using Nat.strongRecOn with
  | ind number ih =>
    rw [Store.find?] at found
    split at found
    · cases found
    · rename_i scope opened
      split at found
      · rename_i first bound
        cases found
        obtain ⟨binding, member, rfl⟩ := mem_of_lookup bound
        exact holds scope (Array.mem_of_getElem? opened) binding member
      · split at found
        · cases found
        · split at found
          · rename_i parent outside inner
            exact ih _ inner found
          · cases found

end Store.Holds

end Monkey

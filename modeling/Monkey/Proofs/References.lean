import Monkey.Proofs.Rules

/-!
References. A function refers to the scope it was defined in, and a scope to the one around it. In
every state that programs lead to, all that is referred to is there: by what is bound, by what is at
hand at any moment, and by what a program comes to. So no reference leads out of a store, and a
scope is always inside an earlier one.
-/

namespace Monkey

open Value

namespace Value

/-- A function refers to one of the first scopes. Other values do not refer to scopes themselves. -/
def RefersBelow (size : Nat) : Value → Prop
  | function _ _ scope => scope < size
  | _ => True

/-- All functions in the value refer to scopes that are there. -/
def Within (size : Nat) (value : Value) : Prop := value.Each (RefersBelow size)

theorem RefersBelow.mono {size larger : Nat} {value : Value} (refers : value.RefersBelow size)
    (more : size ≤ larger) : value.RefersBelow larger := by
  cases value with
  | function parameters body scope => exact Nat.lt_of_lt_of_le refers more
  | _ => trivial

theorem RefersBelow.mild (size : Nat) : Mild (RefersBelow size) where
  integer _ := trivial
  boolean _ := trivial
  string _ := trivial
  null := trivial
  array _ := trivial
  hash _ := trivial
  builtin _ := trivial

theorem RefersBelow.of_length {arguments : List Value} {value : Value}
    (same : Builtin.length arguments = .ok value) (size : Nat) : value.RefersBelow size := by
  obtain ⟨_, _, rfl⟩ | ⟨_, _, rfl⟩ := Builtin.exists_of_length same <;> trivial

end Value

namespace Store

/-- Every scope is inside an earlier one, if inside any. -/
def Nested (store : Store) : Prop :=
  ∀ number scope outer, store.scope? number = some scope → scope.parent = some outer →
    outer < number

/-- Whatever is referred to is in the store. -/
structure Intact (store : Store) : Prop where
  nested : store.Nested
  bound : store.Holds (Within store.size)

namespace Nested

variable {store : Store} (nested : store.Nested)
include nested

theorem opened {parent : Option Nat} (older : ∀ outer, parent = some outer → outer < store.size) :
    (store.opened parent).Nested := by
  intro number scope outer found inside
  rw [scope?_opened] at found
  split at found
  · obtain rfl := Option.some.inj found
    exact ‹number = store.size› ▸ older outer inside
  · exact nested _ _ _ found inside

theorem bind (number : Nat) (name : String) (value : Value) :
    (store.bind number name value).Nested := by
  intro other scope outer found inside
  rw [scope?_bind] at found
  split at found
  · obtain ⟨before, opened, rfl⟩ := Option.map_eq_some_iff.mp found
    exact nested _ _ _ opened inside
  · exact nested _ _ _ found inside

theorem bindAll (number : Nat) (bindings : List (String × Value)) :
    (store.bindAll number bindings).Nested := by
  induction bindings generalizing store with
  | nil => exact nested
  | cons first rest ih => exact ih (nested.bind number first.1 first.2)

end Nested

/-- A root scope is inside no other. -/
theorem Intact.rooted {store : Store} (intact : store.Intact) : (store.opened none).Intact where
  nested := intact.nested.opened nofun
  bound scope opened binding member :=
    (intact.bound.opened none scope opened binding member).mono fun _ refers =>
      refers.mono (store.size_le_opened none)

end Store

/-- The store is intact, and the values at hand refer to scopes in it. -/
structure Visit.Intact (visit : Visit) : Prop where
  store : visit.state.store.Intact
  values : ∀ value ∈ visit.values, value.Within visit.state.store.size

namespace Rule

/-- All references lead to scopes that are there, and so they did up to now. Scopes stay. -/
def intact : Rule where
  fits _ := True
  kept watch := watch.state.store.Nested ∧ ∀ visit ∈ watch.visits, visit.Intact
  lasts watch later := watch.state.store.size ≤ later.state.store.size
  good value watch := value.RefersBelow watch.state.store.size
  stands scope watch := scope < watch.state.store.size

variable {watch : Watch}

theorem intact_note {visit : Visit} (holds : intact.Holds watch) (same : visit.state = watch.state)
    (fine : ∀ value ∈ visit.values, intact.Fine value watch) :
    intact.Steps watch (watch.note visit) := by
  obtain ⟨⟨nested, before⟩, bound⟩ := holds
  have here : visit.Intact := by
    constructor
    · rw [same]
      exact ⟨nested, bound⟩
    · rw [same]
      exact fine
  exact ⟨Nat.le_refl _, nested, List.forall_mem_cons.mpr ⟨here, before⟩⟩

theorem intact_enter {parent : Nat} (bindings : List (String × Value)) (kept : intact.kept watch)
    (stands : intact.stands parent watch) :
    intact.Steps watch ⟨watch.state.entered parent bindings, watch.visits⟩ ∧
      intact.stands watch.state.store.size ⟨watch.state.entered parent bindings, watch.visits⟩ := by
  have size := watch.state.size_entered parent bindings
  have older : ∀ outer, some parent = some outer → outer < watch.state.store.size :=
    fun outer same => Option.some.inj same ▸ stands
  have nested := (kept.1.opened older).bindAll watch.state.store.size bindings
  refine ⟨⟨?_, nested, kept.2⟩, ?_⟩
  · change watch.state.store.size ≤ (watch.state.entered parent bindings).store.size
    omega
  · change watch.state.store.size < (watch.state.entered parent bindings).store.size
    omega

theorem intact_stable : intact.Stable where
  refl _ := Nat.le_refl _
  trans := Nat.le_trans
  good_lasts good lasts := good.mono lasts
  mild _ := RefersBelow.mild _
  literal _ _ := trivial
  returned _ _ := trivial
  length _ same := RefersBelow.of_length same _
  function _ stands := stands
  opens stands := ⟨fun _ _ => trivial, stands⟩
  stands_lasts := Nat.lt_of_lt_of_le
  quiet _ _ kept := ⟨Nat.le_refl _, kept⟩
  assign {value watch} scope name kept _ := by
    refine ⟨Nat.le_of_eq ?_, kept.1.bind scope name value, kept.2⟩
    exact (watch.state.store.size_bind scope name value).symm
  enter kept stands _ := intact_enter _ kept stands
  begins _ holds fine _ := intact_note holds rfl fine
  ends _ holds _ fine := intact_note holds rfl (List.forall_mem_singleton.mpr fine)
  cuts _ _ holds _ := by
    refine intact_note holds rfl fun value member => ?_
    obtain ⟨message, rfl⟩ := Visit.exists_error member
    exact each_of_atom rfl trivial

end Rule

/-- The value that an evaluation ends with. -/
def Ending.values : Ending → List Value
  | value result => [result]
  | depthExceeded | unknownNode => []

/-- An evaluation in one of the scopes that are there leaves a store that is intact, and so are its
visits and its result. -/
theorem Node.intact (depth : Nat) {scope : Nat} (node : Node) {state : State}
    (intact : state.store.Intact) (opened : scope < state.store.size) :
    let ended := (node.evaluate depth scope).finish state
    (ended.2.store.Intact ∧ ∀ value ∈ ended.1.values, value.Within ended.2.store.size) ∧
      ∀ visit ∈ node.visits depth scope state, visit.Intact := by
  obtain ⟨final, -, ⟨⟨nested, passed⟩, bound⟩, visits, left, result⟩ := node.exists_final
    Rule.intact_stable depth scope state (fun _ _ => trivial)
    ⟨⟨intact.nested, fun _ member => absurd member List.not_mem_nil⟩, intact.bound⟩ opened
  intro ended
  refine ⟨⟨?_, fun value member => ?_⟩, fun visit member => ?_⟩
  · rw [left]
    exact ⟨nested, bound⟩
  · cases ending : ended.1 with
    | value only =>
      rw [ending] at member
      obtain rfl := List.mem_singleton.mp member
      rw [left]
      cases failed : value.isError with
      | false => exact result value ending failed
      | true =>
        cases value with
        | error message => exact each_of_atom rfl trivial
        | _ => cases failed
    | _ =>
      rw [ending] at member
      exact absurd member List.not_mem_nil
  · rw [visits] at member
    exact passed visit (List.mem_reverse.mp member)

/-- The states that an interpreter comes to, each with the values at hand in it. It begins with no
scope, may open root scopes and end its trace file, and evaluates in any scope that is there. All
that it passes on the way counts. -/
inductive State.Reached : State → List Value → Prop
  | fresh (level : Nat) : Reached (.fresh level) []
  | rooted {state : State} {values : List Value} (reached : Reached state values) :
      Reached state.openRoot.2 values
  | closed {state : State} {values : List Value} (reached : Reached state values) :
      Reached { state with trace := state.trace.close } values
  | left {state : State} {values : List Value} {scope : Nat} (reached : Reached state values)
      (opened : scope < state.store.size) (depth : Nat) (node : Node) :
      Reached ((node.evaluate depth scope).finish state).2
        ((node.evaluate depth scope).finish state).1.values
  | passed {state : State} {values : List Value} {scope depth : Nat} {node : Node} {visit : Visit}
      (reached : Reached state values) (opened : scope < state.store.size)
      (visited : visit ∈ node.visits depth scope state) : Reached visit.state visit.values

/-- By induction on how the state was reached. -/
theorem State.Reached.intact {state : State} {values : List Value}
    (reached : state.Reached values) :
    state.store.Intact ∧ ∀ value ∈ values, value.Within state.store.size := by
  induction reached with
  | fresh level =>
    have empty : Store.empty.Nested := fun _ _ _ found => nomatch found
    exact ⟨⟨empty, Store.Holds.empty⟩, fun _ member => absurd member List.not_mem_nil⟩
  | @rooted state values _ ih =>
    obtain ⟨intact, within⟩ := ih
    exact ⟨intact.rooted, fun value member =>
      (within value member).mono fun _ refers => refers.mono (state.store.size_le_opened none)⟩
  | closed _ ih => exact ih
  | left _ opened depth node ih => exact (node.intact depth ih.1 opened).1
  | passed _ opened visited ih =>
    have intact := (Node.intact _ _ ih.1 opened).2 _ visited
    exact ⟨intact.store, intact.values⟩

end Monkey

import Monkey.Proofs.Rules

/-!
Errors are never stored. An error ends the evaluation that it comes up in, so no part of a value
that is bound, handed to a call or given back is one. This is a rule that all single steps conform
to, and so it holds at every moment of every session.
-/

namespace Monkey

open Value

/-- No part of the value is an error, nor is the value itself one. -/
def Value.Errorless (value : Value) : Prop := value.Each fun part => part.isError = false

/-- An error may be what an evaluation ends with, but it is not inside of that. -/
def Ending.Errorless : Ending → Prop
  | .value result => result.isError = false → result.Errorless
  | .depthExceeded | .unknownNode => True

/-- No error is in anything that is bound, that a call is given or that an evaluation comes to. -/
structure Visit.Errorless (visit : Visit) : Prop where
  bound : visit.state.store.Holds Value.Errorless
  given : ∀ task state, visit = .begins task state → ∀ value ∈ task.values, value.Errorless
  result : ∀ task ending state, visit = .ends task ending state → ending.Errorless

namespace Rule

/-- There are no errors inside of values, and so far there were none. -/
def errorless : Rule where
  fits _ := True
  kept watch := ∀ visit ∈ watch.visits, visit.Errorless
  lasts _ _ := True
  good value _ := value.isError = false
  stands _ _ := True

variable {watch : Watch}

theorem errorless_begins (task : Task) (holds : errorless.Holds watch)
    (fine : ∀ value ∈ task.values, errorless.Fine value watch) :
    errorless.Steps watch (watch.note (.begins task watch.state)) := by
  have visit : Visit.Errorless (.begins task watch.state) := by
    refine ⟨holds.2, fun task state same => ?_, fun _ _ _ => nofun⟩
    cases same
    exact fine
  exact ⟨trivial, List.forall_mem_cons.mpr ⟨visit, holds.1⟩⟩

theorem errorless_ends (task : Task) {ending : Ending} (holds : errorless.Holds watch)
    (fine : ending.Errorless) :
    errorless.Steps watch (watch.note (.ends task ending watch.state)) := by
  have visit : Visit.Errorless (.ends task ending watch.state) := by
    refine ⟨holds.2, fun _ _ => nofun, fun task ending state same => ?_⟩
    cases same
    exact fine
  exact ⟨trivial, List.forall_mem_cons.mpr ⟨visit, holds.1⟩⟩

theorem errorless_cut (stop : Stop) : stop.ending.Errorless := by
  cases stop with
  | error message => exact nofun
  | _ => trivial

theorem errorless_stable : errorless.Stable where
  refl _ := trivial
  trans _ _ := trivial
  good_lasts good _ := good
  mild _ := {
    integer := fun _ => rfl
    boolean := fun _ => rfl
    string := fun _ => rfl
    null := rfl
    array := fun _ => rfl
    hash := fun _ => rfl
    builtin := fun _ => rfl }
  literal _ _ := rfl
  returned _ _ := rfl
  length _ same := by
    obtain ⟨_, _, rfl⟩ | ⟨_, _, rfl⟩ := Builtin.exists_of_length same <;> rfl
  function _ _ := rfl
  opens _ := ⟨fun _ _ => trivial, trivial⟩
  stands_lasts _ _ := trivial
  quiet _ _ kept := ⟨trivial, kept⟩
  assign _ _ kept _ := ⟨trivial, kept⟩
  enter kept _ _ := ⟨⟨trivial, kept⟩, trivial⟩
  begins task holds fine _ := errorless_begins task holds fine
  ends task holds _ fine := errorless_ends task holds fun _ => fine
  cuts task stop holds _ := errorless_ends task holds (errorless_cut stop)

end Rule

namespace Session

variable (depth : Nat) {session : Session}

/-- A run in a session without errors in what is bound. -/
theorem errorless_run (node : Node) (bound : session.state.store.Holds Value.Errorless) :
    (∀ visit ∈ node.visits depth root session.state, visit.Errorless) ∧
      (session.run depth node).1.Errorless ∧
      (session.run depth node).2.state.store.Holds Value.Errorless := by
  obtain ⟨final, -, ⟨kept, stored⟩, visits, state, result⟩ := Node.exists_conforming
    Rule.errorless_stable depth node session (fun _ _ => trivial)
    ⟨fun _ member => absurd member List.not_mem_nil, bound⟩ trivial
  refine ⟨fun visit member => ?_, ?_, ?_⟩
  · rw [visits] at member
    exact kept visit (List.mem_reverse.mp member)
  · cases ending : (session.run depth node).1 with
    | value value => exact result value ending
    | _ => trivial
  · rw [state]
    exact stored

/-- By induction on the steps: each run leaves no errors bound for those after it. -/
theorem errorless_steps (steps : List Step) (bound : session.state.store.Holds Value.Errorless) :
    (∀ visit ∈ session.history depth steps, visit.Errorless) ∧
      ∀ run ∈ session.perform depth steps,
        run.1.Errorless ∧ run.2.state.store.Holds Value.Errorless := by
  induction steps generalizing session with
  | nil =>
    constructor <;> exact fun _ member => absurd member List.not_mem_nil
  | cons step rest ih =>
    cases step with
    | close => exact @ih session.close bound
    | run node =>
      obtain ⟨visits, result, left⟩ := errorless_run depth node bound
      obtain ⟨later, runs⟩ := ih left
      exact ⟨List.forall_mem_append.mpr ⟨visits, later⟩,
        List.forall_mem_cons.mpr ⟨⟨result, left⟩, runs⟩⟩

/-- At every moment of a session and after each of its runs, no name in any scope is bound to an
error or to a value with an error inside. No function and no builtin is applied to one, and nothing
that is evaluated comes to a value with an error inside, unless it comes to an error. -/
theorem errors_are_never_stored (depth level : Nat) (steps : List Step) :
    (∀ visit ∈ (start level).history depth steps, visit.Errorless) ∧
      ∀ run ∈ (start level).perform depth steps,
        run.1.Errorless ∧ run.2.state.store.Holds Value.Errorless :=
  errorless_steps depth steps (Store.Holds.empty.opened none)

end Session
end Monkey

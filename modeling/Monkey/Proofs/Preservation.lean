import Monkey.Proofs.Made
import Monkey.Proofs.Stores

/-!
Evaluations that preserve a property of values. When all that is bound in the store has the
property before, all has it after, whether the evaluation is cut short or not. The steps that
evaluations are put together from have one rule each; the induction over the syntax is left to the
property at hand.
-/

namespace Monkey

/-- A property of all values without others in them, functions apart, that an array or a hash has
if what is inside has it. -/
class Value.Broad (sound : Value → Prop) : Prop extends Closed sound where
  number (value : Int) : sound (.integer value)
  builtin (builtin : Builtin) : sound (.builtin builtin)

namespace Evaluation

/-- From a store of sound values the evaluation gives something good, or it stops for a reason that
there is for stopping; it leaves a store of sound values. -/
def Preserves {α : Type} (sound : Value → Prop) (evaluation : Evaluation α) (good : α → Prop) :
    Prop :=
  ∀ state, state.store.Holds sound →
    match evaluation state with
    | .ok value later => good value ∧ later.store.Holds sound
    | .error stop later => stop ≠ .unknownNode ∧ later.store.Holds sound

namespace Preserves

variable {α β : Type} {sound : Value → Prop} {good : α → Prop} {better : β → Prop}

theorem pure {value : α} (fine : good value) : Preserves sound (Pure.pure value) good :=
  fun _ holds => ⟨fine, holds⟩

theorem throw {stop : Stop} (known : stop ≠ .unknownNode) :
    Preserves sound (MonadExcept.throw stop : Evaluation α) good :=
  fun _ holds => ⟨known, holds⟩

theorem bind {first : Evaluation α} {next : α → Evaluation β} (start : Preserves sound first good)
    (others : ∀ value, good value → Preserves sound (next value) better) :
    Preserves sound (first >>= next) better := by
  intro state holds
  have begun := start state holds
  change match EStateM.bind first next state with | .ok .. => _ | .error .. => _
  unfold EStateM.bind
  cases outcome : first state with
  | ok value later =>
    rw [outcome] at begun
    exact others value begun.1 later begun.2
  | error stop later =>
    rw [outcome] at begun
    exact begun

/-- A step that only changes the state. -/
theorem change {step : State → State}
    (keeps : ∀ state, state.store.Holds sound → (step state).store.Holds sound) :
    Preserves sound (modify step : Evaluation Unit) fun _ => True :=
  fun state holds => ⟨trivial, keeps state holds⟩

theorem follow (event : Event) : Preserves sound (follow event) fun _ => True :=
  .change fun _ holds => holds

theorem print (line : String) : Preserves sound (print line) fun _ => True :=
  .change fun _ holds => holds

theorem assign (scope : Nat) (name : String) {value : Value} (fine : sound value) :
    Preserves sound (Evaluation.bind scope name value) fun _ => True :=
  .change fun _ holds => holds.bind scope name fine

theorem enter (parent : Option Nat) {bindings : List (String × Value)}
    (fine : ∀ binding ∈ bindings, sound binding.2) :
    Preserves sound (enter parent bindings) fun _ => True :=
  fun _ holds => ⟨trivial, (holds.opened parent).bindAll _ fine⟩

theorem fault (cause : Fault) : Preserves sound (fault cause : Evaluation α) good := .throw nofun

theorem settle {value : Value} (fine : sound value) : Preserves sound (settle value) sound := by
  cases value with
  | error message => exact .throw nofun
  | _ => exact .pure fine

theorem answer {result : Except Fault Value} (fine : ∀ value, result = .ok value → sound value) :
    Preserves sound (answer result) sound := by
  cases result with
  | ok value => exact .settle (fine value rfl)
  | error cause => exact .fault cause

theorem get {next : State → Evaluation α}
    (others : ∀ state, state.store.Holds sound → Preserves sound (next state) good) :
    Preserves sound (MonadState.get >>= next) good :=
  fun state holds => others state holds state holds

theorem printAll (values : List Value) :
    Preserves sound (Builtin.printAll values) fun _ => True := by
  induction values with
  | nil => exact .pure trivial
  | cons value others ih => exact (Preserves.print _).bind fun _ _ => ih

variable [Value.Broad sound]

theorem resolve (scope : Nat) (name : String) : Preserves sound (resolve scope name) sound := by
  refine .get fun state holds => ?_
  split
  · rename_i value found
    exact .settle (holds.find? found)
  · split
    · exact .pure (Value.Broad.builtin _)
    · exact .fault _

theorem apply (builtin : Builtin) {arguments : List Value}
    (fine : ∀ value ∈ arguments, sound value) :
    Preserves sound (builtin.apply arguments) sound := by
  cases builtin with
  | len =>
    refine .answer fun _ same => ?_
    obtain ⟨_, _, rfl⟩ | ⟨_, _, rfl⟩ := Builtin.exists_of_length same <;>
      exact Value.Broad.number _
  | push => exact .answer fun _ => Builtin.closed_pushed fine
  | puts => exact (Preserves.printAll arguments).bind fun _ _ => .pure Value.Closed.null
  | first =>
    refine .answer fun _ => Builtin.closed_map fine fun values fine => ?_
    exact Value.Closed.getD_null fun value found => fine value (List.mem_of_head? found)
  | last =>
    refine .answer fun _ => Builtin.closed_map fine fun values fine => ?_
    exact Value.Closed.getD_null fun value found => fine value (List.mem_of_getLast? found)
  | rest =>
    refine .answer fun _ => Builtin.closed_map fine fun values fine => ?_
    cases values with
    | nil => exact Value.Closed.null
    | cons first values =>
      exact Value.Closed.array fun value member => fine value (List.mem_cons_of_mem _ member)

end Preserves

end Evaluation
end Monkey

import Monkey.Proofs.Tracing
import Monkey.Proofs.Visits

/-!
What an evaluation adds to a state. How it ends, the store it leaves and the lines and events that
come are its effect; the rest of the state only goes on, by texts that stand after what was written
before.
-/

namespace Monkey

open Evaluation

namespace Effect

variable {α : Type}

/-- How an evaluation with the effect ends. -/
def ending (effect : Effect Value) : Ending :=
  match effect.outcome with
  | .ok value => .value value
  | .error stop => stop.ending

/-- The state that is left of an earlier one. -/
def left (effect : Effect α) (state : State) : State :=
  ⟨effect.store, effect.lines ++ state.output, state.trace.followAll effect.events⟩

/-- What is written of the events, as far as the level asks for them. -/
def text (effect : Effect α) (level : Nat) : String :=
  Text.lines ((effect.events.filter (Event.kept level)).map Event.text)

theorem left_printed (effect : Effect α) (state : State) :
    (effect.left state).printed = state.printed ++ Text.lines effect.lines.reverse := by
  unfold State.printed left
  rw [List.reverse_append, Text.lines_append]

theorem left_traced (effect : Effect α) (state : State) :
    (effect.left state).traced =
      state.traced ++ if state.trace.closed then "" else effect.text state.trace.level := by
  unfold State.traced left text
  rw [Trace.followAll_eq]
  cases state.trace.closed with
  | true => exact (String.append_empty).symm
  | false => simp [Text.lines_append]

theorem left_shown (effect : Effect α) (state : State) :
    (effect.left state).shown =
      state.shown ++ if state.trace.closed then effect.text state.trace.level else "" := by
  unfold State.shown left text
  rw [Trace.followAll_eq]
  cases state.trace.closed with
  | true => simp [Text.lines_append]
  | false => exact (String.append_empty).symm

end Effect

/-- The plain evaluation in terms of its effect. -/
theorem Evaluation.finish_of_effect {evaluation : Evaluation Value} {effect : Effect Value}
    {state : State} (comes : ∀ output trace,
      evaluation ⟨state.store, output, trace⟩ = effect.result output trace) :
    evaluation.finish state = (effect.ending, effect.left state) := by
  have reached := comes state.output state.trace
  obtain ⟨outcome, later, lines, events⟩ := effect
  cases outcome with
  | ok value => exact finish_of_ok reached
  | error stop => exact finish_of_error reached

end Monkey

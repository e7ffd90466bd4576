import Monkey.Proofs.Parts
import Monkey.Proofs.Scopes
import Monkey.Proofs.Stores
import Monkey.Proofs.Tracing

/-!
What a session goes through: the visits of all its runs, one after the other, and the values that
come up in it. A value comes up where a part of a program has it or a call is given it, where a name
is bound to it, and where it is the result of a run; and then all its parts come up too.
-/

namespace Monkey

/-- What is handed over where a task begins: to a call the function and its arguments. -/
def Task.values : Task → List Value
  | application callee arguments => callee :: arguments
  | _ => []

/-- The scope that a task is carried out in. A call opens one of its own. -/
def Task.scope? : Task → Option Nat
  | expression _ scope | statement _ scope _ | block _ scope | body _ scope => some scope
  | application _ _ => none

theorem Task.values_of_scope? {task : Task} {scope : Nat} (within : task.scope? = some scope) :
    task.values = [] := by
  cases task with
  | application => cases within
  | _ => rfl

/-- The values that are at hand at a visit. -/
def Visit.values : Visit → List Value
  | begins task _ => task.values
  | ends _ (.value value) _ => [value]
  | ends _ _ _ => []

/-- Where a task is cut short, there is no value but an error. -/
theorem Visit.exists_error {task : Task} {stop : Stop} {state : State} {value : Value}
    (member : value ∈ (Visit.ends task stop.ending state).values) :
    ∃ message, value = .error message := by
  cases stop with
  | error message => exact ⟨message, List.mem_singleton.mp member⟩
  | _ => exact absurd member List.not_mem_nil

/-- A run of what was read from some text, whatever problems it has, or an end of the trace. -/
def Step.Parsed : Step → Prop
  | run node => ∃ source, node = .program (parse source).program
  | close => True

namespace Session

/-- The visits of all runs, the earliest first. -/
def history (depth : Nat) (session : Session) : List Step → List Visit
  | [] => []
  | .run node :: rest =>
    node.visits depth root session.state ++ (session.run depth node).2.history depth rest
  | .close :: rest => session.close.history depth rest

/-- A value is at hand at a visit, is bound then or after a run, or is what a run ends with. -/
inductive Shows (depth : Nat) (session : Session) (steps : List Step) (value : Value) : Prop
  | atHand {visit : Visit} (visited : visit ∈ session.history depth steps)
      (member : value ∈ visit.values)
  | bound {visit : Visit} {scope : Scope} {name : String}
      (visited : visit ∈ session.history depth steps) (opened : scope ∈ visit.state.store.scopes)
      (member : (name, value) ∈ scope.bindings)
  | result {run : Ending × Session} (ran : run ∈ session.perform depth steps)
      (same : run.1 = .value value)
  | left {run : Ending × Session} {scope : Scope} {name : String}
      (ran : run ∈ session.perform depth steps) (opened : scope ∈ run.2.state.store.scopes)
      (member : (name, value) ∈ scope.bindings)

namespace Shows

variable {depth : Nat} {session : Session} {steps : List Step} {value : Value}

theorem of_close (shows : session.Shows depth (.close :: steps) value) :
    session.close.Shows depth steps value := by
  cases shows with
  | atHand visited member => exact .atHand visited member
  | bound visited opened member => exact .bound visited opened member
  | result ran same => exact .result ran same
  | left ran opened member => exact .left ran opened member

/-- In the first run or later. -/
theorem of_run {node : Node} (shows : session.Shows depth (.run node :: steps) value) :
    session.Shows depth [.run node] value ∨
      (session.run depth node).2.Shows depth steps value := by
  cases shows with
  | atHand visited member =>
    rcases List.mem_append.mp visited with visited | visited
    · exact .inl (.atHand (List.mem_append_left _ visited) member)
    · exact .inr (.atHand visited member)
  | bound visited opened member =>
    rcases List.mem_append.mp visited with visited | visited
    · exact .inl (.bound (List.mem_append_left _ visited) opened member)
    · exact .inr (.bound visited opened member)
  | result ran same =>
    rcases List.mem_cons.mp ran with rfl | ran
    · exact .inl (.result List.mem_cons_self same)
    · exact .inr (.result ran same)
  | left ran opened member =>
    rcases List.mem_cons.mp ran with rfl | ran
    · exact .inl (.left List.mem_cons_self opened member)
    · exact .inr (.left ran opened member)

end Shows

def ComesUp (depth : Nat) (session : Session) (steps : List Step) (part : Value) : Prop :=
  ∃ value, session.Shows depth steps value ∧ part.Part value

end Session
end Monkey

import Monkey.Evaluation
import Monkey.Syntax.Reading
import Monkey.Text.Newlines

/-!
Sessions. A session runs one program after the other in the same root scope and keeps what they
bind, print and trace. A program text that was read with problems is not run.
-/

namespace Monkey

/-- How an evaluation ends. An error of the language is a value like any other. -/
inductive Ending where
  | value (value : Value)
  | depthExceeded
  | unknownNode

/-- Lets an evaluation run from a state. -/
def Evaluation.finish (evaluation : Evaluation Value) (state : State) : Ending × State :=
  match evaluation state with
  | .ok value state => (.value value, state)
  | .error (.error message) state => (.value (.error message), state)
  | .error .depthExceeded state => (.depthExceeded, state)
  | .error .unknownNode state => (.unknownNode, state)

namespace State

/-- A state without scopes. -/
def fresh (level : Nat) : State := ⟨.empty, [], .start level⟩

/-- Opens a root scope. -/
def openRoot (state : State) : Nat × State :=
  (state.store.size, { state with store := state.store.opened none })

def printed (state : State) : String := Text.lines state.output.reverse

/-- The trace that was written to the trace file. -/
def traced (state : State) : String := Text.lines (state.trace.recorded.reverse.map Event.text)

/-- The trace that was shown on the console. -/
def shown (state : State) : String := Text.lines (state.trace.shown.reverse.map Event.text)

/-- What was printed and traced since an earlier state, over the bindings of the later one. -/
def since (later earlier : State) : State :=
  { later with
    output := later.output.take (later.output.length - earlier.output.length)
    trace := later.trace.since earlier.trace }

end State

/-- How deeply function calls may nest. -/
def callDepth : Nat := 8000

structure Session where
  state : State

namespace Session

/-- The number of the scope that the programs of a session share. -/
def root : Nat := 0

def start (level : Nat) : Session := ⟨((State.fresh level).openRoot).2⟩

/-- Runs a part of a syntax tree in the root scope. -/
def run (depth : Nat) (session : Session) (node : Node) : Ending × Session :=
  let (ending, state) := (node.evaluate depth root).finish session.state
  (ending, ⟨state⟩)

/-- Ends the trace file. What is traced later is shown on the console. -/
def close (session : Session) : Session :=
  ⟨{ session.state with trace := session.state.trace.close }⟩

/-- The bindings of the root scope in the order of their names. -/
def bindings (session : Session) : List (String × Value) :=
  match session.state.store.scope? root with
  | some scope => scope.sorted
  | none => []

end Session

/-- Why a program text is not run. -/
inductive Rejection where
  /-- It holds a number of too many digits. -/
  | refused
  | problems (found : List Problem)

namespace Parsed

def accepted (parsed : Parsed) : Except Rejection Program :=
  if parsed.refused then .error .refused
  else if parsed.problems.isEmpty then .ok parsed.program
  else .error (.problems parsed.problems)

end Parsed

/-- Runs a program text in a session of its own. -/
def runText (depth level : Nat) (source : String) : Except Rejection (Ending × Session) :=
  (parse source).accepted.map fun program => (Session.start level).run depth (.program program)

theorem runText_of_accepted {source : String} {program : Program}
    (accepted : (parse source).accepted = .ok program) (depth level : Nat) :
    runText depth level source = .ok ((Session.start level).run depth (.program program)) := by
  unfold runText
  rw [accepted]
  rfl

/-- Runs a program text that comes from a file. -/
def runFileText (depth level : Nat) (content : String) : Except Rejection (Ending × Session) :=
  runText depth level (String.ofList (Text.unifyNewlines content.toList))

end Monkey

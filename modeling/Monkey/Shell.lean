import Monkey.Session
import Monkey.Text.Blank
import Monkey.Text.Colour

/-!
The interactive shell. Each line is a command of the shell or a program of one session. Two words
are commands, alone on their line: `exit` and `EOF`, and both leave the shell. Problems and errors
show in red.
-/

namespace Monkey

structure Shell where
  session : Session

namespace Shell

def start (level : Nat) : Shell := ⟨.start level⟩

/-- What the shell says first. -/
def greeting (user : String) : String :=
  "Hello " ++ user ++ "! This is the Monkey programming language!\nFeel free to type in commands\n"

/-- What the shell asks for a line with. -/
def prompt : String := ">> "

inductive Command where
  | blank
  | exit
  /-- The input has ended, or says so. -/
  | ending
  | program (source : String)

def Command.ofLine (line : String) : Command :=
  let word := String.ofList (Text.trim line.toList)
  if word = "" then blank
  else if word = "exit" then exit
  else if word = "EOF" then ending
  else program line

/-- What the shell answers to a line. -/
structure Reply where
  output : String
  /-- Whether the line leaves the shell. -/
  stop : Bool

def endsInBinding (program : Program) : Bool :=
  match program.statements.getLast? with
  | some (.binding _ _ _) => true
  | _ => false

def resultLine (value : Value) : String :=
  (if value.isError then Text.red value.inspect else value.inspect) ++ "\n"

/-- What is shown after a program has run. A program whose last statement binds a name shows
nothing, even if it failed before it came so far. -/
def summary (program : Program) : Ending → String
  | .depthExceeded => Text.red "ERROR: maximum recursion depth exceeded" ++ "\n"
  | .unknownNode => ""
  | .value value => if endsInBinding program then "" else resultLine value

def problemLine (problem : Problem) : String := Text.red ("\t" ++ problem.message) ++ "\n"

/-- Carries out a line. A number of too many digits is the one thing that brings the shell down. -/
def enter (depth : Nat) (shell : Shell) (line : String) : Except Rejection (Reply × Shell) :=
  match Command.ofLine line with
  | .blank => .ok (⟨"", false⟩, shell)
  | .exit => .ok (⟨"", true⟩, ⟨shell.session.close⟩)
  | .ending => .ok (⟨"\n", true⟩, ⟨shell.session.close⟩)
  | .program source =>
    match (parse source).accepted with
    | .error .refused => .error .refused
    | .error (.problems found) => .ok (⟨String.join (found.map problemLine), false⟩, shell)
    | .ok program =>
      let (ending, session) := shell.session.run depth (.program program)
      let added := session.state.since shell.session.state
      .ok (⟨added.printed ++ added.shown ++ summary program ending, false⟩, ⟨session⟩)

end Shell
end Monkey

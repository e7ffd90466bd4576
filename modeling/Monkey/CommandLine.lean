import Monkey.CommandLine.Arguments
import Monkey.CommandLine.FileTree
import Monkey.Shell

/-!
The command. It runs the files it is given one after the other, each in a session of its own, and
stops at the first that fails; without files it opens the shell. When asked for a trace it writes it
to a file in the working directory, anew for each session.
-/

namespace Monkey

/-- What brings a command down without a status. -/
inductive Breakdown where
  /-- The bytes of a file are no text in UTF-8. -/
  | notText
  /-- A directory stands where a file should. -/
  | isDirectory
  | tooLong
  /-- A program holds a number of too many digits. -/
  | refused

/-- What a command has done: what it wrote, how it ended, and the files it left. -/
structure Report where
  stdout : String
  stderr : String
  ending : Except Breakdown Nat
  files : FileTree

namespace Report

def done (files : FileTree) : Report := ⟨"", "", .ok 0, files⟩

def failed (status : Nat) (message : String) (files : FileTree) : Report :=
  ⟨"", message, .ok status, files⟩

def broken (breakdown : Breakdown) (files : FileTree) : Report := ⟨"", "", .error breakdown, files⟩

/-- Goes on after a success. After anything else nothing more is done. -/
def andThen (report : Report) (next : FileTree → Report) : Report :=
  match report.ending with
  | .ok 0 =>
    let later := next report.files
    { later with stdout := report.stdout ++ later.stdout, stderr := report.stderr ++ later.stderr }
  | _ => report

end Report

namespace CommandLine

def usage : String := "usage: monkey [-h] [-v] [FILE ...]\n"

def help : String :=
  usage ++ "\nMonkey language interpreter\n\npositional arguments:\n" ++
  "  FILE        Monkey source files to run (if empty, starts the REPL)\n\noptions:\n" ++
  "  -h, --help  show this help message and exit\n" ++
  "  -v          increase debug verbosity (can be repeated)\n"

/-- Where the trace goes. -/
def traceFile (files : FileTree) : List String := files.place (.ofText "debug.txt")

/-- Whether a trace, if one is wanted, can be written. -/
def canTrace (level : Nat) (files : FileTree) : Bool :=
  level = 0 ||
    match files.contentAt? (traceFile files) with
    | some .directory => false
    | _ => true

/-- The files once the trace of a session has been written. -/
def withTrace (level : Nat) (session : Session) (files : FileTree) : FileTree :=
  if level = 0 then files
  else files.put (traceFile files) (.file session.state.traced.toUTF8)

/-- Runs a program in a session of its own. -/
def runProgram (depth level : Nat) (program : Program) (files : FileTree) : Report :=
  if canTrace level files then
    let (ending, session) := (Session.start level).run depth (.program program)
    let files := withTrace level session files
    match ending with
    | .value value => ⟨session.state.printed ++ value.inspect ++ "\n", "", .ok 0, files⟩
    | _ =>
      ⟨session.state.printed, Text.red "Runtime error: maximum recursion depth exceeded" ++ "\n",
        .ok 1, files⟩
  else .broken .isDirectory files

def runSource (depth level : Nat) (path : Path) (source : String) (files : FileTree) : Report :=
  match (parse source).accepted with
  | .error .refused => .broken .refused files
  | .error (.problems found) =>
    .failed 1 ("Errors in file: " ++ path.text ++ "\n" ++
      Text.lines (found.map fun problem => Text.red problem.message)) files
  | .ok program => runProgram depth level program files

def runFile (depth level : Nat) (name : String) (files : FileTree) : Report :=
  let path := Path.ofText name
  match files.look path with
  | .missing =>
    .failed 1 (Text.red ("Error: file " ++ path.text ++ " not found") ++ "\n") files
  | .tooLong => .broken .tooLong files
  | .content .directory => .broken .isDirectory files
  | .content (.file bytes) =>
    match String.fromUTF8? bytes with
    | none => .broken .notText files
    | some content =>
      runSource depth level path (String.ofList (Text.unifyNewlines content.toList)) files

def runFiles (depth level : Nat) : List String → FileTree → Report
  | [], files => .done files
  | name :: rest, files => (runFile depth level name files).andThen (runFiles depth level rest)

/-- What a shell writes while it is given lines, and the shell it leaves. When the lines are used up
that counts as the line `EOF`. -/
def converse (depth : Nat) (shell : Shell) (lines : List String) :
    String × Except Breakdown Unit × Shell :=
  match lines with
  | [] => answered (shell.enter depth "EOF") fun _ => ("", .ok (), shell)
  | line :: rest => answered (shell.enter depth line) fun shell => converse depth shell rest
where
  answered (reply : Except Rejection (Shell.Reply × Shell))
      (next : Shell → String × Except Breakdown Unit × Shell) :
      String × Except Breakdown Unit × Shell :=
    match reply with
    | .error _ => (Shell.prompt, .error .refused, shell)
    | .ok (reply, shell) =>
      if reply.stop then (Shell.prompt ++ reply.output, .ok (), shell)
      else
        let (output, ending, shell) := next shell
        (Shell.prompt ++ reply.output ++ output, ending, shell)

def runShell (depth level : Nat) (user : String) (input : String) (files : FileTree) : Report :=
  if canTrace level files then
    let lines := (Text.splitLines (Text.unifyNewlines input.toList)).map String.ofList
    let (output, ending, shell) := converse depth (.start level) lines
    ⟨Shell.greeting user ++ output, "", ending.map fun _ => 0, withTrace level shell.session files⟩
  else .broken .isDirectory files

/-- Carries out a command. -/
def run (depth : Nat) (user : String) (arguments : List String) (input : String)
    (files : FileTree) : Report :=
  match Request.ofArguments arguments with
  | .help => ⟨help, "", .ok 0, files⟩
  | .misuse reason => .failed 2 (usage ++ "monkey: error: " ++ reason ++ "\n") files
  | .run level [] => runShell depth level user input files
  | .run level names => runFiles depth level names files

end CommandLine
end Monkey

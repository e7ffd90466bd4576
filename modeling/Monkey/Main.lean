import Monkey.CommandLine

/-!
The command as a program: it reads the files its arguments name, or the lines of a shell, and writes
what the command answers.
-/

namespace Monkey.Main

/-- What the disk has under a name. -/
def contentOnDisk? (name : String) : IO (Option Content) := do
  try
    let place ← IO.FS.realPath name
    if ← place.isDir then
      pure (some .directory)
    else
      pure (some (.file (← IO.FS.readBinFile place)))
  catch _ =>
    pure none

/-- Adds what a path leads to, with the directories on the way. -/
def addFromDisk (files : FileTree) (path : Path) : IO FileTree := do
  let mut files := files
  for count in List.range (path.parts.length + 1) do
    let part := Path.mk path.root (path.parts.take count)
    match ← contentOnDisk? part.text with
    | some content => files := files.put (files.place part) content
    | none => pure ()
  return files

def writeTrace (level : Nat) (files : FileTree) : IO Unit := do
  if level > 0 then
    match files.contentAt? (CommandLine.traceFile files) with
    | some (.file bytes) => IO.FS.writeBinFile "debug.txt" bytes
    | _ => pure ()

/-- Writes what a command has to say and gives its status. -/
def deliver (level : Nat) (report : Report) : IO UInt32 := do
  IO.print report.stdout
  IO.eprint report.stderr
  writeTrace level report.files
  match report.ending with
  | .ok status => pure (UInt32.ofNat status)
  | .error _ => pure 1

/-- The next lines of the input. One read may bring several, as a carriage return ends one too. -/
def readLines (input : IO.FS.Stream) : IO (List String) := do
  let read ← input.getLine
  if read.isEmpty then pure ["EOF"]
  else pure ((Text.splitLines (Text.unifyNewlines read.toList)).map String.ofList)

partial def converse (level : Nat) (files : FileTree) (shell : Shell) (input : IO.FS.Stream)
    (lines : List String) : IO UInt32 := do
  match lines with
  | [] => converse level files shell input (← readLines input)
  | line :: rest =>
    match shell.enter callDepth line with
    | .error _ => pure 1
    | .ok (reply, shell) =>
      IO.print reply.output
      writeTrace level (CommandLine.withTrace level shell.session files)
      if reply.stop then pure 0
      else
        IO.print Shell.prompt
        (← IO.getStdout).flush
        converse level files shell input rest

end Monkey.Main

open Monkey in
def main (arguments : List String) : IO UInt32 := do
  let home := (Path.ofText (← IO.currentDir).toString).parts
  let files ← Main.addFromDisk (.empty home) (.ofText "debug.txt")
  match Request.ofArguments arguments with
  | .run level [] =>
    if CommandLine.canTrace level files then
      IO.print (Shell.greeting ((← IO.getEnv "USER").getD "") ++ Shell.prompt)
      (← IO.getStdout).flush
      Main.writeTrace level (CommandLine.withTrace level (.start level) files)
      Main.converse level files (.start level) (← IO.getStdin) []
    else
      Main.deliver level (.broken .isDirectory files)
  | .run level names =>
    let files ← names.foldlM (fun files name => Main.addFromDisk files (.ofText name)) files
    Main.deliver level (CommandLine.runFiles callDepth level names files)
  | _ => Main.deliver 0 (CommandLine.run callDepth "" arguments "" files)

import Monkey.CommandLine
import Monkey.Proofs.Literals
import Monkey.Proofs.Safety
import Monkey.Proofs.Visits

/-!
Files that are run one after the other. Without a trace a run leaves nothing behind, so each file
does what it does on its own, and what a command writes is what its files write, up to the first
that fails. A file fails if it cannot be read or has problems or nests calls too deeply; a program
that ends in an error has not failed.
-/

namespace Monkey

namespace Report

/-- Whether the command may go on to the next file. -/
def succeeds (report : Report) : Bool :=
  match report.ending with
  | .ok 0 => true
  | _ => false

variable {report : Report} {reports : List Report} {next : FileTree → Report}

end Report

namespace CommandLine

open Report

/-- The text that is read where a path leads to a file. -/
def Holds (files : FileTree) (path : Path) (source : String) : Prop :=
  ∃ bytes content, files.look path = .content (.file bytes) ∧
    String.fromUTF8? bytes = some content ∧
      source = String.ofList (Text.unifyNewlines content.toList)

section
variable {depth : Nat} {files : FileTree} {path : Path} {report : Report}

/-- A file holds one text at most. -/
theorem Holds.unique {source other : String} (holds : Holds files path source)
    (holds' : Holds files path other) : source = other := by
  obtain ⟨bytes, content, found, readable, rfl⟩ := holds
  obtain ⟨bytes', content', found', readable', rfl⟩ := holds'
  obtain rfl : bytes = bytes' := by
    simpa using found.symm.trans found'
  obtain rfl := Option.some.inj (readable.symm.trans readable')
  rfl

end

end CommandLine
end Monkey

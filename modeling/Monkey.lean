import Monkey.Main
import Monkey.Proofs.Arithmetic
import Monkey.Proofs.Arrays
import Monkey.Proofs.Bodies
import Monkey.Proofs.Canonical
import Monkey.Proofs.Concatenation
import Monkey.Proofs.Depths
import Monkey.Proofs.Digests
import Monkey.Proofs.Errorless
import Monkey.Proofs.Errors
import Monkey.Proofs.FileRuns
import Monkey.Proofs.FirstProblem
import Monkey.Proofs.Forest
import Monkey.Proofs.Grouping
import Monkey.Proofs.HashLiterals
import Monkey.Proofs.Heads
import Monkey.Proofs.Keys
import Monkey.Proofs.Kinds
import Monkey.Proofs.Layout
import Monkey.Proofs.Lexemes
import Monkey.Proofs.LineEnds
import Monkey.Proofs.Lines
import Monkey.Proofs.Literals
import Monkey.Proofs.PrintedData
import Monkey.Proofs.Problems
import Monkey.Proofs.Ranges
import Monkey.Proofs.Reachable
import Monkey.Proofs.Recognition
import Monkey.Proofs.Repetition
import Monkey.Proofs.Respacing
import Monkey.Proofs.Returns.Exits
import Monkey.Proofs.Safety
import Monkey.Proofs.Scopes
import Monkey.Proofs.Shells
import Monkey.Proofs.Tracing
import Monkey.Syntax.Agreement
import Monkey.Value.Agreement

import Monkey.Syntax.Rendering
import Monkey.Value

/-!
The text that shows a value. Strings show bare, functions show their parameters and the canonical
form of their body, and a value on its way out of a block shows as itself.
-/

namespace Monkey.Value

open Text

mutual

def inspect : Value → String
  | .integer value => toString value
  | .boolean true => "true"
  | .boolean false => "false"
  | .string text => text
  | .null => "null"
  | .array elements => "[" ++ joined ", " (inspectAll elements) ++ "]"
  | .hash entries => "\x7b" ++ joined ", " (inspectEntries entries) ++ "\x7d"
  | .function parameters body _ =>
    "fn(" ++ joined ", " (parameters.map Identifier.render) ++ ") " ++ body.render
  | .builtin _ => "builtin function"
  | .returned value => inspect value
  | .error message => "ERROR: " ++ message

def inspectAll : List Value → List String
  | [] => []
  | value :: rest => inspect value :: inspectAll rest

def inspectEntries : List (Entry Value) → List String
  | [] => []
  | ⟨_, key, value⟩ :: rest => (inspect key ++ ": " ++ inspect value) :: inspectEntries rest

end

end Monkey.Value

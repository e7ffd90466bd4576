/-!
Colour on a terminal.
-/

namespace Monkey.Text

/-- The text between the sequences that turn red on and all colours off. -/
def red (text : String) : String := "\x1b[31m" ++ text ++ "\x1b[0m"

end Monkey.Text

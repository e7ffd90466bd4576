/-!
Putting texts together.
-/

namespace Monkey.Text

/-- The parts in a row, with `separator` between neighbours. -/
def joined (separator : String) : List String → String
  | [] => ""
  | [part] => part
  | part :: next :: rest => part ++ separator ++ joined separator (next :: rest)

/-- Each line ended by a line feed. -/
def lines : List String → String
  | [] => ""
  | line :: rest => line ++ "\n" ++ lines rest

theorem lines_append (first second : List String) :
    lines (first ++ second) = lines first ++ lines second := by
  induction first with
  | nil => rfl
  | cons line rest ih => simp only [List.cons_append, lines, ih, String.append_assoc]

end Monkey.Text

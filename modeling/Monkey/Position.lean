/-!
Places in a source text. A place moves with the characters read: a line feed opens the next line,
every other character, a carriage return or a tab too, takes one column.
-/

namespace Monkey

/-- A line and a column, both counted from one. Columns count characters. -/
structure Position where
  line : Nat
  column : Nat
deriving DecidableEq

namespace Position

def start : Position := ⟨1, 1⟩

/-- The place just after a character that stands at `place`. -/
def step (place : Position) (c : Char) : Position :=
  if c = '\n' then ⟨place.line + 1, 1⟩ else ⟨place.line, place.column + 1⟩

/-- The place just after a stretch of text that begins at `place`. -/
def after (place : Position) (text : List Char) : Position :=
  text.foldl step place

@[simp] theorem after_nil (place : Position) : place.after [] = place := rfl

@[simp] theorem after_cons (place : Position) (c : Char) (text : List Char) :
    place.after (c :: text) = (place.step c).after text := rfl

theorem after_append (place : Position) (first second : List Char) :
    place.after (first ++ second) = (place.after first).after second := by
  simp [after]

/-- The form messages use, `line:column`. -/
def text (place : Position) : String :=
  toString place.line ++ ":" ++ toString place.column

end Position
end Monkey

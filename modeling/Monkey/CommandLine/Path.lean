/-!
Paths to files. A path is kept in its plain form, without empty parts and without parts that stay
where they are. Parts that go up stay, since where they lead depends on the directories there are.
-/

namespace Monkey

structure Path where
  /-- What an absolute path begins with: two slashes stay two, any other number becomes one. -/
  root : String
  parts : List String

namespace Path

def splitParts (text : List Char) : List String :=
  match text with
  | [] => [""]
  | c :: rest =>
    if c = '/' then "" :: splitParts rest
    else
      match splitParts rest with
      | [] => [String.singleton c]
      | first :: others => (String.singleton c ++ first) :: others

def rootOf : List Char → String
  | '/' :: '/' :: '/' :: _ => "/"
  | '/' :: '/' :: _ => "//"
  | '/' :: _ => "/"
  | _ => ""

def ofText (text : String) : Path :=
  ⟨rootOf text.toList, (splitParts text.toList).filter fun part => part ≠ "" && part ≠ "."⟩

/-- The path of nothing at all is that of the working directory. -/
def text (path : Path) : String :=
  let shown := path.root ++ String.intercalate "/" path.parts
  if shown = "" then "." else shown

end Path
end Monkey

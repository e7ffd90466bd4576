import Monkey.CommandLine.Path

/-!
The files a command can see, and where it works among them. A place is given by the names on the way
to it from the top.
-/

namespace Monkey

inductive Content where
  | directory
  | file (bytes : ByteArray)

structure FileTree where
  workingDirectory : List String
  entries : List (List String × Content)

/-- What a path leads to. -/
inductive Found where
  | missing
  | content (content : Content)
  /-- The path or one of its parts is longer than paths can be. -/
  | tooLong

namespace FileTree

/-- A tree with nothing but a working directory. -/
def empty (workingDirectory : List String) : FileTree := ⟨workingDirectory, []⟩

/-- What is at a place. A directory is there as soon as something is in it. -/
def contentAt? (tree : FileTree) (place : List String) : Option Content :=
  match tree.entries.lookup place with
  | some content => some content
  | none =>
    if place.isPrefixOf tree.workingDirectory || tree.entries.any (place.isPrefixOf ·.1) then
      some .directory
    else
      none

/-- One step along a path. There is nothing above the top. -/
def step (place : List String) (part : String) : List String :=
  if part = ".." then place.dropLast else place ++ [part]

/-- Where a path starts. -/
def origin (tree : FileTree) (path : Path) : List String :=
  if path.root = "" then tree.workingDirectory else []

/-- Where a path leads if there are directories all along it. -/
def place (tree : FileTree) (path : Path) : List String :=
  path.parts.foldl step (tree.origin path)

/-- Follows the parts of a path from a place on. Every place on the way has to be a directory, and a
part has at most 255 bytes. -/
def walk (tree : FileTree) (place : List String) : List String → Found
  | [] =>
    match tree.contentAt? place with
    | some content => .content content
    | none => .missing
  | part :: rest =>
    match tree.contentAt? place with
    | some .directory =>
      if part.utf8ByteSize > 255 then .tooLong else tree.walk (step place part) rest
    | _ => .missing

/-- A whole path has less than 4096 bytes. -/
def look (tree : FileTree) (path : Path) : Found :=
  if path.text.utf8ByteSize ≥ 4096 then .tooLong
  else tree.walk (tree.origin path) path.parts

def put (tree : FileTree) (place : List String) (content : Content) : FileTree :=
  { tree with entries := (place, content) :: tree.entries.filter (·.1 ≠ place) }

end FileTree
end Monkey

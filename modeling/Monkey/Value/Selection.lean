import Monkey.Fault
import Monkey.Value

/-!
Parts of values: elements of arrays, entries of hashes, stretches of arrays. Indices go round an
array in both directions, so every index meets an element of an array that has one. The bounds of a
slice go round only once, from the far end, and may then still lie outside.
-/

namespace Monkey

/-- A bound between 0 and `length`, counted from the far end when negative. -/
def normalizeBound (bound length : Int) : Option Int :=
  let counted := if bound < 0 then bound + length else bound
  if 0 ≤ counted ∧ counted ≤ length then some counted else none

namespace Value

/-- The element that index `position` meets. -/
def element (elements : List Value) (position : Int) : Value :=
  (elements[(position % elements.length).toNat]?).getD null

def index (left position : Value) : Except Fault Value :=
  match left, position with
  | array elements, integer position => .ok (element elements position)
  | hash entries, position =>
    match position.hashKey? with
    | some hashKey => .ok ((Entry.find? entries hashKey).map Entry.value |>.getD null)
    | none => .error (.unusableKey position.kind)
  | left, _ => .error (.notIndexable left.kind)

/-- The elements from `lower` up to but not with `upper`, none if a bound lies outside. -/
def stretch (elements : List Value) (lower upper : Int) : List Value :=
  match normalizeBound lower elements.length, normalizeBound upper elements.length with
  | some start, some stop => (elements.take stop.toNat).drop start.toNat
  | _, _ => []

/-- A bound that was left out stands for the end it is at. -/
def boundOr (default : Int) : Option Value → Option Int
  | none => some default
  | some (integer value) => some value
  | some _ => none

def slice (left : Value) (lower upper : Option Value) : Except Fault Value :=
  match left with
  | array elements =>
    match boundOr 0 lower, boundOr elements.length upper with
    | some start, some stop => .ok (array (stretch elements start stop))
    | _, _ => .error (.notSliceable .array (lower.map kind) (upper.map kind))
  | left => .error (.notSliceable left.kind (lower.map kind) (upper.map kind))

end Value
end Monkey

import Monkey.Value.Rendering

/-!
What can be followed of a running program. How much is followed is a level: calls from one on,
bindings too from two on, and the branches taken from three on.
-/

namespace Monkey

inductive Event where
  | call (function : Value) (arguments : List Value)
  | builtinCall (builtin : Builtin) (arguments : List Value)
  | binding (name : String) (value : Value)
  | condition (value : Value)

namespace Event

/-- The lowest level at which an event is followed. -/
def level : Event → Nat
  | call _ _ | builtinCall _ _ => 1
  | binding _ _ => 2
  | condition _ => 3

def text : Event → String
  | call function arguments => "call " ++ function.inspect ++ " with (" ++ list arguments ++ ")"
  | builtinCall builtin arguments =>
    "call builtin " ++ builtin.name ++ " with (" ++ list arguments ++ ")"
  | binding name value => "let " ++ name ++ " = " ++ value.inspect
  | condition value =>
    "if condition " ++ value.inspect ++ " -> " ++ (if value.isTruthy then "True" else "False")
where
  list (arguments : List Value) : String := Text.joined ", " (arguments.map Value.inspect)

end Event

/-- The events followed so far, the latest first. Those after the trace is closed are shown on the
console. -/
structure Trace where
  level : Nat
  closed : Bool
  recorded : List Event
  shown : List Event

namespace Trace

def start (level : Nat) : Trace := ⟨level, false, [], []⟩

def close (trace : Trace) : Trace := { trace with closed := true }

/-- Follows an event if the level asks for it. -/
def follow (trace : Trace) (event : Event) : Trace :=
  if event.level ≤ trace.level then
    if trace.closed then { trace with shown := event :: trace.shown }
    else { trace with recorded := event :: trace.recorded }
  else trace

/-- The events followed since an earlier point. -/
def since (later earlier : Trace) : Trace :=
  { later with
    recorded := later.recorded.take (later.recorded.length - earlier.recorded.length)
    shown := later.shown.take (later.shown.length - earlier.shown.length) }

end Trace
end Monkey

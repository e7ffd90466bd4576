import Monkey.Store
import Monkey.Trace
import Monkey.Value.Operation
import Monkey.Value.Selection

/-!
Running programs. Evaluation threads a state through the tree, and an error cuts it short with the
state as it was. A function call runs the function's body in a scope of its own inside the scope
that the function was defined in. Calls nest only so deep; past that the evaluation is given up,
which is no error of the language and cannot be mistaken for one.
-/

namespace Monkey

structure State where
  store : Store
  /-- The lines printed so far, the latest first. -/
  output : List String
  trace : Trace

/-- What cuts an evaluation short. -/
inductive Stop where
  | error (message : String)
  /-- Calls were nested more deeply than was allowed. -/
  | depthExceeded
  /-- A node of no known kind came up. -/
  | unknownNode

abbrev Evaluation := EStateM Stop State

/-- How a called value is applied to arguments. -/
abbrev Calling := Value → List Value → Evaluation Value

namespace Evaluation

def fault {α : Type} (cause : Fault) : Evaluation α := throw (.error cause.message)

/-- Goes on with a value. One that is an error ends the evaluation instead. -/
def settle (value : Value) : Evaluation Value :=
  match value with
  | .error message => throw (.error message)
  | value => pure value

def answer (result : Except Fault Value) : Evaluation Value :=
  match result with
  | .ok value => settle value
  | .error cause => fault cause

def follow (event : Event) : Evaluation Unit :=
  modify fun state => { state with trace := state.trace.follow event }

def print (line : String) : Evaluation Unit :=
  modify fun state => { state with output := line :: state.output }

def bind (scope : Nat) (name : String) (value : Value) : Evaluation Unit :=
  modify fun state => { state with store := state.store.bind scope name value }

/-- Opens a scope and binds names in it. -/
def enter (parent : Option Nat) (bindings : List (String × Value)) : Evaluation Nat :=
  modifyGet fun state =>
    let number := state.store.size
    (number, { state with store := (state.store.opened parent).bindAll number bindings })

/-- A name stands for what the innermost scope binds it to, else for a builtin function. -/
def resolve (scope : Nat) (name : String) : Evaluation Value := do
  match (← get).store.find? scope name with
  | some value => settle value
  | none =>
    match Builtin.named? name with
    | some builtin => pure (.builtin builtin)
    | none => fault (.unbound name)

end Evaluation

open Evaluation

mutual

def Expr.evaluate (calling : Calling) (scope : Nat) : Expr → Evaluation Value
  | .identifier name => resolve scope name.name
  | .integer _ value => pure (.integer value)
  | .boolean _ value => pure (.boolean value)
  | .string _ value => pure (.string value)
  | .unary _ operator right => do
    let right ← right.evaluate calling scope
    answer (Value.unary operator right)
  | .binary _ left operator right => do
    let left ← left.evaluate calling scope
    let right ← right.evaluate calling scope
    answer (Value.binary left operator right)
  | .conditional _ condition consequence alternative => do
    let condition ← condition.evaluate calling scope
    follow (.condition condition)
    if condition.isTruthy then consequence.evaluate calling scope
    else Block.evaluateAlternative calling scope alternative
  | .function _ parameters body => pure (.function parameters body scope)
  | .call _ callee arguments => do
    let callee ← callee.evaluate calling scope
    let arguments ← Expr.evaluateAll calling scope arguments
    calling callee arguments
  | .array _ elements => do
    let elements ← Expr.evaluateAll calling scope elements
    pure (.array elements)
  | .hash _ pairs => do
    let entries ← Expr.evaluatePairs calling scope [] pairs
    pure (.hash entries)
  | .index _ left position => do
    let left ← left.evaluate calling scope
    let position ← position.evaluate calling scope
    answer (left.index position)
  | .slice _ left lower upper => do
    let left ← left.evaluate calling scope
    let lower ← Expr.evaluateBound calling scope lower
    let upper ← Expr.evaluateBound calling scope upper
    answer (left.slice lower upper)
  | .unknown => throw .unknownNode

def Expr.evaluateBound (calling : Calling) (scope : Nat) :
    Option Expr → Evaluation (Option Value)
  | none => pure none
  | some bound => do
    let value ← bound.evaluate calling scope
    pure (some value)

/-- From left to right. -/
def Expr.evaluateAll (calling : Calling) (scope : Nat) : List Expr → Evaluation (List Value)
  | [] => pure []
  | expr :: rest => do
    let value ← expr.evaluate calling scope
    let values ← Expr.evaluateAll calling scope rest
    pure (value :: values)

/-- A key is looked at before its value is evaluated. -/
def Expr.evaluatePairs (calling : Calling) (scope : Nat) (entries : List (Entry Value)) :
    List (Expr × Expr) → Evaluation (List (Entry Value))
  | [] => pure entries
  | (key, value) :: rest => do
    let key ← key.evaluate calling scope
    match key.hashKey? with
    | none => fault (.unhashable key.kind)
    | some hashKey =>
      let value ← value.evaluate calling scope
      Expr.evaluatePairs calling scope (Entry.insert ⟨hashKey, key, value⟩ entries) rest

def Statement.evaluate (calling : Calling) (scope : Nat) : Statement → Evaluation Value
  | .binding _ name value => do
    let value ← Expr.evaluateOrNull calling scope value
    bind scope name.name value
    follow (.binding name.name value)
    pure .null
  | .giveBack _ value => do
    let value ← Expr.evaluateOrNull calling scope value
    pure (.returned value)
  | .expression _ value => Expr.evaluateOrNull calling scope value
  | .block body => body.evaluate calling scope

/-- A value that was left out is `null`. -/
def Expr.evaluateOrNull (calling : Calling) (scope : Nat) : Option Expr → Evaluation Value
  | none => pure .null
  | some expr => expr.evaluate calling scope

/-- Statements run until one gives a value back. The result is that of the last one that ran. -/
def Statement.evaluateAll (calling : Calling) (scope : Nat) (last : Value) :
    List Statement → Evaluation Value
  | [] => pure last
  | statement :: rest => do
    let value ← statement.evaluate calling scope
    match value with
    | .returned value => pure (.returned value)
    | value => Statement.evaluateAll calling scope value rest

def Block.evaluate (calling : Calling) (scope : Nat) : Block → Evaluation Value
  | ⟨_, statements⟩ => Statement.evaluateAll calling scope .null statements

def Block.evaluateAlternative (calling : Calling) (scope : Nat) :
    Option Block → Evaluation Value
  | none => pure .null
  | some block => block.evaluate calling scope

end

namespace Builtin

/-- The only element of an argument list, which has to have one. -/
def single (arguments : List Value) : Except Fault Value :=
  match arguments with
  | [value] => .ok value
  | arguments => .error (.wrongCount arguments.length 1)

/-- The elements of the one argument, which has to be an array. -/
def elements (builtin : Builtin) (arguments : List Value) : Except Fault (List Value) :=
  match single arguments with
  | .ok (.array elements) => .ok elements
  | .ok value => .error (.notAnArray builtin value.kind)
  | .error cause => .error cause

/-- The length of a string is counted in bytes. -/
def length (arguments : List Value) : Except Fault Value :=
  match single arguments with
  | .ok (.string text) => .ok (.integer text.utf8ByteSize)
  | .ok (.array elements) => .ok (.integer elements.length)
  | .ok value => .error (.noLength value.kind)
  | .error cause => .error cause

def pushed (arguments : List Value) : Except Fault Value :=
  match arguments with
  | [.array elements, value] => .ok (.array (elements ++ [value]))
  | [left, _] => .error (.notAnArray .push left.kind)
  | arguments => .error (.wrongCount arguments.length 2)

def printAll : List Value → Evaluation Unit
  | [] => pure ()
  | value :: others => do
    print value.inspect
    printAll others

def apply (builtin : Builtin) (arguments : List Value) : Evaluation Value :=
  match builtin with
  | len => answer (length arguments)
  | push => answer (pushed arguments)
  | puts => do
    printAll arguments
    pure .null
  | first => answer ((elements first arguments).map fun values => values.head?.getD .null)
  | last => answer ((elements last arguments).map fun values => values.getLast?.getD .null)
  | rest => answer ((elements rest arguments).map fun
    | [] => .null
    | _ :: values => .array values)

end Builtin

/-- Applies a value to arguments, with at most `depth` function calls inside one another. -/
def applyWithin (depth : Nat) (callee : Value) (arguments : List Value) : Evaluation Value :=
  match callee with
  | .function parameters body scope => do
    if arguments.length ≠ parameters.length then
      fault (.wrongCount arguments.length parameters.length)
    else
      match depth with
      | 0 => throw .depthExceeded
      | depth + 1 =>
        follow (.call callee arguments)
        let inner ← enter (some scope) ((parameters.map Identifier.name).zip arguments)
        let result ← body.evaluate (applyWithin depth) inner
        settle result.unwrapped
  | .builtin builtin => do
    follow (.builtinCall builtin arguments)
    builtin.apply arguments
  | callee => fault (.notCallable callee.kind)

/-- A program runs its statements and takes off one layer of `return`. -/
def Program.evaluate (depth scope : Nat) (program : Program) : Evaluation Value := do
  let result ← Statement.evaluateAll (applyWithin depth) scope .null program.statements
  pure result.unwrapped

def Node.evaluate (depth scope : Nat) : Node → Evaluation Value
  | .program tree => tree.evaluate depth scope
  | .statement tree => tree.evaluate (applyWithin depth) scope
  | .expression tree => tree.evaluate (applyWithin depth) scope

end Monkey

import Monkey.Session

/-!
What an evaluation goes through. The watched evaluation does what the plain one does and also notes
down whenever it begins with a part and whenever it is done with one: an expression, a statement, a
block, the body of a called function, or the call itself. Without the notes the two are the same.
-/

namespace Monkey

/-- What is evaluated on the way. Syntax is evaluated in a scope. -/
inductive Task where
  | expression (tree : Expr) (scope : Nat)
  /-- A statement, and whether it is one of the program or of a function's body itself, not of a
  block in it. -/
  | statement (tree : Statement) (scope : Nat) (direct : Bool)
  | block (tree : Block) (scope : Nat)
  /-- The body of a function, in the scope of the call. -/
  | body (tree : Block) (scope : Nat)
  | application (callee : Value) (arguments : List Value)

inductive Visit where
  | begins (task : Task) (state : State)
  | ends (task : Task) (ending : Ending) (state : State)

def Stop.ending : Stop → Ending
  | error message => .value (.error message)
  | depthExceeded => .depthExceeded
  | unknownNode => .unknownNode

section
variable {σ α β : Type} {first : EStateM Stop σ α} {next : α → EStateM Stop σ β} {state later : σ}

theorem bind_of_ok {value : α} (outcome : first state = .ok value later) :
    (first >>= next) state = next value later := by
  change EStateM.bind first next state = _
  unfold EStateM.bind
  rw [outcome]

theorem bind_of_error {stop : Stop} (outcome : first state = .error stop later) :
    (first >>= next) state = .error stop later := by
  change EStateM.bind first next state = _
  unfold EStateM.bind
  rw [outcome]

end

namespace Evaluation

variable {evaluation : Evaluation Value} {state later : State}

theorem finish_of_ok {value : Value} (outcome : evaluation state = .ok value later) :
    evaluation.finish state = (.value value, later) := by
  unfold finish
  rw [outcome]

theorem finish_of_error {stop : Stop} (outcome : evaluation state = .error stop later) :
    evaluation.finish state = (stop.ending, later) := by
  unfold finish
  rw [outcome]
  cases stop <;> rfl

end Evaluation

/-- The state of an evaluation, and the visits up to here, the latest first. -/
structure Watch where
  state : State
  visits : List Visit

abbrev Watched := EStateM Stop Watch

namespace Watched

/-- Evaluates without a note. -/
def plainly {α : Type} (evaluation : Evaluation α) : Watched α := fun watch =>
  match evaluation watch.state with
  | .ok value state => .ok value ⟨state, watch.visits⟩
  | .error stop state => .error stop ⟨state, watch.visits⟩

/-- The state and the visits that an evaluation leaves, whether it has a value or not. -/
def leaves {α : Type} (watched : Watched α) (watch : Watch) : Watch :=
  match watched watch with
  | .ok _ final | .error _ final => final

theorem leaves_of_ok {α : Type} {watched : Watched α} {watch final : Watch} {value : α}
    (outcome : watched watch = .ok value final) : watched.leaves watch = final := by
  unfold leaves
  rw [outcome]

theorem leaves_of_error {α : Type} {watched : Watched α} {watch final : Watch} {stop : Stop}
    (outcome : watched watch = .error stop final) : watched.leaves watch = final := by
  unfold leaves
  rw [outcome]

theorem plainly_bind {α β : Type} (first : Evaluation α) (next : α → Evaluation β) :
    plainly (first >>= next) = plainly first >>= fun value => plainly (next value) := by
  funext watch
  change plainly (EStateM.bind first next) watch =
    EStateM.bind (plainly first) (fun value => plainly (next value)) watch
  unfold EStateM.bind plainly
  dsimp only
  cases first watch.state <;> rfl

/-- Notes down the beginning and the end of a task. -/
def visit (task : Task) (inner : Watched Value) : Watched Value := fun watch =>
  match inner ⟨watch.state, .begins task watch.state :: watch.visits⟩ with
  | .ok value later =>
    .ok value ⟨later.state, .ends task (.value value) later.state :: later.visits⟩
  | .error stop later =>
    .error stop ⟨later.state, .ends task stop.ending later.state :: later.visits⟩

section
variable {task : Task} {inner : Watched Value} {watch final : Watch}

theorem visit_of_ok {value : Value}
    (outcome : inner ⟨watch.state, .begins task watch.state :: watch.visits⟩ = .ok value final) :
    visit task inner watch =
      .ok value ⟨final.state, .ends task (.value value) final.state :: final.visits⟩ := by
  unfold visit
  rw [outcome]

theorem visit_of_error {stop : Stop}
    (outcome : inner ⟨watch.state, .begins task watch.state :: watch.visits⟩ = .error stop final) :
    visit task inner watch =
      .error stop ⟨final.state, .ends task stop.ending final.state :: final.visits⟩ := by
  unfold visit
  rw [outcome]

end

end Watched

open Evaluation Watched

section
variable (calling : Value → List Value → Watched Value) (scope : Nat)

/-! The parts of a tree are visited as they are evaluated; the visit of the tree itself is left to
what is around it. -/

mutual

def Expr.watch : Expr → Watched Value
  | .identifier name => plainly (resolve scope name.name)
  | .integer _ value => pure (.integer value)
  | .boolean _ value => pure (.boolean value)
  | .string _ value => pure (.string value)
  | .unary _ operator right => do
    let right ← visit (.expression right scope) right.watch
    plainly (answer (Value.unary operator right))
  | .binary _ left operator right => do
    let left ← visit (.expression left scope) left.watch
    let right ← visit (.expression right scope) right.watch
    plainly (answer (Value.binary left operator right))
  | .conditional _ condition consequence alternative => do
    let condition ← visit (.expression condition scope) condition.watch
    plainly (follow (.condition condition))
    if condition.isTruthy then visit (.block consequence scope) (consequence.watch false)
    else Block.watchAlternative alternative
  | .function _ parameters body => pure (.function parameters body scope)
  | .call _ callee arguments => do
    let callee ← visit (.expression callee scope) callee.watch
    let arguments ← Expr.watchAll arguments
    visit (.application callee arguments) (calling callee arguments)
  | .array _ elements => do
    let elements ← Expr.watchAll elements
    pure (.array elements)
  | .hash _ pairs => do
    let entries ← Expr.watchPairs [] pairs
    pure (.hash entries)
  | .index _ left position => do
    let left ← visit (.expression left scope) left.watch
    let position ← visit (.expression position scope) position.watch
    plainly (answer (left.index position))
  | .slice _ left lower upper => do
    let left ← visit (.expression left scope) left.watch
    let lower ← Expr.watchBound lower
    let upper ← Expr.watchBound upper
    plainly (answer (left.slice lower upper))
  | .unknown => throw .unknownNode

def Expr.watchBound : Option Expr → Watched (Option Value)
  | none => pure none
  | some bound => do
    let value ← visit (.expression bound scope) bound.watch
    pure (some value)

def Expr.watchAll : List Expr → Watched (List Value)
  | [] => pure []
  | expr :: rest => do
    let value ← visit (.expression expr scope) expr.watch
    let values ← Expr.watchAll rest
    pure (value :: values)

def Expr.watchPairs (entries : List (Entry Value)) :
    List (Expr × Expr) → Watched (List (Entry Value))
  | [] => pure entries
  | (key, value) :: rest => do
    let key ← visit (.expression key scope) key.watch
    match key.hashKey? with
    | none => plainly (fault (.unhashable key.kind))
    | some hashKey =>
      let value ← visit (.expression value scope) value.watch
      Expr.watchPairs (Entry.insert ⟨hashKey, key, value⟩ entries) rest

def Statement.watch : Statement → Watched Value
  | .binding _ name value => do
    let value ← Expr.watchOrNull value
    plainly (bind scope name.name value)
    plainly (follow (.binding name.name value))
    pure .null
  | .giveBack _ value => do
    let value ← Expr.watchOrNull value
    pure (.returned value)
  | .expression _ value => Expr.watchOrNull value
  | .block body => visit (.block body scope) (body.watch false)

def Expr.watchOrNull : Option Expr → Watched Value
  | none => pure .null
  | some expr => visit (.expression expr scope) expr.watch

def Statement.watchAll (direct : Bool) (last : Value) : List Statement → Watched Value
  | [] => pure last
  | statement :: rest => do
    let value ← visit (.statement statement scope direct) statement.watch
    match value with
    | .returned value => pure (.returned value)
    | value => Statement.watchAll direct value rest

def Block.watch (direct : Bool) : Block → Watched Value
  | ⟨_, statements⟩ => Statement.watchAll direct .null statements

def Block.watchAlternative : Option Block → Watched Value
  | none => pure .null
  | some block => visit (.block block scope) (block.watch false)

end

end

/-- Applies a value as `applyWithin` does. -/
def watchWithin (depth : Nat) (callee : Value) (arguments : List Value) : Watched Value :=
  match callee with
  | .function parameters body scope => do
    if arguments.length ≠ parameters.length then
      plainly (fault (.wrongCount arguments.length parameters.length))
    else
      match depth with
      | 0 => throw .depthExceeded
      | depth + 1 =>
        plainly (follow (.call callee arguments))
        let inner ← plainly (enter (some scope) ((parameters.map Identifier.name).zip arguments))
        let result ← visit (.body body inner) (body.watch (watchWithin depth) inner true)
        plainly (settle result.unwrapped)
  | .builtin builtin => do
    plainly (follow (.builtinCall builtin arguments))
    plainly (builtin.apply arguments)
  | callee => plainly (fault (.notCallable callee.kind))

def Program.watch (depth scope : Nat) (program : Program) : Watched Value := do
  let result ← Statement.watchAll (watchWithin depth) scope true .null program.statements
  pure result.unwrapped

def Node.watch (depth scope : Nat) : Node → Watched Value
  | .program tree => tree.watch depth scope
  | .statement tree => tree.watch (watchWithin depth) scope
  | .expression tree => tree.watch (watchWithin depth) scope

/-! Without the notes. -/

namespace Watched

/-- The watched evaluation does to the state what the plain one does, with the same result. -/
def Forgets {α : Type} (watched : Watched α) (evaluation : Evaluation α) : Prop :=
  ∀ watch, (match watched watch with
    | .ok value later => .ok value later.state
    | .error stop later => .error stop later.state) = evaluation watch.state

namespace Forgets

variable {α β : Type}

theorem pure (value : α) : Forgets (Pure.pure value) (Pure.pure value) := fun _ => rfl

theorem throw (stop : Stop) :
    Forgets (MonadExcept.throw stop : Watched α) (MonadExcept.throw stop) :=
  fun _ => rfl

theorem plainly (evaluation : Evaluation α) : Forgets (plainly evaluation) evaluation := by
  intro watch
  unfold Watched.plainly
  cases evaluation watch.state <;> rfl

theorem visit {watched : Watched Value} {evaluation : Evaluation Value} (task : Task)
    (inner : Forgets watched evaluation) : Forgets (visit task watched) evaluation := by
  intro watch
  rw [← inner ⟨watch.state, .begins task watch.state :: watch.visits⟩]
  unfold Watched.visit
  cases watched ⟨watch.state, .begins task watch.state :: watch.visits⟩ <;> rfl

theorem bind {watched : Watched α} {evaluation : Evaluation α} {next : α → Watched β}
    {further : α → Evaluation β} (start : Forgets watched evaluation)
    (others : ∀ value, Forgets (next value) (further value)) :
    Forgets (watched >>= next) (evaluation >>= further) := by
  intro watch
  have same := start watch
  change (match EStateM.bind watched next watch with
    | .ok value later => EStateM.Result.ok value later.state
    | .error stop later => .error stop later.state) =
      EStateM.bind evaluation further watch.state
  unfold EStateM.bind
  rw [← same]
  cases watched watch with
  | ok value later => exact others value later
  | error stop later => rfl

end Forgets
end Watched

section
variable {watching : Value → List Value → Watched Value} {calling : Calling} (scope : Nat)
variable (calls : ∀ callee arguments,
  (watching callee arguments).Forgets (calling callee arguments))
include calls

set_option linter.unusedSectionVars false

mutual

theorem Expr.forgets : ∀ expr : Expr,
    (expr.watch watching scope).Forgets (expr.evaluate calling scope)
  | .identifier name => .plainly _
  | .integer _ value => .pure _
  | .boolean _ value => .pure _
  | .string _ value => .pure _
  | .unary _ _ right => .bind (.visit _ (Expr.forgets right)) fun _ => .plainly _
  | .binary _ left _ right => .bind (.visit _ (Expr.forgets left)) fun _ =>
    .bind (.visit _ (Expr.forgets right)) fun _ => .plainly _
  | .conditional _ condition consequence alternative => by
    refine .bind (.visit _ (Expr.forgets condition)) fun value => .bind (.plainly _) fun _ => ?_
    split
    · exact .visit _ (Block.forgets false consequence)
    · exact Block.forgetsAlternative alternative
  | .function _ _ _ => .pure _
  | .call _ callee arguments => .bind (.visit _ (Expr.forgets callee)) fun _ =>
    .bind (Expr.forgetsAll arguments) fun _ => .visit _ (calls _ _)
  | .array _ elements => .bind (Expr.forgetsAll elements) fun _ => .pure _
  | .hash _ pairs => .bind (Expr.forgetsPairs [] pairs) fun _ => .pure _
  | .index _ left position => .bind (.visit _ (Expr.forgets left)) fun _ =>
    .bind (.visit _ (Expr.forgets position)) fun _ => .plainly _
  | .slice _ left lower upper => .bind (.visit _ (Expr.forgets left)) fun _ =>
    .bind (Expr.forgetsBound lower) fun _ => .bind (Expr.forgetsBound upper) fun _ => .plainly _
  | .unknown => .throw _

theorem Expr.forgetsBound : ∀ bound : Option Expr,
    (Expr.watchBound watching scope bound).Forgets (Expr.evaluateBound calling scope bound)
  | none => .pure _
  | some bound => .bind (.visit _ (Expr.forgets bound)) fun _ => .pure _

theorem Expr.forgetsAll : ∀ list : List Expr,
    (Expr.watchAll watching scope list).Forgets (Expr.evaluateAll calling scope list)
  | [] => .pure _
  | expr :: rest => .bind (.visit _ (Expr.forgets expr)) fun _ =>
    .bind (Expr.forgetsAll rest) fun _ => .pure _

theorem Expr.forgetsPairs (entries : List (Entry Value)) : ∀ list : List (Expr × Expr),
    (Expr.watchPairs watching scope entries list).Forgets
      (Expr.evaluatePairs calling scope entries list)
  | [] => .pure _
  | (key, value) :: rest => by
    refine .bind (.visit _ (Expr.forgets key)) fun key => ?_
    cases key.hashKey? with
    | none => exact .plainly _
    | some hashKey =>
      exact .bind (.visit _ (Expr.forgets value)) fun _ => Expr.forgetsPairs _ rest

theorem Statement.forgets : ∀ statement : Statement,
    (statement.watch watching scope).Forgets (statement.evaluate calling scope)
  | .binding _ _ value => .bind (Expr.forgetsOrNull value) fun _ => .bind (.plainly _) fun _ =>
    .bind (.plainly _) fun _ => .pure _
  | .giveBack _ value => .bind (Expr.forgetsOrNull value) fun _ => .pure _
  | .expression _ value => Expr.forgetsOrNull value
  | .block body => .visit _ (Block.forgets false body)

theorem Expr.forgetsOrNull : ∀ value : Option Expr,
    (Expr.watchOrNull watching scope value).Forgets (Expr.evaluateOrNull calling scope value)
  | none => .pure _
  | some expr => .visit _ (Expr.forgets expr)

theorem Statement.forgetsAll (direct : Bool) (last : Value) : ∀ list : List Statement,
    (Statement.watchAll watching scope direct last list).Forgets
      (Statement.evaluateAll calling scope last list)
  | [] => .pure _
  | statement :: rest => by
    refine .bind (.visit _ (Statement.forgets statement)) fun value => ?_
    have others := fun last => Statement.forgetsAll direct last rest
    cases value with
    | returned value => exact .pure _
    | _ => exact others _

theorem Block.forgets (direct : Bool) : ∀ block : Block,
    (block.watch watching scope direct).Forgets (block.evaluate calling scope)
  | ⟨_, statements⟩ => Statement.forgetsAll direct .null statements

theorem Block.forgetsAlternative : ∀ block : Option Block,
    (Block.watchAlternative watching scope block).Forgets
      (Block.evaluateAlternative calling scope block)
  | none => .pure _
  | some block => .visit _ (Block.forgets false block)

end

end

/-- By induction on how deep calls may nest. -/
theorem watchWithin_forgets (depth : Nat) (callee : Value) (arguments : List Value) :
    (watchWithin depth callee arguments).Forgets (applyWithin depth callee arguments) := by
  induction depth generalizing callee arguments with
  | zero =>
    cases callee with
    | function parameters body scope =>
      unfold watchWithin applyWithin
      by_cases wrong : arguments.length ≠ parameters.length
      · simp only [if_pos wrong]
        exact .plainly _
      · simp only [if_neg wrong]
        exact .throw _
    | builtin builtin => exact .bind (.plainly _) fun _ => .plainly _
    | _ => exact .plainly _
  | succ depth ih =>
    cases callee with
    | function parameters body scope =>
      unfold watchWithin applyWithin
      by_cases wrong : arguments.length ≠ parameters.length
      · simp only [if_pos wrong]
        exact .plainly _
      · simp only [if_neg wrong]
        exact .bind (.plainly _) fun _ => .bind (.plainly _) fun inner =>
          .bind (.visit _ (Block.forgets inner ih true _)) fun _ => .plainly _
    | builtin builtin => exact .bind (.plainly _) fun _ => .plainly _
    | _ => exact .plainly _

theorem Program.forgets (depth scope : Nat) (program : Program) :
    (program.watch depth scope).Forgets (program.evaluate depth scope) :=
  .bind (Statement.forgetsAll scope (watchWithin_forgets depth) true _ _) fun _ => .pure _

theorem Node.forgets (depth scope : Nat) (node : Node) :
    (node.watch depth scope).Forgets (node.evaluate depth scope) := by
  cases node with
  | program tree => exact tree.forgets depth scope
  | statement tree => exact tree.forgets scope (watchWithin_forgets depth)
  | expression tree => exact tree.forgets scope (watchWithin_forgets depth)

/-- All visits of the evaluation of a node, the earliest first. -/
def Node.visits (depth scope : Nat) (node : Node) (state : State) : List Visit :=
  ((node.watch depth scope).leaves ⟨state, []⟩).visits.reverse

end Monkey

import Monkey.Proofs.Renumbering
import Monkey.Proofs.Simulation
import Monkey.Proofs.Tracing

/-!
Evaluation under other numbers. Two runs of the same tree, from states that differ by the numbers of
their scopes only, do the same at every step and come to states that differ by these numbers only.
For this the second run has to open its scopes under the numbers that those of the first have there.
Runs of trees that agree come to functions that agree; here the tree is the same, and so are the
functions that it gives, places and all.
-/

namespace Monkey

open Evaluation

variable {shift : Nat → Nat}

/-! States. -/

def Event.renumbered (shift : Nat → Nat) : Event → Event
  | call function arguments =>
    .call (function.renumbered shift) (arguments.map (Value.renumbered shift))
  | builtinCall builtin arguments => .builtinCall builtin (arguments.map (Value.renumbered shift))
  | binding name value => .binding name (value.renumbered shift)
  | condition value => .condition (value.renumbered shift)

theorem Event.text_renumbered (event : Event) :
    (event.renumbered shift).text = event.text := by
  have listed (arguments : List Value) :
      text.list (arguments.map (Value.renumbered shift)) = text.list arguments := by
    unfold text.list
    rw [List.map_map]
    exact congrArg _ (List.map_congr_left fun value _ => value.inspect_renumbered)
  cases event with
  | call function arguments =>
    unfold text renumbered
    dsimp only
    rw [function.inspect_renumbered, listed]
  | builtinCall builtin arguments =>
    unfold text renumbered
    dsimp only
    rw [listed]
  | binding name value =>
    unfold text renumbered
    dsimp only
    rw [value.inspect_renumbered]
  | condition value =>
    unfold text renumbered
    dsimp only
    rw [value.inspect_renumbered, value.isTruthy_renumbered]

theorem Event.level_renumbered (event : Event) :
    (event.renumbered shift).level = event.level := by
  cases event <;> rfl

def Trace.renumbered (shift : Nat → Nat) (trace : Trace) : Trace :=
  { trace with
    recorded := trace.recorded.map (Event.renumbered shift)
    shown := trace.shown.map (Event.renumbered shift) }

theorem Trace.follow_renumbered (trace : Trace) (event : Event) :
    (trace.renumbered shift).follow (event.renumbered shift) =
      (trace.follow event).renumbered shift := by
  unfold follow
  rw [event.level_renumbered]
  by_cases asked : event.level ≤ trace.level
  · rw [if_pos asked]
    refine (if_pos asked).trans ?_
    cases closed : trace.closed <;> simp [renumbered, closed]
  · rw [if_neg asked]
    exact if_neg asked

structure State.Renumbered (shift : Nat → Nat) (state state' : State) : Prop where
  store : state.store.Renumbered shift state'.store
  output : state'.output = state.output
  trace : state'.trace = state.trace.renumbered shift

/-! Evaluations. -/

namespace Evaluation

variable {α β : Type} {image : α → α} {image' : β → β}

/-- From states that differ by the numbers of their scopes only, the second evaluation does what the
first one does, with the image of what that comes to. -/
def Mirrors (shift : Nat → Nat) (image : α → α) (evaluation evaluation' : Evaluation α) : Prop :=
  Together (State.Renumbered shift) (fun value value' => value' = image value) evaluation
    evaluation'

namespace Mirrors

theorem pure {value value' : α} (same : value' = image value) :
    Mirrors shift image (Pure.pure value) (Pure.pure value') := Together.pure same

theorem throw (stop : Stop) :
    Mirrors shift image (MonadExcept.throw stop) (MonadExcept.throw stop) := Together.throw stop

theorem bind {first first' : Evaluation α} {next next' : α → Evaluation β}
    (start : Mirrors shift image first first')
    (others : ∀ value, Mirrors shift image' (next value) (next' (image value))) :
    Mirrors shift image' (first >>= next) (first' >>= next') :=
  Together.bind start fun value _ same => same ▸ others value

theorem branch {asked : Prop} [Decidable asked] {yes no yes' no' : Evaluation α}
    (positive : Mirrors shift image yes yes') (negative : Mirrors shift image no no') :
    Mirrors shift image (if asked then yes else no) (if asked then yes' else no') :=
  Together.branch positive negative

theorem change {step step' : State → State} (keeps : ∀ {state state'},
      state.Renumbered shift state' → (step state).Renumbered shift (step' state')) :
    Mirrors shift id (modify step) (modify step') :=
  fun _ _ same => .ok rfl (keeps same)

theorem fault (cause : Fault) :
    Mirrors shift image (Evaluation.fault cause) (Evaluation.fault cause) := .throw _

theorem settle (value : Value) :
    Mirrors shift (Value.renumbered shift) (settle value) (settle (value.renumbered shift)) := by
  cases value with
  | error message => exact .throw _
  | _ => exact .pure rfl

theorem answer {result result' : Except Fault Value}
    (same : result' = result.map (Value.renumbered shift)) :
    Mirrors shift (Value.renumbered shift) (answer result) (answer result') := by
  subst same
  cases result with
  | ok value => exact .settle value
  | error cause => exact .fault cause

theorem follow (event : Event) :
    Mirrors shift id (follow event) (follow (event.renumbered shift)) :=
  .change fun {state _} same => ⟨same.store, same.output,
    same.trace ▸ state.trace.follow_renumbered event⟩

theorem print {line line' : String} (lines : line' = line) :
    Mirrors shift id (print line) (print line') := by
  subst lines
  exact .change fun same => ⟨same.store, congrArg (_ :: ·) same.output, same.trace⟩

theorem printAll (values : List Value) :
    Mirrors shift id (Builtin.printAll values)
      (Builtin.printAll (values.map (Value.renumbered shift))) := by
  induction values with
  | nil => exact .pure rfl
  | cons value others ih => exact .bind (.print value.inspect_renumbered) fun _ => ih

theorem apply (builtin : Builtin) (arguments : List Value) :
    Mirrors shift (Value.renumbered shift) (builtin.apply arguments)
      (builtin.apply (arguments.map (Value.renumbered shift))) := by
  cases builtin with
  | len => exact .answer (Builtin.length_renumbered arguments)
  | push => exact .answer (Builtin.pushed_renumbered arguments)
  | puts => exact .bind (.printAll arguments) fun _ => .pure rfl
  | first =>
    refine .answer (Builtin.map_elements_renumbered .first (fun elements => ?_) arguments)
    rw [List.head?_map, Value.getD_null_renumbered]
  | last =>
    refine .answer (Builtin.map_elements_renumbered .last (fun elements => ?_) arguments)
    rw [List.getLast?_map, Value.getD_null_renumbered]
  | rest =>
    refine .answer (Builtin.map_elements_renumbered .rest (fun elements => ?_) arguments)
    cases elements with
    | nil => rfl
    | cons _ elements => exact Value.renumbered_array.symm

variable (up : StrictMono shift)
include up

theorem resolve (scope : Nat) (name : String) :
    Mirrors shift (Value.renumbered shift) (resolve scope name) (resolve (shift scope) name) := by
  refine Together.get fun state state' same => ?_
  rw [same.store.find? up scope name]
  cases state.store.find? scope name with
  | some value => exact Mirrors.settle value
  | none =>
    cases Builtin.named? name with
    | some builtin => exact Mirrors.pure rfl
    | none => exact Mirrors.fault _

theorem assign (scope : Nat) (name : String) (value : Value) :
    Mirrors shift id (Evaluation.bind scope name value)
      (Evaluation.bind (shift scope) name (value.renumbered shift)) :=
  .change fun same => ⟨same.store.bind up scope name value, same.output, same.trace⟩

theorem enter (parent : Nat) (names : List String) (values : List Value) :
    Mirrors shift shift (enter (some parent) (names.zip values))
      (enter (some (shift parent)) (names.zip (values.map (Value.renumbered shift)))) := by
  intro state state' same
  have newest : state'.store.size = shift state.store.size := (same.store.fresh 0).symm
  have entered := (same.store.opened up (some parent)).bindAll up state.store.size names values
  rw [← newest] at entered
  exact .ok newest ⟨entered, same.output, same.trace⟩

end Mirrors
end Evaluation

/-! Trees. -/

section
variable (up : StrictMono shift) {calling : Calling} (scope : Nat)
variable (calls : ∀ callee arguments, Mirrors shift (Value.renumbered shift)
  (calling callee arguments)
  (calling (callee.renumbered shift) (arguments.map (Value.renumbered shift))))
include up calls

set_option linter.unusedSectionVars false

mutual

theorem Expr.mirrors : ∀ tree : Expr, Mirrors shift (Value.renumbered shift)
    (tree.evaluate calling scope) (tree.evaluate calling (shift scope))
  | .identifier name => .resolve up scope name.name
  | .integer _ _ | .boolean _ _ | .string _ _ | .function _ _ _ => .pure rfl
  | .unary _ operator right => .bind (Expr.mirrors right) fun right =>
    .answer (Value.unary_renumbered operator right)
  | .binary _ left operator right => .bind (Expr.mirrors left) fun left =>
    .bind (Expr.mirrors right) fun right => .answer (Value.binary_renumbered operator left right)
  | .conditional _ condition consequence alternative => by
    refine .bind (Expr.mirrors condition) fun value =>
      .bind (.follow (.condition value)) fun _ => ?_
    rw [value.isTruthy_renumbered]
    exact .branch (Block.mirrors consequence) (Block.mirrorsAlternative alternative)
  | .call _ callee arguments => .bind (Expr.mirrors callee) fun callee =>
    .bind (Expr.mirrorsAll arguments) fun arguments => calls callee arguments
  | .array _ elements => .bind (Expr.mirrorsAll elements) fun _ =>
    .pure Value.renumbered_array.symm
  | .hash _ pairs => .bind (Expr.mirrorsPairs [] pairs) fun _ => .pure Value.renumbered_hash.symm
  | .index _ left position => .bind (Expr.mirrors left) fun left =>
    .bind (Expr.mirrors position) fun position => .answer (left.index_renumbered position)
  | .slice _ left lower upper => .bind (Expr.mirrors left) fun left =>
    .bind (Expr.mirrorsBound lower) fun lower => .bind (Expr.mirrorsBound upper) fun upper =>
    .answer (left.slice_renumbered lower upper)
  | .unknown => .throw _

theorem Expr.mirrorsBound : ∀ bound : Option Expr,
    Mirrors shift (Option.map (Value.renumbered shift)) (Expr.evaluateBound calling scope bound)
      (Expr.evaluateBound calling (shift scope) bound)
  | none => .pure rfl
  | some bound => .bind (Expr.mirrors bound) fun _ => .pure rfl

theorem Expr.mirrorsAll : ∀ list : List Expr,
    Mirrors shift (List.map (Value.renumbered shift)) (Expr.evaluateAll calling scope list)
      (Expr.evaluateAll calling (shift scope) list)
  | [] => .pure rfl
  | expr :: rest => .bind (Expr.mirrors expr) fun _ => .bind (Expr.mirrorsAll rest) fun _ =>
    .pure rfl

theorem Expr.mirrorsPairs (entries : List (Entry Value)) : ∀ list : List (Expr × Expr),
    Mirrors shift (List.map (Entry.renumbered shift))
      (Expr.evaluatePairs calling scope entries list)
      (Expr.evaluatePairs calling (shift scope) (entries.map (Entry.renumbered shift)) list)
  | [] => .pure rfl
  | (key, value) :: rest => by
    refine .bind (Expr.mirrors key) fun key => ?_
    rw [key.hashKey?_renumbered, key.kind_renumbered]
    cases key.hashKey? with
    | none => exact .fault _
    | some hashKey =>
      refine .bind (Expr.mirrors value) fun value => ?_
      have others := Expr.mirrorsPairs (Entry.insert ⟨hashKey, key, value⟩ entries) rest
      rw [← Entry.insert_renumbered] at others
      exact others

theorem Statement.mirrors : ∀ statement : Statement, Mirrors shift (Value.renumbered shift)
    (statement.evaluate calling scope) (statement.evaluate calling (shift scope))
  | .binding _ name value => .bind (Expr.mirrorsOrNull value) fun value =>
    .bind (.assign up scope name.name value) fun _ =>
    .bind (.follow (.binding name.name value)) fun _ => .pure rfl
  | .giveBack _ value => .bind (Expr.mirrorsOrNull value) fun _ => .pure rfl
  | .expression _ value => Expr.mirrorsOrNull value
  | .block body => Block.mirrors body

theorem Expr.mirrorsOrNull : ∀ value : Option Expr, Mirrors shift (Value.renumbered shift)
    (Expr.evaluateOrNull calling scope value) (Expr.evaluateOrNull calling (shift scope) value)
  | none => .pure rfl
  | some expr => Expr.mirrors expr

theorem Statement.mirrorsAll (last : Value) : ∀ list : List Statement,
    Mirrors shift (Value.renumbered shift) (Statement.evaluateAll calling scope last list)
      (Statement.evaluateAll calling (shift scope) (last.renumbered shift) list)
  | [] => .pure rfl
  | statement :: rest => by
    refine .bind (Statement.mirrors statement) fun value => ?_
    have others := fun last => Statement.mirrorsAll last rest
    cases value with
    | returned value => exact .pure rfl
    | _ => exact others _

theorem Block.mirrors : ∀ block : Block, Mirrors shift (Value.renumbered shift)
    (block.evaluate calling scope) (block.evaluate calling (shift scope))
  | ⟨_, statements⟩ => Statement.mirrorsAll .null statements

theorem Block.mirrorsAlternative : ∀ block : Option Block, Mirrors shift (Value.renumbered shift)
    (Block.evaluateAlternative calling scope block)
    (Block.evaluateAlternative calling (shift scope) block)
  | none => .pure rfl
  | some block => Block.mirrors block

end

end

/-- By induction on how deep calls may nest. -/
theorem applyWithin_mirrors (up : StrictMono shift) (depth : Nat) (callee : Value)
    (arguments : List Value) : Mirrors shift (Value.renumbered shift)
      (applyWithin depth callee arguments)
      (applyWithin depth (callee.renumbered shift)
        (arguments.map (Value.renumbered shift))) := by
  induction depth generalizing callee arguments with
  | zero =>
    cases callee with
    | function parameters body scope =>
      unfold applyWithin Value.renumbered
      dsimp only
      rw [List.length_map]
      exact .branch (.fault _) (.throw _)
    | builtin builtin =>
      exact .bind (.follow (.builtinCall builtin arguments)) fun _ => .apply builtin arguments
    | _ => exact .fault _
  | succ depth ih =>
    cases callee with
    | function parameters body scope =>
      unfold applyWithin
      dsimp only [Value.renumbered]
      rw [List.length_map]
      refine .branch (.fault _) ?_
      refine .bind (.follow (.call (.function parameters body scope) arguments)) fun _ =>
        .bind (.enter up scope _ arguments) fun inner =>
        .bind (Block.mirrors up inner ih body) fun result => ?_
      rw [result.unwrapped_renumbered]
      exact .settle _
    | builtin builtin =>
      exact .bind (.follow (.builtinCall builtin arguments)) fun _ => .apply builtin arguments
    | _ => exact .fault _

/-! What comes of an evaluation. -/

def Ending.renumbered (shift : Nat → Nat) : Ending → Ending
  | value result => .value (result.renumbered shift)
  | ending => ending

/-- Two effects that differ by the numbers of scopes only. -/
structure Effect.Renumbered (shift : Nat → Nat) (effect effect' : Effect Value) : Prop where
  outcome : effect'.outcome = effect.outcome.map (Value.renumbered shift)
  store : effect.store.Renumbered shift effect'.store
  lines : effect'.lines = effect.lines
  events : effect'.events = effect.events.map (Event.renumbered shift)

theorem Evaluation.Mirrors.effects {evaluation evaluation' : Evaluation Value}
    (mirrors : Mirrors shift (Value.renumbered shift) evaluation evaluation')
    {store store' : Store} (stores : store.Renumbered shift store') {effect effect' : Effect Value}
    (comes : ∀ output trace, evaluation ⟨store, output, trace⟩ = effect.result output trace)
    (comes' : ∀ output trace, evaluation' ⟨store', output, trace⟩ = effect'.result output trace) :
    effect.Renumbered shift effect' := by
  obtain ⟨outcomes, states⟩ := Together.effects_matched mirrors ⟨stores, rfl, rfl⟩ comes comes'
  refine ⟨?_, states.store, states.output, ?_⟩
  · obtain ⟨value, value', outcome, outcome', same⟩ | ⟨stop, outcome, outcome'⟩ := outcomes
    · rw [outcome, outcome', same]
      rfl
    · rw [outcome, outcome']
      rfl
  · have followed : effect'.events.reverse = effect.events.reverse.map (Event.renumbered shift) :=
      congrArg Trace.recorded states.trace
    rw [List.map_reverse] at followed
    exact List.reverse_inj.mp followed

end Monkey

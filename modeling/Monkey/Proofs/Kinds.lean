import Monkey.Proofs.Parts
import Monkey.Proofs.Preservation
import Monkey.Proofs.WellFormed
import Monkey.Session

/-!
Trees without a node of an unknown kind. Nothing else is asked of them: operators outside the
language, numbers of any size and statements without a value may be in them. Functions keep their
bodies, so a run comes upon no unknown node if the bodies of all functions that it may call have
none either. What more the functions of a tree are to be like is left to a test.
-/

namespace Monkey

open Evaluation

mutual

/-- No node is of an unknown kind, and all functions pass the test. -/
def Expr.passes (test : List Identifier → Block → Bool) : Expr → Bool
  | .identifier _ | .integer _ _ | .boolean _ _ | .string _ _ => true
  | .unary _ _ right => right.passes test
  | .binary _ left _ right => left.passes test && right.passes test
  | .conditional _ condition consequence alternative =>
    condition.passes test && consequence.passes test && Block.alternativePasses test alternative
  | .function _ parameters body => test parameters body && body.passes test
  | .call _ callee arguments => callee.passes test && Expr.allPass test arguments
  | .array _ elements => Expr.allPass test elements
  | .hash _ pairs => Expr.pairsPass test pairs
  | .index _ left position => left.passes test && position.passes test
  | .slice _ left lower upper =>
    left.passes test && Expr.valuePasses test lower && Expr.valuePasses test upper
  | .unknown => false

def Expr.valuePasses (test : List Identifier → Block → Bool) : Option Expr → Bool
  | none => true
  | some value => value.passes test

def Expr.allPass (test : List Identifier → Block → Bool) : List Expr → Bool
  | [] => true
  | expr :: rest => expr.passes test && Expr.allPass test rest

def Expr.pairsPass (test : List Identifier → Block → Bool) : List (Expr × Expr) → Bool
  | [] => true
  | (key, value) :: rest => key.passes test && value.passes test && Expr.pairsPass test rest

def Statement.passes (test : List Identifier → Block → Bool) : Statement → Bool
  | .binding _ _ value | .giveBack _ value | .expression _ value => Expr.valuePasses test value
  | .block body => body.passes test

def Statement.allPass (test : List Identifier → Block → Bool) : List Statement → Bool
  | [] => true
  | statement :: rest => statement.passes test && Statement.allPass test rest

def Block.passes (test : List Identifier → Block → Bool) : Block → Bool
  | ⟨_, statements⟩ => Statement.allPass test statements

def Block.alternativePasses (test : List Identifier → Block → Bool) : Option Block → Bool
  | none => true
  | some block => block.passes test

end

/-! Well-formed trees pass every test that well-formed functions pass. -/

section
variable {test : List Identifier → Block → Bool}
variable (functions : ∀ parameters body, parameters.all Identifier.wellFormed = true →
  body.wellFormed = true → test parameters body = true)
include functions

set_option linter.unusedSectionVars false

mutual

theorem Expr.passes_of_wellFormed : ∀ expr : Expr, expr.wellFormed = true →
    expr.passes test = true
  | .identifier _, _ | .integer _ _, _ | .boolean _ _, _ | .string _ _, _ => rfl
  | .unary _ _ right, formed => by
    simp only [Expr.wellFormed, Bool.and_eq_true] at formed
    exact Expr.passes_of_wellFormed right formed.2
  | .binary _ left _ right, formed => by
    simp only [Expr.wellFormed, Bool.and_eq_true] at formed
    exact Bool.and_eq_true_iff.mpr
      ⟨Expr.passes_of_wellFormed left formed.1.1, Expr.passes_of_wellFormed right formed.2⟩
  | .conditional _ condition consequence alternative, formed => by
    simp only [Expr.wellFormed, Bool.and_eq_true] at formed
    simp only [Expr.passes, Bool.and_eq_true]
    exact ⟨⟨Expr.passes_of_wellFormed condition formed.1.1,
      Block.passes_of_wellFormed consequence formed.1.2⟩,
      Block.alternativePasses_of_wellFormed alternative formed.2⟩
  | .function _ parameters body, formed => by
    simp only [Expr.wellFormed, Bool.and_eq_true] at formed
    exact Bool.and_eq_true_iff.mpr
      ⟨functions parameters body formed.1 formed.2, Block.passes_of_wellFormed body formed.2⟩
  | .call _ callee arguments, formed => by
    simp only [Expr.wellFormed, Bool.and_eq_true] at formed
    exact Bool.and_eq_true_iff.mpr
      ⟨Expr.passes_of_wellFormed callee formed.1, Expr.allPass_of_wellFormed arguments formed.2⟩
  | .array _ elements, formed => Expr.allPass_of_wellFormed elements formed
  | .hash _ pairs, formed => Expr.pairsPass_of_wellFormed pairs formed
  | .index _ left position, formed => by
    simp only [Expr.wellFormed, Bool.and_eq_true] at formed
    exact Bool.and_eq_true_iff.mpr
      ⟨Expr.passes_of_wellFormed left formed.1, Expr.passes_of_wellFormed position formed.2⟩
  | .slice _ left lower upper, formed => by
    simp only [Expr.wellFormed, Bool.and_eq_true] at formed
    simp only [Expr.passes, Bool.and_eq_true]
    exact ⟨⟨Expr.passes_of_wellFormed left formed.1.1,
      Expr.valuePasses_of_boundWellFormed lower formed.1.2⟩,
      Expr.valuePasses_of_boundWellFormed upper formed.2⟩
  | .unknown, formed => nomatch formed

theorem Expr.valuePasses_of_boundWellFormed : ∀ bound : Option Expr,
    Expr.boundWellFormed bound = true → Expr.valuePasses test bound = true
  | none, _ => rfl
  | some bound, formed => Expr.passes_of_wellFormed bound formed

theorem Expr.valuePasses_of_wellFormed : ∀ value : Option Expr,
    Expr.valueWellFormed value = true → Expr.valuePasses test value = true
  | none, formed => nomatch formed
  | some value, formed => Expr.passes_of_wellFormed value formed

theorem Expr.allPass_of_wellFormed : ∀ list : List Expr, Expr.allWellFormed list = true →
    Expr.allPass test list = true
  | [], _ => rfl
  | expr :: rest, formed => by
    simp only [Expr.allWellFormed, Bool.and_eq_true] at formed
    exact Bool.and_eq_true_iff.mpr
      ⟨Expr.passes_of_wellFormed expr formed.1, Expr.allPass_of_wellFormed rest formed.2⟩

theorem Expr.pairsPass_of_wellFormed : ∀ list : List (Expr × Expr),
    Expr.pairsWellFormed list = true → Expr.pairsPass test list = true
  | [], _ => rfl
  | (key, value) :: rest, formed => by
    simp only [Expr.pairsWellFormed, Bool.and_eq_true] at formed
    simp only [Expr.pairsPass, Bool.and_eq_true]
    exact ⟨⟨Expr.passes_of_wellFormed key formed.1.1, Expr.passes_of_wellFormed value formed.1.2⟩,
      Expr.pairsPass_of_wellFormed rest formed.2⟩

theorem Statement.passes_of_wellFormed : ∀ statement : Statement, statement.wellFormed = true →
    statement.passes test = true
  | .binding _ _ value, formed => by
    simp only [Statement.wellFormed, Bool.and_eq_true] at formed
    exact Expr.valuePasses_of_wellFormed value formed.2
  | .giveBack _ value, formed => Expr.valuePasses_of_boundWellFormed value formed
  | .expression _ value, formed => Expr.valuePasses_of_wellFormed value formed
  | .block body, formed => Block.passes_of_wellFormed body formed

theorem Statement.allPass_of_wellFormed : ∀ list : List Statement,
    Statement.allWellFormed list = true → Statement.allPass test list = true
  | [], _ => rfl
  | statement :: rest, formed => by
    simp only [Statement.allWellFormed, Bool.and_eq_true] at formed
    exact Bool.and_eq_true_iff.mpr
      ⟨Statement.passes_of_wellFormed statement formed.1,
        Statement.allPass_of_wellFormed rest formed.2⟩

theorem Block.passes_of_wellFormed : ∀ block : Block, block.wellFormed = true →
    block.passes test = true
  | ⟨_, statements⟩, formed => Statement.allPass_of_wellFormed statements formed

theorem Block.alternativePasses_of_wellFormed : ∀ alternative : Option Block,
    Block.alternativeWellFormed alternative = true →
      Block.alternativePasses test alternative = true
  | none, _ => rfl
  | some block, formed => Block.passes_of_wellFormed block formed

end

end

/-! The induction over the syntax. A call is taken to preserve what the functions are like. -/

/-- A property of values that a function has if it passes the test, and whose functions can be
called: there is no unknown node in their bodies. -/
class Value.Tested (test : List Identifier → Block → Bool) (sound : Value → Prop) : Prop
    extends Broad sound where
  made {parameters : List Identifier} {body : Block} (scope : Nat)
    (admitted : test parameters body = true) (passed : body.passes test = true) :
    sound (.function parameters body scope)
  called {parameters : List Identifier} {body : Block} {scope : Nat}
    (fine : sound (.function parameters body scope)) : body.passes test = true
  returned {value : Value} (content : sound value) : sound (.returned value)
  unwrapped {value : Value} (fine : sound value) : sound value.unwrapped
  hash {entries : List (Entry Value)}
    (parts : ∀ entry ∈ entries, sound entry.key ∧ sound entry.value) : sound (.hash entries)

section
variable {test : List Identifier → Block → Bool} {sound : Value → Prop} [Value.Tested test sound]
variable {calling : Calling} (scope : Nat)
variable (calls : ∀ callee arguments, sound callee → (∀ value ∈ arguments, sound value) →
  Preserves sound (calling callee arguments) sound)
include calls

set_option linter.unusedSectionVars false

mutual

theorem Expr.preserves : ∀ expr : Expr, expr.passes test = true →
    Preserves sound (expr.evaluate calling scope) sound
  | .identifier _, _ => .resolve _ _
  | .integer _ value, _ => .pure (Value.Broad.number value)
  | .boolean _ value, _ => .pure (Value.Closed.boolean value)
  | .string _ value, _ => .pure (Value.Closed.string value)
  | .unary _ _ right, passed =>
    .bind (Expr.preserves right passed) fun _ _ => .answer fun _ => Value.closed_unary
  | .binary _ left _ right, passed => by
    simp only [Expr.passes, Bool.and_eq_true] at passed
    exact .bind (Expr.preserves left passed.1) fun _ _ =>
      .bind (Expr.preserves right passed.2) fun _ _ => .answer fun _ => Value.closed_binary
  | .conditional _ condition consequence alternative, passed => by
    simp only [Expr.passes, Bool.and_eq_true] at passed
    refine .bind (Expr.preserves condition passed.1.1) fun value _ =>
      .bind (.follow _) fun _ _ => ?_
    split
    · exact Block.preserves consequence passed.1.2
    · exact Block.preservesAlternative alternative passed.2
  | .function _ parameters body, passed => by
    simp only [Expr.passes, Bool.and_eq_true] at passed
    exact .pure (Value.Tested.made scope passed.1 passed.2)
  | .call _ callee arguments, passed => by
    simp only [Expr.passes, Bool.and_eq_true] at passed
    exact .bind (Expr.preserves callee passed.1) fun _ good =>
      .bind (Expr.preservesAll arguments passed.2) fun _ fine => calls _ _ good fine
  | .array _ elements, passed =>
    .bind (Expr.preservesAll elements passed) fun _ fine => .pure (Value.Closed.array fine)
  | .hash _ pairs, passed =>
    .bind (Expr.preservesPairs [] (fun _ member => absurd member List.not_mem_nil) pairs passed)
      fun _ fine => .pure (Value.Tested.hash test fine)
  | .index _ left position, passed => by
    simp only [Expr.passes, Bool.and_eq_true] at passed
    exact .bind (Expr.preserves left passed.1) fun _ fine =>
      .bind (Expr.preserves position passed.2) fun _ _ => .answer fun _ => Value.closed_index fine
  | .slice _ left lower upper, passed => by
    simp only [Expr.passes, Bool.and_eq_true] at passed
    exact .bind (Expr.preserves left passed.1.1) fun _ fine =>
      .bind (Expr.preservesBound lower passed.1.2) fun _ _ =>
      .bind (Expr.preservesBound upper passed.2) fun _ _ =>
      .answer fun _ => Value.closed_slice fine
  | .unknown, passed => nomatch passed

theorem Expr.preservesBound : ∀ bound : Option Expr, Expr.valuePasses test bound = true →
    Preserves sound (Expr.evaluateBound calling scope bound) fun _ => True
  | none, _ => .pure trivial
  | some bound, passed => .bind (Expr.preserves bound passed) fun _ _ => .pure trivial

theorem Expr.preservesAll : ∀ list : List Expr, Expr.allPass test list = true →
    Preserves sound (Expr.evaluateAll calling scope list) fun values =>
      ∀ value ∈ values, sound value
  | [], _ => .pure fun _ member => absurd member List.not_mem_nil
  | expr :: rest, passed => by
    simp only [Expr.allPass, Bool.and_eq_true] at passed
    exact .bind (Expr.preserves expr passed.1) fun _ fine =>
      .bind (Expr.preservesAll rest passed.2) fun _ others =>
      .pure (List.forall_mem_cons.mpr ⟨fine, others⟩)

theorem Expr.preservesPairs (entries : List (Entry Value))
    (filed : ∀ entry ∈ entries, sound entry.key ∧ sound entry.value) :
    ∀ list : List (Expr × Expr), Expr.pairsPass test list = true →
      Preserves sound (Expr.evaluatePairs calling scope entries list) fun entries =>
        ∀ entry ∈ entries, sound entry.key ∧ sound entry.value
  | [], _ => .pure filed
  | (key, value) :: rest, passed => by
    simp only [Expr.pairsPass, Bool.and_eq_true] at passed
    refine .bind (Expr.preserves key passed.1.1) fun key fine => ?_
    cases key.hashKey? with
    | none => exact .fault _
    | some hashKey =>
      refine .bind (Expr.preserves value passed.1.2) fun value fine' => ?_
      refine Expr.preservesPairs _ (fun entry member => ?_) rest passed.2
      rcases Entry.value_of_mem_insert member with rfl | member
      · exact ⟨fine, fine'⟩
      · exact filed entry member

theorem Statement.preserves : ∀ statement : Statement, statement.passes test = true →
    Preserves sound (statement.evaluate calling scope) sound
  | .binding _ _ value, passed =>
    .bind (Expr.preservesOrNull value passed) fun _ fine => .bind (.assign _ _ fine) fun _ _ =>
      .bind (.follow _) fun _ _ => .pure Value.Closed.null
  | .giveBack _ value, passed =>
    .bind (Expr.preservesOrNull value passed) fun _ fine =>
      .pure (Value.Tested.returned test fine)
  | .expression _ value, passed => Expr.preservesOrNull value passed
  | .block body, passed => Block.preserves body passed

theorem Expr.preservesOrNull : ∀ value : Option Expr, Expr.valuePasses test value = true →
    Preserves sound (Expr.evaluateOrNull calling scope value) sound
  | none, _ => .pure Value.Closed.null
  | some expr, passed => Expr.preserves expr passed

theorem Statement.preservesAll (last : Value) (fine : sound last) : ∀ list : List Statement,
    Statement.allPass test list = true →
      Preserves sound (Statement.evaluateAll calling scope last list) sound
  | [], _ => .pure fine
  | statement :: rest, passed => by
    simp only [Statement.allPass, Bool.and_eq_true] at passed
    refine .bind (Statement.preserves statement passed.1) fun value fine => ?_
    split
    · exact .pure fine
    · exact Statement.preservesAll _ fine rest passed.2

theorem Block.preserves : ∀ block : Block, block.passes test = true →
    Preserves sound (block.evaluate calling scope) sound
  | ⟨_, statements⟩, passed => Statement.preservesAll .null Value.Closed.null statements passed

theorem Block.preservesAlternative : ∀ alternative : Option Block,
    Block.alternativePasses test alternative = true →
      Preserves sound (Block.evaluateAlternative calling scope alternative) sound
  | none, _ => .pure Value.Closed.null
  | some block, passed => Block.preserves block passed

end

end

/-- By induction on how deep calls may nest. -/
theorem applyWithin_preserves (test : List Identifier → Block → Bool) {sound : Value → Prop}
    [Value.Tested test sound] (depth : Nat) (callee : Value) (arguments : List Value)
    (good : sound callee) (fine : ∀ value ∈ arguments, sound value) :
    Preserves sound (applyWithin depth callee arguments) sound := by
  induction depth generalizing callee arguments with
  | zero =>
    unfold applyWithin
    split
    · split
      · exact .fault _
      · exact .throw nofun
    · exact .bind (.follow _) fun _ _ => .apply _ fine
    · exact .fault _
  | succ depth ih =>
    unfold applyWithin
    split
    · split
      · exact .fault _
      · have passed : Block.passes test _ = true := Value.Tested.called good
        refine .bind (.follow _) fun _ _ => .bind (.enter _ fun binding member => ?_) fun inner _ =>
          .bind (Block.preserves inner ih _ passed) fun _ fine =>
            .settle (Value.Tested.unwrapped test fine)
        exact fine _ (List.of_mem_zip member).2
    · exact .bind (.follow _) fun _ _ => .apply _ fine
    · exact .fault _

def Node.passes (test : List Identifier → Block → Bool) : Node → Bool
  | .program tree => Statement.allPass test tree.statements
  | .statement tree => tree.passes test
  | .expression tree => tree.passes test

theorem Node.preserves (test : List Identifier → Block → Bool) {sound : Value → Prop}
    [Value.Tested test sound] (depth scope : Nat) (node : Node) (passed : node.passes test = true) :
    Preserves sound (node.evaluate depth scope) sound := by
  have calls : ∀ callee arguments, sound callee → (∀ value ∈ arguments, sound value) →
      Preserves sound (applyWithin depth callee arguments) sound := applyWithin_preserves test depth
  cases node with
  | program tree =>
    exact .bind (Statement.preservesAll scope calls .null Value.Closed.null _ passed) fun _ fine =>
      .pure (Value.Tested.unwrapped test fine)
  | statement tree => exact tree.preserves scope calls passed
  | expression tree => exact tree.preserves scope calls passed

/-- A run ends in a value, unless calls nest too deeply. -/
theorem Evaluation.Preserves.finish {sound : Value → Prop} {evaluation : Evaluation Value}
    (preserves : Preserves sound evaluation sound) {state : State}
    (holds : state.store.Holds sound) :
    ((∃ value, (evaluation.finish state).1 = .value value ∧ (value.isError = false → sound value)) ∨
      (evaluation.finish state).1 = .depthExceeded) ∧
    (evaluation.finish state).2.store.Holds sound := by
  have ends := preserves state holds
  unfold Evaluation.finish
  split <;> rename_i outcome <;> rw [outcome] at ends
  · exact ⟨.inl ⟨_, rfl, fun _ => ends.1⟩, ends.2⟩
  · exact ⟨.inl ⟨_, rfl, nofun⟩, ends.2⟩
  · exact ⟨.inr rfl, ends.2⟩
  · exact absurd rfl ends.1

/-! Where nothing else is asked for. -/

/-- No node is of an unknown kind. -/
def Node.known (node : Node) : Bool := node.passes fun _ _ => true

theorem known_parse (source : String) : (Node.program (parse source).program).known = true :=
  Statement.allPass_of_wellFormed (fun _ _ _ _ => rfl) _ (parse_wellFormed source)

namespace Value

/-- The body of a function has no node of an unknown kind. -/
def bodyKnown : Value → Bool
  | function _ body _ => body.passes fun _ _ => true
  | _ => true

/-- No function that can be got at has a node of an unknown kind in its body. -/
def Known (value : Value) : Prop := value.Each fun part => part.bodyKnown = true

instance : Mild fun part => part.bodyKnown = true where
  integer _ := rfl
  boolean _ := rfl
  string _ := rfl
  null := rfl
  array _ := rfl
  hash _ := rfl
  builtin _ := rfl

instance : Closed Known := inferInstanceAs (Closed (Each fun part => part.bodyKnown = true))

instance : Tested (fun _ _ => true) Known where
  number _ := each_of_atom rfl rfl
  builtin _ := each_of_atom rfl rfl
  made _ _ passed := each_of_atom rfl passed
  called known := known _ .whole
  returned content := Each.returned_iff.mpr ⟨rfl, content⟩
  unwrapped known := Each.unwrapped known
  hash parts := Each.hash_iff.mpr ⟨rfl, parts⟩

end Value

end Monkey

import Monkey.Proofs.Guards
import Monkey.Proofs.Kinds

/-!
Nothing that is read from a program text can fail in an unforeseen way when it is run. Functions
keep the trees of their bodies, so the invariant is about values and stores: every function in them
is well-formed. A run that starts from such a store leaves such a store, and it ends in a value
unless calls nest too deeply.
-/

namespace Monkey

open Evaluation

namespace Value

/-- All functions that can be got at are well-formed. -/
inductive Sound : Value → Prop
  | integer (value : Int) : Sound (.integer value)
  | boolean (value : Bool) : Sound (.boolean value)
  | string (text : String) : Sound (.string text)
  | null : Sound .null
  | array {elements : List Value} (parts : ∀ value ∈ elements, Sound value) :
      Sound (.array elements)
  | hash {entries : List (Entry Value)} (parts : ∀ entry ∈ entries, Sound entry.value) :
      Sound (.hash entries)
  | function {parameters : List Identifier} {body : Block} (scope : Nat)
      (names : parameters.all Identifier.wellFormed = true) (tree : body.wellFormed = true) :
      Sound (.function parameters body scope)
  | builtin (builtin : Builtin) : Sound (.builtin builtin)
  | returned {value : Value} (content : Sound value) : Sound (.returned value)
  | error (message : String) : Sound (.error message)

namespace Sound

variable {left right value : Value} {elements : List Value} {entries : List (Entry Value)}

theorem of_array (sound : Sound (.array elements)) : ∀ value ∈ elements, Sound value := by
  cases sound with
  | array parts => exact parts

theorem of_hash (sound : Sound (.hash entries)) : ∀ entry ∈ entries, Sound entry.value := by
  cases sound with
  | hash parts => exact parts

theorem unwrapped (sound : Sound value) : Sound value.unwrapped := by
  cases sound with
  | returned content => exact content
  | array parts => exact .array parts
  | hash parts => exact .hash parts
  | function scope names tree => exact .function scope names tree
  | _ => constructor

end Sound

instance : Closed Sound where
  integer _ := .integer _
  boolean := .boolean
  string := .string
  null := .null
  array := .array
  element := Sound.of_array
  entry := Sound.of_hash

/-- Functions that program texts give. -/
def formedFunction (parameters : List Identifier) (body : Block) : Bool :=
  parameters.all Identifier.wellFormed && body.wellFormed

theorem formedFunction_of_wellFormed (parameters : List Identifier) (body : Block)
    (names : parameters.all Identifier.wellFormed = true) (tree : body.wellFormed = true) :
    formedFunction parameters body = true := Bool.and_eq_true_iff.mpr ⟨names, tree⟩

instance : Tested formedFunction Sound where
  number := .integer
  builtin := .builtin
  made scope admitted _ :=
    .function scope (Bool.and_eq_true_iff.mp admitted).1 (Bool.and_eq_true_iff.mp admitted).2
  called sound := by
    cases sound with
    | function _ _ tree => exact Block.passes_of_wellFormed formedFunction_of_wellFormed _ tree
  returned := .returned
  unwrapped := Sound.unwrapped
  hash parts := .hash fun entry member => (parts entry member).2

end Value

/-! What evaluations keep. -/

namespace Evaluation

/-- From a sound store the evaluation gives something good, or it stops for a reason that there is
for stopping; it leaves a sound store. -/
def Safe {α : Type} (evaluation : Evaluation α) (good : α → Prop) : Prop :=
  ∀ state, state.store.Holds Value.Sound →
    match evaluation state with
    | .ok value later => good value ∧ later.store.Holds Value.Sound
    | .error stop later => stop ≠ .unknownNode ∧ later.store.Holds Value.Sound

end Evaluation

/-- A run ends in a value of the language, unless calls nest too deeply. -/
def Ending.Sound : Ending → Prop
  | .value result => result.Sound
  | .depthExceeded => True
  | .unknownNode => False

theorem Program.safe (depth scope : Nat) {program : Program} (formed : program.wellFormed = true) :
    Safe (program.evaluate depth scope) Value.Sound :=
  Node.preserves Value.formedFunction depth scope (.program program)
    (Statement.allPass_of_wellFormed Value.formedFunction_of_wellFormed _ formed)

theorem Evaluation.Safe.finish {evaluation : Evaluation Value} (safe : Safe evaluation Value.Sound)
    {state : State} (sound : state.store.Holds Value.Sound) :
    (evaluation.finish state).1.Sound ∧ (evaluation.finish state).2.store.Holds Value.Sound := by
  obtain ⟨ends, left⟩ := Preserves.finish safe sound
  refine ⟨?_, left⟩
  obtain ⟨value, same, fine⟩ | same := ends <;> rw [same]
  · cases value with
    | error message => exact .error message
    | _ => exact fine rfl
  · trivial

/-- Whatever text a program is read from, nothing is missing in its tree. Among functions of such
trees it runs to a value, unless calls nest too deeply, and leaves no others behind. No step on the
way is taken where it has no result. -/
theorem parsed_program_is_safe (source : String) :
    (parse source).program.wellFormed = true ∧
    (∀ (depth scope : Nat) (state : State), state.store.Holds Value.Sound →
      (((parse source).program.evaluate depth scope).finish state).1.Sound ∧
        (((parse source).program.evaluate depth scope).finish state).2.store.Holds Value.Sound) ∧
    (∀ left right,
      Value.divideStepwise left right = some (Value.integerBinary .divide left right)) ∧
    (∀ left position, Value.indexStepwise left position = some (left.index position)) ∧
    (∀ left lower upper, Value.sliceStepwise left lower upper = some (left.slice lower upper)) ∧
    ∀ (builtin : Builtin) arguments, ∃ result, builtin.applyStepwise arguments = some result ∧
      builtin.apply arguments = (do builtin.prints arguments; answer result) := by
  have formed := parse_wellFormed source
  refine ⟨formed, fun depth scope state sound => ?_, Value.divideStepwise_eq,
    Value.indexStepwise_eq, Value.sliceStepwise_eq, Builtin.applyStepwise_eq⟩
  exact (Program.safe depth scope formed).finish sound

/-- An incomplete text that is run all the same. -/
theorem incomplete_text_is_safe : (Session.start 0).state.store.Holds Value.Sound ∧
    (((parse "let f = fn(x) \x7b x[1] / ; f([])").program.evaluate callDepth Session.root).finish
      (Session.start 0).state).1.Sound := by
  have sound : (Session.start 0).state.store.Holds Value.Sound := Store.Holds.empty.opened none
  exact ⟨sound, ((parsed_program_is_safe _).2.1 callDepth Session.root _ sound).1⟩

end Monkey

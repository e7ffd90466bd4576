import Monkey.Proofs.Parts
import Monkey.Proofs.Simulation
import Monkey.Proofs.Tracing

/-!
What a call can depend on. From a function and its arguments some scopes can be reached: those that
functions in them refer to, the scopes around these, and all that functions bound there refer to in
turn. Two stores that are the same there, whatever else they hold, cannot be told apart by the call.
-/

namespace Monkey

open Evaluation

/-- A scope can be reached from some values. -/
inductive Store.Reaches (store : Store) (roots : List Value) : Nat → Prop
  | captured {root : Value} {parameters : List Identifier} {body : Block} {number : Nat}
      (member : root ∈ roots) (inside : (Value.function parameters body number).Part root) :
      Reaches store roots number
  | around {number outer : Nat} {scope : Scope} (reached : Reaches store roots number)
      (found : store.scope? number = some scope) (parent : scope.parent = some outer) :
      Reaches store roots outer
  | bound {number inner : Nat} {scope : Scope} {name : String} {value : Value}
      {parameters : List Identifier} {body : Block} (reached : Reaches store roots number)
      (found : store.scope? number = some scope) (binds : scope.bindings.lookup name = some value)
      (inside : (Value.function parameters body inner).Part value) : Reaches store roots inner

variable {scopes closer : Nat → Nat → Prop}

/-- It counts only which scopes correspond to those that functions in the value refer to. -/
theorem Value.Alike.mono {value other : Value} (same : value.Alike scopes other)
    (kept : ∀ {parameters body number number'},
      (Value.function parameters body number).Part value → scopes number number' →
        closer number number') : value.Alike closer other := by
  induction same with
  | array length _ parts =>
    exact .array length fun pair member => parts pair member fun inside =>
      kept (.element (List.of_mem_zip member).1 inside)
  | hash length hashKeys _ _ keys values =>
    refine .hash length hashKeys (fun pair member => keys pair member fun inside => ?_)
      fun pair member => values pair member fun inside => ?_
    · exact kept (.key (List.of_mem_zip member).1 inside)
    · exact kept (.value (List.of_mem_zip member).1 inside)
  | function names bodies corresponds => exact .function names bodies (kept .whole corresponds)
  | returned _ ih => exact .returned (ih fun inside => kept (.content inside))
  | integer value => exact .integer value
  | boolean value => exact .boolean value
  | string text => exact .string text
  | null => exact .null
  | builtin builtin => exact .builtin builtin
  | error message => exact .error message

theorem Value.forall₂_mono {values others : List Value}
    (rows : List.Forall₂ (Value.Alike scopes) values others)
    (kept : ∀ value ∈ values, ∀ {parameters body number number'},
      (Value.function parameters body number).Part value → scopes number number' →
        closer number number') : List.Forall₂ (Value.Alike closer) values others := by
  induction rows with
  | nil => exact .nil
  | cons first _ ih =>
    exact .cons (first.mono (kept _ (List.mem_cons_self ..)))
      (ih fun value member => kept value (List.mem_cons_of_mem _ member))

theorem Scope.Alike.mono {number number' : Nat} {scope scope' : Scope}
    (same : Scope.Alike scopes number number' scope scope')
    (parents : ∀ {outer outer'}, scope.parent = some outer → scopes outer outer' →
      closer outer outer')
    (values : ∀ {name value parameters body inner inner'}, scope.bindings.lookup name = some value →
      (Value.function parameters body inner).Part value → scopes inner inner' →
        closer inner inner') : Scope.Alike closer number number' scope scope' where
  parent := by
    have related := same.parent
    generalize around : scope.parent = outer, scope'.parent = outer' at related
    cases related with
    | none => exact .none
    | some both => exact .some ⟨parents around both.1, both.2⟩
  bindings name := by
    have related := same.bindings name
    generalize binds : scope.bindings.lookup name = value,
      scope'.bindings.lookup name = value' at related
    cases related with
    | none => exact .none
    | some both => exact .some (both.mono (values binds))

namespace Store

/-- All scopes that can be reached are the same in both stores. Their parents are earlier scopes in
both or in neither; runs only make earlier ones. -/
def AgreeFrom (scopes : Nat → Nat → Prop) (roots : List Value) (store store' : Store) : Prop :=
  ∀ number number', scopes number number' → store.Reaches roots number →
    ∃ scope scope', store.scope? number = some scope ∧ store'.scope? number' = some scope' ∧
      Scope.Alike scopes number number' scope scope'

/-- The scopes that correspond as long as a call lasts: those that can be reached, and those that
are opened from now on, each with the one opened at the same time in the other run. -/
def Corresponding (scopes : Nat → Nat → Prop) (roots : List Value) (store store' : Store)
    (number number' : Nat) : Prop :=
  (scopes number number' ∧ store.Reaches roots number) ∨
    ∃ count, number = store.size + count ∧ number' = store'.size + count

variable {store store' : Store} {roots : List Value}

namespace AgreeFrom

theorem lt_sizes (agree : AgreeFrom scopes roots store store') {number number' : Nat}
    (corresponds : scopes number number') (reached : store.Reaches roots number) :
    number < store.size ∧ number' < store'.size := by
  obtain ⟨_, _, found, found', _⟩ := agree number number' corresponds reached
  exact ⟨lt_size found, lt_size found'⟩

theorem biUnique (agree : AgreeFrom scopes roots store store') (alone : Relator.BiUnique scopes) :
    Relator.BiUnique (Corresponding scopes roots store store') := by
  constructor
  · rintro number other number' (⟨same, reached⟩ | ⟨count, rfl, rfl⟩)
      (⟨same', reached'⟩ | ⟨count', rfl, later⟩)
    · exact alone.1 same same'
    · have before := agree.lt_sizes same reached
      omega
    · have before := agree.lt_sizes same' reached'
      omega
    · omega
  · rintro number number' other (⟨same, reached⟩ | ⟨count, rfl, rfl⟩)
      (⟨same', reached'⟩ | ⟨count', later, rfl⟩)
    · exact alone.2 same same'
    · have before := agree.lt_sizes same reached
      omega
    · have before := agree.lt_sizes same' reached'
      omega
    · omega

theorem alike (agree : AgreeFrom scopes roots store store') :
    store.Alike (Corresponding scopes roots store store') store' where
  scope := by
    rintro number number' (⟨same, reached⟩ | ⟨count, rfl, rfl⟩)
    · obtain ⟨scope, scope', found, found', alike⟩ := agree number number' same reached
      rw [found, found']
      refine .some (alike.mono (fun parent same => ?_) fun binds inside same => ?_)
      · exact .inl ⟨same, .around reached found parent⟩
      · exact .inl ⟨same, .bound reached found binds inside⟩
    · have unopened : ∀ (some : Store) (count : Nat), some.scope? (some.size + count) = none :=
        fun some count => Array.getElem?_eq_none (Nat.le_add_right _ _)
      rw [unopened, unopened]
      exact .none
  fresh count := .inr ⟨count, rfl, rfl⟩

end AgreeFrom
end Store

/-- Two effects that are the same but for scopes: both end with values that are alike or are cut
short for the same cause, and print and follow the same. -/
structure Effect.Alike (scopes : Nat → Nat → Prop) (effect other : Effect Value) : Prop where
  outcome : (∃ value value', effect.outcome = .ok value ∧ other.outcome = .ok value' ∧
      value.Alike scopes value') ∨
    ∃ stop, effect.outcome = .error stop ∧ other.outcome = .error stop
  store : effect.store.Alike scopes other.store
  lines : effect.lines = other.lines
  events : List.Forall₂ (Event.Alike scopes) effect.events other.events

/-- Evaluations that go together have effects that are alike. -/
theorem Evaluation.Together.effects {evaluation evaluation' : Evaluation Value}
    (together : Together (State.Alike scopes) (Value.Alike scopes) evaluation evaluation')
    {store store' : Store} (stores : store.Alike scopes store') {effect effect' : Effect Value}
    (comes : ∀ output trace, evaluation ⟨store, output, trace⟩ = effect.result output trace)
    (comes' : ∀ output trace, evaluation' ⟨store', output, trace⟩ = effect'.result output trace) :
    effect.Alike scopes effect' := by
  obtain ⟨outcomes, states⟩ := together.effects_matched
    ⟨stores, rfl, rfl, rfl, .nil, .nil⟩ comes comes'
  exact ⟨outcomes, states.store, states.output, List.forall₂_reverse_iff.mp states.trace.recorded⟩

/-- A call comes to the same in any two states that agree on what can be reached from the function
and its arguments, whichever scopes these are and whatever other scopes, the output and the trace
hold. -/
theorem call_depends_on_reachable (alone : Relator.BiUnique scopes) (depth : Nat)
    {callee callee' : Value} {arguments arguments' : List Value} {store store' : Store}
    (callees : callee.Alike scopes callee')
    (rows : List.Forall₂ (Value.Alike scopes) arguments arguments')
    (agree : store.AgreeFrom scopes (callee :: arguments) store') :
    ∃ effect effect' : Effect Value,
      (∀ output trace, applyWithin depth callee arguments ⟨store, output, trace⟩ =
        effect.result output trace) ∧
      (∀ output trace, applyWithin depth callee' arguments' ⟨store', output, trace⟩ =
        effect'.result output trace) ∧
      effect.Alike (Store.Corresponding scopes (callee :: arguments) store store') effect' := by
  obtain ⟨effect, comes⟩ := applyWithin_logs depth callee arguments store
  obtain ⟨effect', comes'⟩ := applyWithin_logs depth callee' arguments' store'
  have reached : ∀ root ∈ callee :: arguments, ∀ {parameters body number number'},
      (Value.function parameters body number).Part root → scopes number number' →
        Store.Corresponding scopes (callee :: arguments) store store' number number' :=
    fun root member _ _ _ _ inside same => .inl ⟨same, .captured member inside⟩
  have stillAlike := callees.mono (reached callee (List.mem_cons_self ..))
  have stillRows := Value.forall₂_mono rows fun value member =>
    reached value (List.mem_cons_of_mem _ member)
  have together := applyWithin_together (agree.biUnique alone) depth stillAlike stillRows
  exact ⟨effect, effect', comes, comes', together.effects agree.alike comes comes'⟩

/-- The function `fn(y) { x + y }`, defined in a scope. -/
def Value.addition (number : Nat) : Value :=
  .function [⟨⟨.ident, "y", 1, 4⟩, "y"⟩] ⟨⟨.leftBrace, "\x7b", 1, 7⟩,
    [.expression ⟨.ident, "x", 1, 9⟩ (some (.binary ⟨.plus, "+", 1, 11⟩
      (.identifier ⟨⟨.ident, "x", 1, 9⟩, "x"⟩) .plus
      (.identifier ⟨⟨.ident, "y", 1, 13⟩, "y"⟩)))]⟩ number

/-- The function finds `x` in the scope around its own, and an `x` elsewhere makes no difference. -/
theorem addition_depends_on_its_scopes :
    let store : Store := ⟨#[⟨none, [("x", .integer 2)]⟩, ⟨some 0, [("add", .addition 1)]⟩,
      ⟨none, [("x", .integer 50)]⟩]⟩
    let store' : Store := ⟨#[⟨none, [("x", .integer 9)]⟩, ⟨none, [("x", .integer 2)]⟩,
      ⟨some 1, [("add", .addition 2)]⟩]⟩
    let later : Nat → Nat → Prop := fun number number' => number' = number + 1
    let roots := [Value.addition 1, .integer 5]
    store.AgreeFrom later roots store' ∧
    ∃ effect effect' : Effect Value,
      (∀ output trace, applyWithin 1 (.addition 1) [.integer 5] ⟨store, output, trace⟩ =
        effect.result output trace) ∧
      (∀ output trace, applyWithin 1 (.addition 2) [.integer 5] ⟨store', output, trace⟩ =
        effect'.result output trace) ∧
      effect.Alike (Store.Corresponding later roots store store') effect' := by
  intro store store' later roots
  have alone : Relator.BiUnique later :=
    ⟨fun _ _ _ same same' => by omega, fun _ _ _ same same' => by omega⟩
  have alike : (Value.addition 1).Alike later (.addition 2) := .function (by cbv) (by cbv) rfl
  have captures : ∀ {value parameters body inner},
      (Value.function parameters body inner).Part value →
        value = .integer 2 ∨ value = .integer 5 ∨ value = .addition 1 → inner = 1 := by
    rintro value parameters body inner inside (rfl | rfl | rfl)
    · cases inside
    · cases inside
    · cases inside
      rfl
  have reached : ∀ number, store.Reaches roots number → number = 0 ∨ number = 1 := by
    intro number reached
    induction reached with
    | captured member inside =>
      refine .inr (captures inside ?_)
      rcases List.mem_pair.mp member with rfl | rfl
      · exact .inr (.inr rfl)
      · exact .inr (.inl rfl)
    | around _ found parent ih =>
      rcases ih with rfl | rfl
      · obtain rfl := Option.some.inj found
        cases parent
      · obtain rfl := Option.some.inj found
        exact .inl (Option.some.inj parent).symm
    | @bound number inner scope name value parameters body _ found binds inside ih =>
      refine .inr (captures inside ?_)
      rcases ih with rfl | rfl
      · obtain rfl := Option.some.inj found
        obtain ⟨binding, member, rfl⟩ := mem_of_lookup binds
        obtain rfl := List.mem_singleton.mp member
        exact .inl rfl
      · obtain rfl := Option.some.inj found
        obtain ⟨binding, member, rfl⟩ := mem_of_lookup binds
        obtain rfl := List.mem_singleton.mp member
        exact .inr (.inr rfl)
  have agree : store.AgreeFrom later roots store' := by
    rintro number number' rfl reach
    have one : ∀ {text name : String} {value value' : Value}, value.Alike later value' →
        Option.Rel (Value.Alike later) ([(text, value)].lookup name)
          ([(text, value')].lookup name) := by
      intro text name value value' same
      rw [List.lookup_cons, List.lookup_cons]
      cases name == text
      · exact .none
      · exact .some same
    rcases reached number reach with rfl | rfl
    · exact ⟨_, _, rfl, rfl, .none, fun name => one (.integer 2)⟩
    · exact ⟨_, _, rfl, rfl, .some ⟨rfl, by omega⟩, fun name => one alike⟩
  exact ⟨agree, call_depends_on_reachable alone 1 alike (.cons (.integer 5) .nil) agree⟩

end Monkey

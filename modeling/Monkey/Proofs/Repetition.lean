import Monkey.Proofs.Effects
import Monkey.Proofs.Equivariance
import Monkey.Proofs.References

/-!
Calls are repeatable. A call leaves all scopes as they were that were there before it, and it does
not depend on the numbers that those it opens have. So whatever was called in the meantime, and be
it the same function, the call comes to the same again: to the same result, but for these numbers,
with the same lines printed and the same trace.
-/

namespace Monkey

open Evaluation

/-! Values and stores that are the same later. -/

section
variable {shift : Nat → Nat} {size : Nat} (fixed : ∀ number < size, shift number = number)
include fixed

set_option linter.unusedSectionVars false

mutual

/-- A value stays itself where all scopes that it refers to keep their numbers. -/
theorem Value.renumbered_eq_self : ∀ value : Value, value.Within size →
    value.renumbered shift = value
  | .array elements, within =>
    congrArg Value.array (Value.allRenumbered_eq_self elements (Value.Each.array_iff.mp within).2)
  | .hash entries, within => congrArg Value.hash
    (Value.entriesRenumbered_eq_self entries (Value.Each.hash_iff.mp within).2)
  | .function parameters body scope, within =>
    congrArg (Value.function parameters body) (fixed scope (within _ .whole))
  | .returned value, within => congrArg Value.returned
    (Value.renumbered_eq_self value (Value.Each.returned_iff.mp within).2)
  | .integer _, _ | .boolean _, _ | .string _, _ | .null, _ | .builtin _, _ | .error _, _ => rfl

theorem Value.allRenumbered_eq_self : ∀ values : List Value,
    (∀ value ∈ values, value.Within size) → allRenumbered shift values = values
  | [], _ => rfl
  | value :: others, within => by
    obtain ⟨first, within⟩ := List.forall_mem_cons.mp within
    rw [allRenumbered, Value.renumbered_eq_self value first,
      Value.allRenumbered_eq_self others within]

theorem Value.entriesRenumbered_eq_self : ∀ entries : List (Entry Value),
    (∀ entry ∈ entries, entry.key.Within size ∧ entry.value.Within size) →
      entriesRenumbered shift entries = entries
  | [], _ => rfl
  | ⟨_, key, value⟩ :: others, within => by
    obtain ⟨⟨keyWithin, valueWithin⟩, within⟩ := List.forall_mem_cons.mp within
    rw [entriesRenumbered, Value.renumbered_eq_self key keyWithin,
      Value.renumbered_eq_self value valueWithin, Value.entriesRenumbered_eq_self others within]

end

end

namespace Store

/-- The numbers of scopes in a later store. Those that are there in the earlier one keep theirs,
and those that are opened from then on are opened under the next numbers of the later one. -/
def renewed (before after : Store) (number : Nat) : Nat :=
  if number < before.size then number else number - before.size + after.size

variable {before after : Store}

theorem renewed_of_lt {number : Nat} (opened : number < before.size) :
    before.renewed after number = number := if_pos opened

theorem renewed_add (before after : Store) (count : Nat) :
    before.renewed after (before.size + count) = after.size + count := by
  unfold renewed
  rw [if_neg (Nat.not_lt_of_le (Nat.le_add_right _ _))]
  omega

variable (extend : before.Extends after)
include extend

theorem Extends.size_le : before.size ≤ after.size :=
  size_le_of_scope? fun number scope found => ⟨scope, extend number scope found⟩

theorem Extends.renewed_strictMono : StrictMono (before.renewed after) := by
  intro number other less
  have more := extend.size_le
  unfold renewed
  split <;> split <;> omega

/-- Where nothing refers outside of a store, a later one has its scopes under the same numbers. -/
theorem Intact.renumbered (intact : before.Intact) :
    before.Renumbered (before.renewed after) after where
  fresh := renewed_add before after
  scope number := by
    by_cases opened : number < before.size
    · obtain ⟨scope, found⟩ : ∃ scope, before.scope? number = some scope :=
        ⟨_, Array.getElem?_eq_getElem opened⟩
      rw [renewed_of_lt opened, extend number scope found, found]
      have parent : scope.parent.map (before.renewed after) = scope.parent := by
        cases around : scope.parent with
        | none => rfl
        | some outer =>
          have earlier := intact.nested number scope outer found around
          exact congrArg some (renewed_of_lt (Nat.lt_trans earlier opened))
      have bindings : scope.bindings.map (Prod.map id (Value.renumbered (before.renewed after))) =
          scope.bindings := by
        refine (List.map_congr_left fun binding member => ?_).trans (List.map_id _)
        have within := intact.bound scope (Array.mem_of_getElem? found) binding member
        exact Prod.ext rfl (binding.2.renumbered_eq_self (fun _ => renewed_of_lt) within)
      exact congrArg some (congrArg₂ Scope.mk parent bindings).symm
    · obtain ⟨count, rfl⟩ := Nat.exists_eq_add_of_le (Nat.le_of_not_lt opened)
      have unopened : ∀ store : Store, store.scope? (store.size + count) = none :=
        fun store => Array.getElem?_eq_none (Nat.le_add_right _ _)
      rw [renewed_add, unopened, unopened]
      rfl

end Store

/-! What is written of two effects. -/

theorem Event.kept_renumbered {shift : Nat → Nat} (level : Nat) (event : Event) :
    (event.renumbered shift).kept level = event.kept level := by
  rw [Bool.eq_iff_iff, kept_iff, kept_iff, event.level_renumbered]

namespace Effect.Renumbered

variable {shift : Nat → Nat} {effect effect' : Effect Value}

theorem ending (same : effect.Renumbered shift effect') :
    effect'.ending = effect.ending.renumbered shift := by
  unfold Effect.ending
  rw [same.outcome]
  cases effect.outcome with
  | ok value => rfl
  | error stop => cases stop <;> rfl

theorem text_eq (same : effect.Renumbered shift effect') (level : Nat) :
    effect'.text level = effect.text level := by
  have kept : Event.kept level ∘ Event.renumbered shift = Event.kept level :=
    funext (Event.kept_renumbered level)
  have shown : Event.text ∘ Event.renumbered shift = Event.text := funext Event.text_renumbered
  unfold Effect.text
  rw [same.events, List.filter_map, kept, List.map_map, shown]

end Effect.Renumbered

/-! Calls one after the other. -/

/-- A state leads to another one by calls alone, of whatever values and however they end. -/
inductive State.CallsTo (state : State) : State → Prop
  | refl : CallsTo state state
  | call {later : State} (calls : CallsTo state later) (depth : Nat) (callee : Value)
      (arguments : List Value) :
      CallsTo state ((applyWithin depth callee arguments).finish later).2

theorem applyWithin_extends (depth : Nat) (callee : Value) (arguments : List Value)
    (state : State) :
    state.store.Extends ((applyWithin depth callee arguments).finish state).2.store := by
  rw [(watchWithin_forgets depth callee arguments).finish ⟨state, []⟩]
  exact (watchWithin_stays depth callee arguments ⟨state, []⟩).1

theorem applyWithin_trace (depth : Nat) (callee : Value) (arguments : List Value) (state : State) :
    let later := ((applyWithin depth callee arguments).finish state).2
    later.trace.level = state.trace.level ∧ later.trace.closed = state.trace.closed := by
  obtain ⟨effect, comes⟩ := applyWithin_logs depth callee arguments state.store
  rw [finish_of_effect comes]
  exact state.trace.followAll_level effect.events

namespace State.CallsTo

variable {state later : State}

/-- By induction on the calls: none of them changes a scope that was there before. -/
theorem extends_store (calls : state.CallsTo later) : state.store.Extends later.store := by
  induction calls with
  | refl => exact .refl _
  | call _ depth callee arguments ih =>
    exact ih.trans (applyWithin_extends depth callee arguments _)

theorem trace (calls : state.CallsTo later) :
    later.trace.level = state.trace.level ∧ later.trace.closed = state.trace.closed := by
  induction calls with
  | refl => exact ⟨rfl, rfl⟩
  | call _ depth callee arguments ih =>
    obtain ⟨level, closed⟩ := applyWithin_trace depth callee arguments _
    exact ⟨level.trans ih.1, closed.trans ih.2⟩

end State.CallsTo

/-- An evaluation comes to the same from a later state as from an earlier one, but for the numbers
of the scopes that it opens. What it ends with is the same, of the same kind and text, and so are
the scopes it leaves; and it adds the same to what was printed, to the trace file and to what is
shown on the console. -/
structure Evaluation.Repeats (evaluation : Evaluation Value) (state later : State) : Prop where
  ending : (evaluation.finish later).1 =
    (evaluation.finish state).1.renumbered (state.store.renewed later.store)
  shows : ∀ value value', (evaluation.finish state).1 = .value value →
    (evaluation.finish later).1 = .value value' →
      value'.kind = value.kind ∧ value'.inspect = value.inspect
  store : (evaluation.finish state).2.store.Renumbered (state.store.renewed later.store)
    (evaluation.finish later).2.store
  printed : ∃ text, (evaluation.finish state).2.printed = state.printed ++ text ∧
    (evaluation.finish later).2.printed = later.printed ++ text
  traced : ∃ text, (evaluation.finish state).2.traced = state.traced ++ text ∧
    (evaluation.finish later).2.traced = later.traced ++ text
  shown : ∃ text, (evaluation.finish state).2.shown = state.shown ++ text ∧
    (evaluation.finish later).2.shown = later.shown ++ text

/-- On a store in which nothing refers outside and on all that extend it, a call has effects that
differ by the numbers of scopes only. -/
theorem Store.Intact.exists_effects {before after : Store} (intact : before.Intact)
    (extend : before.Extends after) (depth : Nat) {callee : Value} {arguments : List Value}
    (within : ∀ value ∈ callee :: arguments, value.Within before.size) :
    ∃ effect effect' : Effect Value,
      (∀ output trace, applyWithin depth callee arguments ⟨before, output, trace⟩ =
        effect.result output trace) ∧
      (∀ output trace, applyWithin depth callee arguments ⟨after, output, trace⟩ =
        effect'.result output trace) ∧
      effect.Renumbered (before.renewed after) effect' := by
  obtain ⟨effect, comes⟩ := applyWithin_logs depth callee arguments before
  obtain ⟨effect', comes'⟩ := applyWithin_logs depth callee arguments after
  obtain ⟨calleeWithin, within⟩ := List.forall_mem_cons.mp within
  have fixed : ∀ number < before.size, before.renewed after number = number :=
    fun _ => renewed_of_lt
  have mirrors := applyWithin_mirrors extend.renewed_strictMono depth callee arguments
  rw [callee.renumbered_eq_self fixed calleeWithin, ← Value.allRenumbered_eq,
    Value.allRenumbered_eq_self fixed arguments within] at mirrors
  exact ⟨effect, effect', comes, comes', mirrors.effects (intact.renumbered extend) comes comes'⟩

theorem State.CallsTo.repeats {state later : State} (calls : state.CallsTo later)
    (intact : state.store.Intact) (depth : Nat) {callee : Value} {arguments : List Value}
    (within : ∀ value ∈ callee :: arguments, value.Within state.store.size) :
    (applyWithin depth callee arguments).Repeats state later := by
  obtain ⟨effect, effect', comes, comes', same⟩ :=
    intact.exists_effects calls.extends_store depth within
  have first := finish_of_effect comes
  have second := finish_of_effect comes'
  obtain ⟨level, closed⟩ := calls.trace
  have ending : ((applyWithin depth callee arguments).finish later).1 =
      ((applyWithin depth callee arguments).finish state).1.renumbered
        (state.store.renewed later.store) := by
    rw [first, second]
    exact same.ending
  refine ⟨ending, fun value value' ended ended' => ?_, ?_, ?_, ?_, ?_⟩
  · rw [ended, ended'] at ending
    obtain rfl := Ending.value.inj ending
    exact ⟨value.kind_renumbered, value.inspect_renumbered⟩
  · rw [first, second]
    exact same.store
  · rw [first, second]
    refine ⟨_, effect.left_printed state, ?_⟩
    rw [← same.lines]
    exact effect'.left_printed later
  · rw [first, second]
    refine ⟨_, effect.left_traced state, ?_⟩
    rw [← same.text_eq, ← level, ← closed]
    exact effect'.left_traced later
  · rw [first, second]
    refine ⟨_, effect.left_shown state, ?_⟩
    rw [← same.text_eq, ← level, ← closed]
    exact effect'.left_shown later

/-- Calls are repeatable. Whatever function is bound or at hand in a state that an interpreter comes
to, it refers to scopes that are there; and of these any can be called there, with any arguments.
The same call right after it comes to the same again, and it does so as well after any other calls:
none of them changes what was there before. -/
theorem calls_are_repeatable :
    (∀ state values, State.Reached state values →
      state.store.Holds (Value.Within state.store.size) ∧
        ∀ value ∈ values, value.Within state.store.size) ∧
    ∀ state values, State.Reached state values → ∀ depth callee arguments,
      (∀ value ∈ callee :: arguments, value.Within state.store.size) →
        let call := applyWithin depth callee arguments
        call.Repeats state (call.finish state).2 ∧
          ∀ later, state.CallsTo later →
            state.store.Extends later.store ∧ call.Repeats state later := by
  constructor
  · intro state values reached
    obtain ⟨intact, within⟩ := reached.intact
    exact ⟨intact.bound, within⟩
  · intro state values reached depth callee arguments within call
    have repeats : ∀ later, state.CallsTo later → call.Repeats state later :=
      fun later calls => calls.repeats reached.intact.1 depth within
    refine ⟨repeats _ (.call .refl depth callee arguments), fun later calls => ?_⟩
    exact ⟨calls.extends_store, repeats later calls⟩

/-- The body of `fn() { x }`. -/
def Block.recall : Block :=
  ⟨⟨.leftBrace, "\x7b", 1, 23⟩,
    [.expression ⟨.ident, "x", 1, 25⟩ (some (.identifier ⟨⟨.ident, "x", 1, 25⟩, "x"⟩))]⟩

/-- The function `fn(x) { puts(x); fn() { x } }`, defined in the root scope. -/
def Value.keeper : Value :=
  .function [⟨⟨.ident, "x", 1, 4⟩, "x"⟩] ⟨⟨.leftBrace, "\x7b", 1, 7⟩,
    [.expression ⟨.ident, "puts", 1, 9⟩ (some (.call ⟨.leftParen, "(", 1, 13⟩
      (.identifier ⟨⟨.ident, "puts", 1, 9⟩, "puts"⟩)
      [.identifier ⟨⟨.ident, "x", 1, 14⟩, "x"⟩])),
    .expression ⟨.fnKeyword, "fn", 1, 18⟩ (some (.function ⟨.fnKeyword, "fn", 1, 18⟩ []
      Block.recall))]⟩ Session.root

/-- Called twice it prints twice, and the functions it gives refer to the scopes it has opened. -/
theorem keeper_is_repeatable :
    let state := (Session.start 3).state
    let call := applyWithin 1 Value.keeper [.integer 5]
    let once := call.finish state
    let twice := call.finish once.2
    State.Reached state [] ∧
    (∀ value ∈ [Value.keeper, .integer 5], value.Within state.store.size) ∧
    (call.Repeats state once.2 ∧ ∀ later, state.CallsTo later →
      state.store.Extends later.store ∧ call.Repeats state later) ∧
    once.1 = .value (.function [] .recall 1) ∧ twice.1 = .value (.function [] .recall 2) ∧
    twice.2.printed = "5\n5\n" := by
  have within : ∀ value ∈ [Value.keeper, .integer 5],
      value.Within (Session.start 3).state.store.size := by
    refine List.forall_mem_cons.mpr ⟨?_, List.forall_mem_singleton.mpr ?_⟩
    · exact Value.each_of_atom rfl Nat.one_pos
    · exact Value.each_of_atom rfl trivial
  refine ⟨.rooted (.fresh 3), within, ?_, by cbv, by cbv, by cbv⟩
  exact calls_are_repeatable.2 _ [] (.rooted (.fresh 3)) 1 Value.keeper [.integer 5] within

end Monkey

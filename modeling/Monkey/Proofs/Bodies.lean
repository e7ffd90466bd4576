import Monkey.Proofs.Simulation
import Monkey.Proofs.Visits

/-!
Programs and bodies of functions. The same statements mean the same as a program and as the body of
a function without parameters that is called at once. The call has one scope more than the program:
around all others it has the scope that the function was defined in, which stays empty. So each
scope of the program corresponds to the one with the next number.
-/

namespace Monkey

open Evaluation

/-- The second of two runs has opened one scope more. -/
def Scope.Next (number number' : Nat) : Prop := number' = number + 1

/-- Two scopes with the same names in them. What is outermost in the first run is in the outermost
scope of the second. -/
structure Scope.Inside (scope scope' : Scope) : Prop where
  parent : scope'.parent = some (scope.parent.elim 0 (· + 1))
  bindings : ∀ name, Option.Rel (Value.Alike Next) (scope.bindings.lookup name)
    (scope'.bindings.lookup name)

/-- The second store has the scopes of the first inside an outermost one that binds nothing. -/
structure Store.Inside (store store' : Store) : Prop where
  rooted : 0 < store.size
  size : store'.size = store.size + 1
  outermost : store'.scope? 0 = some ⟨none, []⟩
  scope : ∀ number, Option.Rel Scope.Inside (store.scope? number) (store'.scope? (number + 1))

namespace Store.Inside

variable {store store' : Store} (inside : store.Inside store')
include inside

/-- Nothing is found in the outermost scope. -/
theorem find?_outermost (name : String) : store'.find? 0 name = none := by
  unfold Store.find?
  rw [inside.outermost]
  rfl

theorem find? (number : Nat) (name : String) :
    Option.Rel (Value.Alike Scope.Next) (store.find? number name)
      (store'.find? (number + 1) name) := by
  induction number using Nat.strongRecOn with
  | ind number ih =>
    have scopes := inside.scope number
    unfold Store.find?
    generalize store.scope? number = scope, store'.scope? (number + 1) = scope' at scopes
    cases scopes with
    | none => exact .none
    | @some scope scope' same =>
      have bound := same.bindings name
      dsimp only
      generalize scope.bindings.lookup name = value, scope'.bindings.lookup name = value' at bound
      cases bound with
      | some values => exact .some values
      | none =>
        dsimp only
        rw [same.parent]
        cases scope.parent with
        | none =>
          -- The first run has looked everywhere, and the second finds nothing in what is left.
          change Option.Rel _ none (if 0 < number + 1 then store'.find? 0 name else none)
          rw [if_pos number.succ_pos, inside.find?_outermost]
          exact .none
        | some parent =>
          change Option.Rel _ (if parent < number then store.find? parent name else none)
            (if parent + 1 < number + 1 then store'.find? (parent + 1) name else none)
          by_cases inner : parent < number
          · rw [if_pos inner, if_pos (Nat.succ_lt_succ inner)]
            exact ih parent inner
          · rw [if_neg inner, if_neg (mt Nat.lt_of_succ_lt_succ inner)]
            exact .none

theorem opened (parent : Nat) :
    (store.opened (some parent)).Inside (store'.opened (some (parent + 1))) where
  rooted := by
    rw [Store.size_opened]
    exact Nat.succ_pos _
  size := by rw [Store.size_opened, Store.size_opened, inside.size]
  outermost := by
    have older : 0 ≠ store'.size := inside.size ▸ (Nat.succ_ne_zero _).symm
    rw [Store.scope?_opened, if_neg older]
    exact inside.outermost
  scope number := by
    rw [Store.scope?_opened, Store.scope?_opened, inside.size]
    by_cases newest : number = store.size
    · rw [if_pos newest, if_pos (congrArg (· + 1) newest)]
      exact .some ⟨rfl, fun _ => .none⟩
    · rw [if_neg newest, if_neg (mt Nat.succ.inj newest)]
      exact inside.scope number

theorem bind (number : Nat) (name : String) {value value' : Value}
    (values : value.Alike Scope.Next value') :
    (store.bind number name value).Inside (store'.bind (number + 1) name value') where
  rooted := by
    rw [Store.size_bind]
    exact inside.rooted
  size := by rw [Store.size_bind, Store.size_bind, inside.size]
  outermost := by
    rw [Store.scope?_bind, if_neg (Nat.succ_ne_zero number).symm]
    exact inside.outermost
  scope other := by
    have before := inside.scope other
    rw [Store.scope?_bind, Store.scope?_bind]
    by_cases here : other = number
    · rw [if_pos here, if_pos (congrArg (· + 1) here)]
      generalize store.scope? other = scope, store'.scope? (other + 1) = scope' at before
      cases before with
      | none => exact .none
      | some same =>
        exact .some ⟨same.parent, Scope.lookup_assign_alike same.bindings name values⟩
    · rw [if_neg here, if_neg (mt Nat.succ.inj here)]
      exact before

/-- The program's own scope and that of the call are there, and bind the same. -/
theorem root : ∃ scope scope', store.scope? Session.root = some scope ∧
    store'.scope? (Session.root + 1) = some scope' ∧ scope.Inside scope' := by
  have scopes := inside.scope Session.root
  obtain ⟨scope, found⟩ : ∃ scope, store.scope? Session.root = some scope :=
    ⟨_, Array.getElem?_eq_getElem inside.rooted⟩
  rw [found] at scopes
  generalize reached : store'.scope? (Session.root + 1) = scope' at scopes
  cases scopes with
  | some same => exact ⟨scope, _, found, rfl, same⟩

end Store.Inside

/-- The traces do not count: only one of the runs follows the call that it is part of. -/
structure State.Inside (state state' : State) : Prop where
  store : state.store.Inside state'.store
  output : state.output = state'.output

/-- Whatever both runs do, the scopes of one stay inside those of the other. -/
theorem State.Inside.accord : State.Accord Scope.Next State.Inside where
  find? states _ _ corresponds name := corresponds ▸ states.store.find? _ name
  follow states _ _ _ := ⟨states.store, states.output⟩
  print states line := ⟨states.store, congrArg (line :: ·) states.output⟩
  bind states _ _ corresponds name _ _ values :=
    ⟨corresponds ▸ states.store.bind _ name values, states.output⟩
  opened states _ _ corresponds :=
    ⟨states.store.size, corresponds ▸ states.store.opened _, states.output⟩

/-! A call of a function without parameters. -/

/-- The state in which the body of a called function begins, in a new scope. -/
def State.called (state : State) (callee : Value) (scope : Nat) : State :=
  { state with
    trace := state.trace.follow (.call callee [])
    store := state.store.opened (some scope) }

/-- To settle on a value that an evaluation comes to makes no difference to how it ends. -/
theorem Evaluation.finish_settled (evaluation : Evaluation Value) (state : State) :
    (do let result ← evaluation; settle result.unwrapped : Evaluation Value).finish state =
      (do let result ← evaluation; pure result.unwrapped : Evaluation Value).finish state := by
  cases outcome : evaluation state with
  | ok value later =>
    have settled : ∀ result : Value,
        (settle result).finish later = (pure result : Evaluation Value).finish later := by
      intro result
      cases result <;> rfl
    have reached := settled value.unwrapped
    unfold finish at reached ⊢
    rw [bind_of_ok outcome, bind_of_ok outcome]
    exact reached
  | error stop later =>
    unfold finish
    rw [bind_of_error outcome, bind_of_error outcome]

/-- A call runs the statements of the body as a program, in a new scope. -/
theorem applyWithin_body (depth scope : Nat) (brace : Token) (statements : List Statement)
    (state : State) :
    (applyWithin (depth + 1) (.function [] ⟨brace, statements⟩ scope) []).finish state =
      (Program.evaluate depth state.store.size ⟨statements⟩).finish
        (state.called (.function [] ⟨brace, statements⟩ scope) scope) :=
  Evaluation.finish_settled (Statement.evaluateAll (applyWithin depth) state.store.size .null
    statements) (state.called (.function [] ⟨brace, statements⟩ scope) scope)

/-- A call of a function that was defined in an empty root scope. -/
theorem Session.start_called (level : Nat) (callee : Value) :
    (start level).state.Inside ((start level).state.called callee root) where
  output := rfl
  store := by
    refine ⟨Nat.one_pos, rfl, rfl, fun number => ?_⟩
    match number with
    | 0 => exact .some ⟨rfl, fun _ => .none⟩
    | number + 1 => exact .none

/-- The same statements as a program and as the body of a function without parameters, each begun
in an empty root scope: they end alike, in a value of the same kind and text, in the same error, or
for too deep calls, of which the one that runs the body is not counted. They print the same, and the
scope of the program and that of the call bind the same names to values that are alike, as do all
scopes opened on the way. -/
theorem program_means_body (statements : List Statement) (brace : Token) (depth level : Nat) :
    ∃ ending state ending' state',
      (Program.evaluate depth Session.root ⟨statements⟩).finish (Session.start level).state =
        (ending, state) ∧
      (applyWithin (depth + 1) (.function [] ⟨brace, statements⟩ Session.root) []).finish
        (Session.start level).state = (ending', state') ∧
      ending.Alike Scope.Next ending' ∧
      (∀ value value', ending = .value value → ending' = .value value' →
        value.kind = value'.kind ∧ value.inspect = value'.inspect) ∧
      state.output = state'.output ∧ state.store.Inside state'.store ∧
      ∃ scope scope', state.store.scope? Session.root = some scope ∧
        state'.store.scope? (Session.root + 1) = some scope' ∧ scope.Inside scope' := by
  have together := State.Inside.accord.program_together depth
    (rfl : Scope.Next Session.root (Session.root + 1)) (Program.agrees_self ⟨statements⟩)
  obtain ⟨endings, states⟩ := together.finish
    (Session.start_called level (.function [] ⟨brace, statements⟩ Session.root))
  refine ⟨_, _, _, _, rfl, applyWithin_body depth Session.root brace statements _, endings, ?_,
    states.output, states.store, states.store.root⟩
  intro value value' ended ended'
  obtain ⟨values⟩ := ended' ▸ ended ▸ endings
  exact ⟨values.kind_eq, values.inspect_eq⟩

end Monkey

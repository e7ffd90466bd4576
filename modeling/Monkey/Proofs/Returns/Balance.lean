import Monkey.Proofs.Laws

/-!
Values that are given back. A `return` wraps its value, and the program and every call take one
layer off. A value that is wrapped twice therefore gets out of them with a wrapper that was only
meant for the way out of blocks. That happens just where a statement of the program or of a
function's body itself has such a value, and it all begins with a `return` of a value that is
wrapped already.
-/

namespace Monkey

open Evaluation Watched

namespace Visit

/-- A function call gives its caller a value that is still wrapped. -/
def escapes : Visit → Bool
  | .ends (.application (.function _ _ _) _) (.value (.returned _)) _ => true
  | _ => false

/-- A statement of the program or of a function's body itself has a value that is wrapped twice. -/
def doubles : Visit → Bool
  | .ends (.statement _ _ true) (.value (.returned (.returned _))) _ => true
  | _ => false

/-- A `return` gives back a value that is wrapped already. -/
def rewraps : Visit → Bool
  | .ends (.statement (.giveBack _ _) _ _) (.value (.returned (.returned _))) _ => true
  | _ => false

/-- A task that is cut short does not end in a value that is wrapped. -/
theorem of_stop (task : Task) (stop : Stop) (state : State) :
    (ends task stop.ending state).escapes = false ∧ (ends task stop.ending state).doubles = false ∧
      (ends task stop.ending state).rewraps = false := by
  cases stop <;> cases task with
  | application callee _ => cases callee <;> exact ⟨rfl, rfl, rfl⟩
  | statement tree _ direct => cases tree <;> cases direct <;> exact ⟨rfl, rfl, rfl⟩
  | _ => exact ⟨rfl, rfl, rfl⟩

end Visit

namespace Value

def wrapped : Value → Bool
  | .returned _ => true
  | _ => false

def wrappedTwice : Value → Bool
  | .returned value => value.wrapped
  | _ => false

theorem wrapped_unwrapped (value : Value) : value.unwrapped.wrapped = value.wrappedTwice := by
  cases value <;> rfl

end Value

/-- Wrapped values have got out of calls just if statements of the bodies called had values that are
wrapped twice, but for one that is still `due` to get out. -/
def Watch.Balanced (watch : Watch) (due : Bool) : Prop :=
  (watch.visits.any Visit.escapes || due) = watch.visits.any Visit.doubles

/-- The end of a task counts by the value that it ends with. -/
theorem Watch.Balanced.note {watch : Watch} {due later : Bool} {visit : Visit}
    (balanced : watch.Balanced due) (counts : (visit.escapes || later) = (due || visit.doubles)) :
    (watch.note visit).Balanced later := by
  unfold Balanced at balanced ⊢
  change (visit.escapes || watch.visits.any Visit.escapes || later) =
    (visit.doubles || watch.visits.any Visit.doubles)
  calc
    _ = (watch.visits.any Visit.escapes || (visit.escapes || later)) := by ac_rfl
    _ = (watch.visits.any Visit.escapes || due || visit.doubles) := by
      rw [counts, Bool.or_assoc]
    _ = _ := by
      rw [balanced, Bool.or_comm]

/-- Nothing is due where an expression has a value. -/
def Law.balance : Law where
  kept watch := watch.Balanced false
  cut _ watch := watch.Balanced false
  lasts _ _ := True
  fine _ _ := True

theorem Law.balance_stable : balance.Stable where
  refl _ := trivial
  trans _ _ := trivial
  fine_lasts _ _ := trivial
  made _ _ _ := trivial
  found _ _ _ := trivial
  follow _ kept := ⟨trivial, kept⟩
  print _ kept := ⟨trivial, kept⟩
  assign _ _ kept _ := ⟨trivial, kept⟩
  enter _ kept _ := ⟨trivial, kept⟩
  begins _ kept := ⟨trivial, kept.note rfl⟩
  expression _ _ _ _ kept _ := ⟨trivial, kept.note rfl⟩
  block _ _ _ _ kept _ := ⟨trivial, kept.note rfl⟩
  statement _ _ _ _ kept _ := ⟨⟨trivial, kept.note rfl⟩, trivial⟩
  stops _ kept := kept
  cuts := by
    intro stop watch task balanced
    obtain ⟨escapes, doubles, -⟩ := Visit.of_stop task stop watch.state
    exact balanced.note (by rw [escapes, doubles])

/-- What is due after a part of an evaluation, by its value. -/
def Watched.Owes (watched : Watched Value) (due : Value → Bool) : Prop :=
  ∀ watch, watch.Balanced false →
    watched.Leads Law.balance.cut watch fun value later => later.Balanced (due value)

namespace Watched.Owes

variable {watched : Watched Value} {task : Task} {due later : Value → Bool}

theorem visit (inner : watched.Owes due)
    (counts : ∀ value state, ((Visit.ends task (.value value) state).escapes || later value) =
      (due value || (Visit.ends task (.value value) state).doubles)) :
    (visit task watched).Owes later := by
  intro watch balanced
  apply (inner _ (balanced.note rfl)).visit
  · exact fun value later balanced => balanced.note (counts value later.state)
  · exact fun stop later => Law.balance_stable.cuts task

theorem of_keeps {good : Value → Watch → Prop}
    (keeps : ∀ watch, Law.balance.Keeps watched watch good) : watched.Owes fun _ => false :=
  fun watch balanced => (keeps watch balanced).mono fun _ _ reached => reached.1.2

theorem fault (cause : Fault) : (plainly (fault cause : Evaluation Value)).Owes fun _ => false :=
  fun _ balanced => balanced

end Watched.Owes

section
variable {watching : Value → List Value → Watched Value} (scope : Nat)
variable (calls : ∀ callee arguments,
  (visit (.application callee arguments) (watching callee arguments)).Owes fun _ => false)
include calls

theorem Statement.owes (statement : Statement) :
    (visit (.statement statement scope true) (statement.watch watching scope)).Owes
      Value.wrappedTwice := by
  have inside := statement.keeps Law.balance_stable
    (fun callee arguments watch _ _ balanced => (calls callee arguments watch balanced).mono
      fun _ _ balanced => ⟨⟨trivial, balanced⟩, trivial⟩) scope
  apply (Owes.of_keeps inside).visit
  intro value state
  cases value with
  | returned inner => cases inner <;> rfl
  | _ => rfl

/-- The statements of a program or of a body itself may have a value that is wrapped twice, which
then is what they end with. -/
theorem Statement.owesAll (last : Value) (plain : last.wrapped = false) (list : List Statement) :
    (Statement.watchAll watching scope true last list).Owes Value.wrappedTwice := by
  induction list generalizing last with
  | nil =>
    have once : last.wrappedTwice = false := by
      cases last with
      | returned => cases plain
      | _ => rfl
    intro watch balanced
    change watch.Balanced last.wrappedTwice
    rw [once]
    exact balanced
  | cons statement rest ih =>
    intro watch balanced
    apply (Statement.owes scope calls statement watch balanced).bind
    intro value later balanced
    cases value with
    | returned value => exact balanced
    | _ => exact ih _ rfl later balanced

theorem Block.owes (block : Block) :
    (block.watch watching scope true).Owes Value.wrappedTwice := by
  cases block with
  | mk token statements => exact Statement.owesAll scope calls .null rfl statements

end

/-- What a function gives back is wrapped just if it was wrapped twice in the body. -/
theorem owes_settle {result : Value} {watch : Watch}
    (balanced : watch.Balanced result.wrappedTwice) :
    (plainly (settle result.unwrapped)).Leads Law.balance.cut watch
      fun value later => later.Balanced value.wrapped := by
  cases result with
  | error message => exact balanced
  | returned inner => cases inner <;> exact balanced
  | _ => exact balanced

/-- A call is balanced if the calls in it are. -/
theorem watchWithin_owes (depth : Nat) (calls : ∀ less callee arguments, depth = less + 1 →
      (visit (.application callee arguments) (watchWithin less callee arguments)).Owes
        fun _ => false)
    (callee : Value) (arguments : List Value) :
    (visit (.application callee arguments) (watchWithin depth callee arguments)).Owes
      fun _ => false := by
  have stable := Law.balance_stable
  cases callee with
  | function parameters body scope =>
    have inner : (watchWithin depth (.function parameters body scope) arguments).Owes
        Value.wrapped := by
      intro watch balanced
      unfold watchWithin
      split
      · exact balanced
      cases depth with
      | zero => exact balanced
      | succ depth =>
        apply (stable.follows (.call (.function parameters body scope) arguments) balanced).bind
        intro _ first reached
        apply (stable.enters (some scope) (fun _ _ => trivial) reached.1.2).bind
        intro inner second reached
        have inside : (visit (.body body inner) (body.watch (watchWithin depth) inner true)).Owes
            Value.wrappedTwice :=
          (Block.owes inner (fun callee arguments => calls depth callee arguments rfl) body).visit
            fun _ _ => (Bool.or_false _).symm
        apply (inside second reached.1.2).bind
        exact fun result third => owes_settle
    apply inner.visit
    intro value state
    cases value <;> rfl
  | builtin builtin =>
    have inner : (watchWithin depth (.builtin builtin) arguments).Owes fun _ => false :=
      .of_keeps fun watch => stable.appliesBuiltin depth builtin fun _ _ => trivial
    exact inner.visit fun _ _ => rfl
  | _ =>
    unfold watchWithin
    exact (Owes.fault _).visit fun _ _ => rfl

/-- By induction on how deep calls may nest. -/
theorem application_owes (depth : Nat) (callee : Value) (arguments : List Value) :
    (visit (.application callee arguments) (watchWithin depth callee arguments)).Owes
      fun _ => false := by
  induction depth generalizing callee arguments with
  | zero => exact watchWithin_owes 0 (fun _ _ _ same => nomatch same) callee arguments
  | succ depth ih =>
    apply watchWithin_owes (depth + 1)
    intro less callee arguments same
    obtain rfl := Nat.succ.inj same
    exact ih callee arguments

theorem Program.owes (depth scope : Nat) (program : Program) :
    (program.watch depth scope).Owes Value.wrapped := by
  intro watch balanced
  apply (Statement.owesAll scope (application_owes depth) .null rfl program.statements watch
    balanced).bind
  intro result later balanced
  change later.Balanced result.unwrapped.wrapped
  rw [result.wrapped_unwrapped]
  exact balanced

end Monkey

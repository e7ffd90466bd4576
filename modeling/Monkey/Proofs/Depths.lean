import Mathlib
import Monkey.Proofs.Kinds
import Monkey.Proofs.Scopes
import Monkey.Proofs.Tracing

/-!
How deep calls may nest. Every evaluation ends, whatever the bound; it is by recursion on the tree
and, where a function is called, on what is left of the bound. A larger bound changes nothing for
an evaluation that stays within the smaller one. One that does not is cut short, and the evaluation
with the larger bound has gone through all that it went through.
-/

namespace Monkey

open Evaluation

/-- What was printed and traced in one state is the beginning of what was in another one. Both are
kept with the latest first. -/
structure State.Precedes (state later : State) : Prop where
  output : state.output <:+ later.output
  recorded : state.trace.recorded <:+ later.trace.recorded
  shown : state.trace.shown <:+ later.trace.shown

namespace State.Precedes

theorem refl (state : State) : state.Precedes state :=
  ⟨List.suffix_refl _, List.suffix_refl _, List.suffix_refl _⟩

theorem trans {first second third : State} (start : first.Precedes second)
    (rest : second.Precedes third) : first.Precedes third :=
  ⟨start.output.trans rest.output, start.recorded.trans rest.recorded,
    start.shown.trans rest.shown⟩

end State.Precedes

namespace Trace

theorem follow_grows (trace : Trace) (event : Event) :
    trace.recorded <:+ (trace.follow event).recorded ∧
      trace.shown <:+ (trace.follow event).shown := by
  unfold follow
  split
  · split
    · exact ⟨List.suffix_refl _, List.suffix_cons _ _⟩
    · exact ⟨List.suffix_cons _ _, List.suffix_refl _⟩
  · exact ⟨List.suffix_refl _, List.suffix_refl _⟩

theorem followAll_grows (events : List Event) (trace : Trace) :
    trace.recorded <:+ (trace.followAll events).recorded ∧
      trace.shown <:+ (trace.followAll events).shown := by
  induction events generalizing trace with
  | nil => exact ⟨List.suffix_refl _, List.suffix_refl _⟩
  | cons event events ih =>
    have first := trace.follow_grows event
    have others := ih (trace.follow event)
    exact ⟨first.1.trans others.1, first.2.trans others.2⟩

end Trace

namespace Evaluation

variable {α β : Type}

/-- Whatever comes of the evaluation, it takes back nothing that was printed or traced. -/
theorem Logs.precedes {evaluation : Evaluation α} (logs : Logs evaluation) (state : State) :
    state.Precedes (evaluation.after state) := by
  obtain ⟨store, output, trace⟩ := state
  obtain ⟨⟨outcome, later, lines, events⟩, comes⟩ := logs store
  have grows := trace.followAll_grows events
  unfold after
  rw [comes]
  cases outcome <;> exact ⟨List.suffix_append _ _, grows.1, grows.2⟩

/-- An evaluation that does what another one does. When that one is given up because calls nest too
deeply, this one has gone through the same up to there. -/
structure Prolongs (long short : Evaluation α) : Prop where
  logs : Logs long
  ends : ∀ state, long state = short state ∨
    ∃ reached, short state = .error .depthExceeded reached ∧ reached.Precedes (long.after state)

namespace Prolongs

theorem refl {evaluation : Evaluation α} (logs : Logs evaluation) :
    Prolongs evaluation evaluation := ⟨logs, fun _ => .inl rfl⟩

theorem given_up {long : Evaluation α} (logs : Logs long) :
    Prolongs long (throw .depthExceeded) :=
  ⟨logs, fun state => .inr ⟨state, rfl, logs.precedes state⟩⟩

theorem bind {long short : Evaluation α} {longNext shortNext : α → Evaluation β}
    (start : Prolongs long short) (others : ∀ value, Prolongs (longNext value) (shortNext value)) :
    Prolongs (long >>= longNext) (short >>= shortNext) where
  logs := start.logs.bind fun value => (others value).logs
  ends state := by
    rcases start.ends state with same | ⟨reached, cut, precedes⟩
    · cases outcome : short state with
      | error stop later =>
        rw [bind_of_error outcome, bind_of_error (same.trans outcome)]
        exact .inl rfl
      | ok value later =>
        have begun : (long >>= longNext) state = longNext value later :=
          bind_of_ok (same.trans outcome)
        unfold after
        rw [bind_of_ok outcome, begun]
        exact (others value).ends later
    -- What comes after the point where the shorter one was given up only adds to it.
    · refine .inr ⟨reached, bind_of_error cut, precedes.trans ?_⟩
      cases outcome : long state with
      | error stop later =>
        unfold after
        rw [bind_of_error outcome, outcome]
        exact .refl _
      | ok value later =>
        unfold after
        rw [bind_of_ok outcome, outcome]
        exact (others value).logs.precedes later

end Prolongs
end Evaluation

/-! The induction over the syntax. The longer evaluation is taken to prolong calls. -/

section
variable {further calling : Calling} (scope : Nat)
variable (calls : ∀ callee arguments,
  Prolongs (further callee arguments) (calling callee arguments))
include calls

set_option linter.unusedSectionVars false

mutual

theorem Expr.prolongs : ∀ expr : Expr,
    Prolongs (expr.evaluate further scope) (expr.evaluate calling scope)
  | .identifier _ => .refl (.resolve _ _)
  | .integer _ _ | .boolean _ _ | .string _ _ | .function _ _ _ => .refl (.pure _)
  | .unary _ _ right => .bind (Expr.prolongs right) fun _ => .refl (.answer _)
  | .binary _ left _ right => .bind (Expr.prolongs left) fun _ =>
    .bind (Expr.prolongs right) fun _ => .refl (.answer _)
  | .conditional _ condition consequence alternative => by
    refine .bind (Expr.prolongs condition) fun value => .bind (.refl (.follow _)) fun _ => ?_
    split
    · exact Block.prolongs consequence
    · exact Block.prolongsAlternative alternative
  | .call _ callee arguments => .bind (Expr.prolongs callee) fun _ =>
    .bind (Expr.prolongsAll arguments) fun _ => calls _ _
  | .array _ elements => .bind (Expr.prolongsAll elements) fun _ => .refl (.pure _)
  | .hash _ pairs => .bind (Expr.prolongsPairs [] pairs) fun _ => .refl (.pure _)
  | .index _ left position => .bind (Expr.prolongs left) fun _ =>
    .bind (Expr.prolongs position) fun _ => .refl (.answer _)
  | .slice _ left lower upper => .bind (Expr.prolongs left) fun _ =>
    .bind (Expr.prolongsBound lower) fun _ =>
    .bind (Expr.prolongsBound upper) fun _ => .refl (.answer _)
  | .unknown => .refl (.throw _)

theorem Expr.prolongsBound : ∀ bound : Option Expr,
    Prolongs (Expr.evaluateBound further scope bound) (Expr.evaluateBound calling scope bound)
  | none => .refl (.pure _)
  | some bound => .bind (Expr.prolongs bound) fun _ => .refl (.pure _)

theorem Expr.prolongsAll : ∀ list : List Expr,
    Prolongs (Expr.evaluateAll further scope list) (Expr.evaluateAll calling scope list)
  | [] => .refl (.pure _)
  | expr :: rest => .bind (Expr.prolongs expr) fun _ =>
    .bind (Expr.prolongsAll rest) fun _ => .refl (.pure _)

theorem Expr.prolongsPairs (entries : List (Entry Value)) : ∀ list : List (Expr × Expr),
    Prolongs (Expr.evaluatePairs further scope entries list)
      (Expr.evaluatePairs calling scope entries list)
  | [] => .refl (.pure _)
  | (key, value) :: rest => by
    refine .bind (Expr.prolongs key) fun key => ?_
    cases key.hashKey? with
    | none => exact .refl (.fault _)
    | some hashKey => exact .bind (Expr.prolongs value) fun _ => Expr.prolongsPairs _ rest

theorem Statement.prolongs : ∀ statement : Statement,
    Prolongs (statement.evaluate further scope) (statement.evaluate calling scope)
  | .binding _ _ value => .bind (Expr.prolongsOrNull value) fun _ =>
    .bind (.refl (.assign _ _ _)) fun _ => .bind (.refl (.follow _)) fun _ => .refl (.pure _)
  | .giveBack _ value => .bind (Expr.prolongsOrNull value) fun _ => .refl (.pure _)
  | .expression _ value => Expr.prolongsOrNull value
  | .block body => Block.prolongs body

theorem Expr.prolongsOrNull : ∀ value : Option Expr,
    Prolongs (Expr.evaluateOrNull further scope value) (Expr.evaluateOrNull calling scope value)
  | none => .refl (.pure _)
  | some expr => Expr.prolongs expr

theorem Statement.prolongsAll (last : Value) : ∀ list : List Statement,
    Prolongs (Statement.evaluateAll further scope last list)
      (Statement.evaluateAll calling scope last list)
  | [] => .refl (.pure _)
  | statement :: rest => by
    refine .bind (Statement.prolongs statement) fun value => ?_
    split
    · exact .refl (.pure _)
    · exact Statement.prolongsAll _ rest

theorem Block.prolongs : ∀ block : Block,
    Prolongs (block.evaluate further scope) (block.evaluate calling scope)
  | ⟨_, statements⟩ => Statement.prolongsAll _ statements

theorem Block.prolongsAlternative : ∀ alternative : Option Block,
    Prolongs (Block.evaluateAlternative further scope alternative)
      (Block.evaluateAlternative calling scope alternative)
  | none => .refl (.pure _)
  | some block => Block.prolongs block

end

end

/-- By induction on the smaller bound. -/
theorem applyWithin_prolongs (more depth : Nat) (callee : Value) (arguments : List Value) :
    Prolongs (applyWithin (more + depth) callee arguments)
      (applyWithin depth callee arguments) := by
  induction depth generalizing callee arguments with
  | zero =>
    have logs := applyWithin_logs (more + 0) callee arguments
    unfold applyWithin at logs ⊢
    split
    · split
      · exact .refl (.fault _)
      · rename_i fits
        simp only [if_neg fits] at logs
        exact .given_up logs
    · exact .refl logs
    · exact .refl (.fault _)
  | succ depth ih =>
    unfold applyWithin
    split
    · split
      · exact .refl (.fault _)
      · exact .bind (.refl (.follow _)) fun _ => .bind (.refl (.enter _ _)) fun inner =>
          .bind (Block.prolongs inner ih _) fun _ => .refl (.settle _)
    · exact .refl (.bind (.follow _) fun _ => .apply _ _)
    · exact .refl (.fault _)

theorem Node.prolongs (more depth scope : Nat) (node : Node) :
    Prolongs (node.evaluate (more + depth) scope) (node.evaluate depth scope) := by
  have calls := applyWithin_prolongs more depth
  cases node with
  | program tree =>
    exact .bind (Statement.prolongsAll scope calls .null tree.statements) fun _ => .refl (.pure _)
  | statement tree => exact tree.prolongs scope calls
  | expression tree => exact tree.prolongs scope calls

theorem Evaluation.finish_snd (evaluation : Evaluation Value) (state : State) :
    (evaluation.finish state).2 = evaluation.after state := by
  unfold finish after
  split <;> rename_i outcome <;> rw [outcome]

/-- The runs of two such evaluations. -/
theorem Evaluation.Prolongs.finish {long short : Evaluation Value} (prolongs : Prolongs long short)
    (state : State) : long.finish state = short.finish state ∨
      (short.finish state).1 = .depthExceeded ∧
        (short.finish state).2.Precedes (long.finish state).2 := by
  rcases prolongs.ends state with same | ⟨reached, cut, precedes⟩
  · unfold Evaluation.finish
    exact .inl (by rw [same])
  · rw [finish_of_error cut, finish_snd]
    exact .inr ⟨rfl, precedes⟩

/-- Every run of a tree without unknown nodes ends, in a value or because calls nest too deeply, and
leaves a store that such runs can go on from. The bound on how deep calls may nest only decides
between the two: a run that ends in a value within one bound ends in the same value within every
larger one, and leaves the same bindings, output and trace. When a bound is exceeded, what was
printed and traced up to there is the beginning of what is within a larger one. -/
theorem bound_only_decides_success (node : Node) (scope : Nat) (state : State) (depth deeper : Nat)
    (larger : depth ≤ deeper) :
    (node.known = true → state.store.Holds Value.Known →
      ((∃ value, ((node.evaluate depth scope).finish state).1 = .value value) ∨
        ((node.evaluate depth scope).finish state).1 = .depthExceeded) ∧
      ((node.evaluate depth scope).finish state).2.store.Holds Value.Known) ∧
    (((node.evaluate depth scope).finish state).1 ≠ .depthExceeded →
      (node.evaluate deeper scope).finish state = (node.evaluate depth scope).finish state) ∧
    ((node.evaluate depth scope).finish state).2.Precedes
      ((node.evaluate deeper scope).finish state).2 := by
  obtain ⟨more, rfl⟩ := Nat.exists_eq_add_of_le' larger
  refine ⟨fun known holds => ?_, ?_⟩
  · obtain ⟨ends, left⟩ := (node.preserves (fun _ _ => true) depth scope known).finish holds
    exact ⟨ends.imp_left fun ⟨value, same, _⟩ => ⟨value, same⟩, left⟩
  · rcases (node.prolongs more depth scope).finish state with same | ⟨exceeded, precedes⟩
    · exact ⟨fun _ => same, same ▸ .refl _⟩
    · exact ⟨fun within => absurd exceeded within, precedes⟩

/-- A function that prints its argument and calls itself until that is zero. -/
def countdown : Node :=
  .program (parse "let f = fn(n) \x7b puts(n); if (n > 0) \x7b f(n - 1) \x7d \x7d; f(2)").program

def runCountdown (depth : Nat) : Ending × State :=
  (countdown.evaluate depth Session.root).finish (Session.start 0).state

/-- Three calls are enough for it. Within two it is cut short, after the first two lines. -/
theorem countdown_takes_three_calls :
    (runCountdown 2).1 = .depthExceeded ∧ (runCountdown 2).2.Precedes (runCountdown 3).2 ∧
      (runCountdown 3).1 = .value .null ∧ runCountdown callDepth = runCountdown 3 ∧
      ((∃ value, (runCountdown callDepth).1 = .value value) ∨
        (runCountdown callDepth).1 = .depthExceeded) := by
  have cut : (runCountdown 2).1 = .depthExceeded := by cbv
  have ends : (runCountdown 3).1 = .value .null := by cbv
  have started : (Session.start 0).state.store.Holds Value.Known := Store.Holds.empty.opened none
  have grows := bound_only_decides_success countdown Session.root (Session.start 0).state
  refine ⟨cut, (grows 2 3 (by decide)).2.2, ends, ?_, ?_⟩
  · have within : (runCountdown 3).1 ≠ .depthExceeded := by
      intro exceeded
      rw [ends] at exceeded
      cases exceeded
    exact (grows 3 callDepth (by decide)).2.1 within
  · exact ((grows callDepth callDepth (Nat.le_refl _)).1 (known_parse _) started).1

end Monkey

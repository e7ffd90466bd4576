import Mathlib
import Monkey.Proofs.Returns.Balance
import Monkey.Proofs.Returns.Flat

/-!
What lets wrapped values out. As long as no `return` gives back a value that is wrapped already, all
values are flat, bound ones and those inside arrays and hashes too, and so no program and no call
gives back a value that is still wrapped.
-/

namespace Monkey

open Watched

/-- A flat value is not wrapped twice. -/
theorem Value.Flat.undoubled {value : Value} (flat : value.Flat) (task : Task) (state : State) :
    (Visit.ends task (.value value) state).doubles = false := by
  cases task with
  | statement tree scope direct =>
    cases direct with
    | false => rfl
    | true =>
      cases flat with
      | @returned value _ once =>
        cases value with
        | returned inner => exact absurd rfl (once inner)
        | _ => rfl
      | _ => rfl
  | _ => rfl

/-- No `return` of a wrapped value was noted. -/
def Watch.Clean (watch : Watch) : Prop := watch.visits.any Visit.rewraps = false

/-- All values are flat and no statement had a value that was wrapped twice, unless a `return` gave
back a wrapped value. -/
def Law.flattening : Law where
  kept watch := watch.Clean → watch.state.store.Flat ∧ watch.visits.any Visit.doubles = false
  cut _ watch := watch.Clean → watch.state.store.Flat ∧ watch.visits.any Visit.doubles = false
  lasts watch later := later.Clean → watch.Clean
  fine value watch := watch.Clean → value.Flat

namespace Law

theorem flattening_note {watch : Watch} {visit : Visit} (kept : flattening.kept watch)
    (undoubled : watch.Clean → visit.rewraps = false → visit.doubles = false) :
    flattening.Steps watch (watch.note visit) := by
  have earlier : (watch.note visit).Clean → visit.rewraps = false ∧ watch.Clean :=
    Bool.or_eq_false_iff.mp
  refine ⟨fun clean => (earlier clean).2, fun clean => ?_⟩
  obtain ⟨once, clean⟩ := earlier clean
  obtain ⟨flat, single⟩ := kept clean
  exact ⟨flat, Bool.or_eq_false_iff.mpr ⟨undoubled clean once, single⟩⟩

theorem flattening_ends (task : Task) : flattening.Ends task := by
  intro value watch kept fine
  apply flattening_note kept
  exact fun clean _ => (fine clean).undoubled task watch.state

/-- The value of a statement is flat if it was no `return` of a wrapped value. -/
theorem flattening_endsStatement (direct : Bool) : flattening.EndsStatement direct := by
  intro tree scope value watch kept gives
  let ended := Visit.ends (.statement tree scope direct) (.value value) watch.state
  have flat (clean : watch.Clean) (once : ended.rewraps = false) : value.Flat := by
    cases tree with
    | giveBack token operand =>
      obtain ⟨inner, rfl, fine⟩ := gives
      apply Value.Flat.returned (fine clean)
      intro other same
      subst same
      cases once
    | _ => exact gives clean
  constructor
  · apply flattening_note kept
    exact fun clean once => (flat clean once).undoubled _ watch.state
  · intro clean
    obtain ⟨once, clean⟩ := Bool.or_eq_false_iff.mp clean
    exact flat clean once

theorem flattening_total : flattening.Total where
  refl _ := id
  trans first second clean := first (second clean)
  fine_lasts fine lasts clean := fine (lasts clean)
  made fine made _ clean := made.flat fun source member => fine source member clean
  found kept found _ clean := (kept clean).1.find? found
  follow _ kept := ⟨id, kept⟩
  print _ kept := ⟨id, kept⟩
  assign scope name kept fine :=
    ⟨id, fun clean => ⟨(kept clean).1.bind scope name (fine clean), (kept clean).2⟩⟩
  enter parent kept fine := by
    refine ⟨id, fun clean => ⟨?_, (kept clean).2⟩⟩
    exact ((kept clean).1.opened parent).bindAll _ fun binding member => fine binding member clean
  begins _ kept := flattening_note kept fun _ _ => rfl
  expression _ _ := flattening_ends _
  block _ _ := flattening_ends _
  statement := flattening_endsStatement false
  stops _ kept := kept
  cuts := by
    intro stop watch task kept
    obtain ⟨-, doubles, -⟩ := Visit.of_stop task stop watch.state
    exact (flattening_note kept fun _ _ => doubles).2
  direct := flattening_endsStatement true
  body _ _ := flattening_ends _
  application _ _ := flattening_ends _

end Law

theorem Session.flat_start (level : Nat) : (start level).state.store.Flat :=
  Store.Flat.opened (fun scope member => absurd member (by simp [State.fresh, Store.empty])) none

/-- What a program goes through in a session of its own. -/
def Program.visits (depth level : Nat) (program : Program) : List Visit :=
  (Node.program program).visits depth Session.root (Session.start level).state

/-- Whether a program ends with a value that is still wrapped. -/
def Ending.wrapped : Ending → Bool
  | .value result => result.wrapped
  | _ => false

/-- Where the run of a program ends, both laws are kept. -/
theorem Program.exists_final (depth level : Nat) (program : Program) :
    ∃ final : Watch, program.visits depth level = final.visits.reverse ∧
      final.Balanced ((Session.start level).run depth (.program program)).1.wrapped ∧
      (final.Clean → final.visits.any Visit.doubles = false) := by
  have balance := program.owes depth Session.root ⟨(Session.start level).state, []⟩ rfl
  have flattened := program.keeps Law.flattening_total depth Session.root
    ⟨(Session.start level).state, []⟩ fun _ => ⟨Session.flat_start level, rfl⟩
  have plain := program.forgets depth Session.root ⟨(Session.start level).state, []⟩
  unfold Leads at balance flattened
  unfold Program.visits Node.visits Session.run Evaluation.finish
  dsimp only [Node.evaluate, Node.watch]
  rw [← plain]
  cases outcome : program.watch depth Session.root ⟨(Session.start level).state, []⟩ with
  | ok value final =>
    rw [outcome] at balance flattened
    exact ⟨final, by rw [leaves_of_ok outcome], balance, fun clean => (flattened.1.2 clean).2⟩
  | error stop final =>
    rw [outcome] at balance flattened
    refine ⟨final, by rw [leaves_of_error outcome], ?_, fun clean => (flattened clean).2⟩
    cases stop <;> exact balance

/-- Of a program that was read without problems the value is still wrapped, or a call in it gives
its caller one that is, just if a statement of the program or of a called function's body itself has
a value that is wrapped twice. And that happens only where a `return` gives back a value that is
wrapped already. -/
theorem escapes_iff_doubles (depth level : Nat) (source : String) (program : Program)
    (accepted : (parse source).accepted = .ok program) :
    ∃ ending session, runText depth level source = .ok (ending, session) ∧
      ((ending.wrapped = true ∨ ∃ visit ∈ program.visits depth level, visit.escapes = true) ↔
        ∃ visit ∈ program.visits depth level, visit.doubles = true) ∧
      ((∃ visit ∈ program.visits depth level, visit.doubles = true) →
        ∃ visit ∈ program.visits depth level, visit.rewraps = true) := by
  have ran := runText_of_accepted accepted depth level
  obtain ⟨final, visits, balanced, flattened⟩ := program.exists_final depth level
  have held (kind : Visit → Bool) :
      (∃ visit ∈ program.visits depth level, kind visit = true) ↔ final.visits.any kind = true := by
    rw [visits, ← List.any_eq_true, List.any_reverse]
  refine ⟨((Session.start level).run depth (.program program)).1, _, ran, ?_, fun doubled => ?_⟩
  · rw [held, held, or_comm, ← Bool.or_eq_true, balanced]
  · rw [held] at doubled ⊢
    by_contra once
    rw [flattened (Bool.eq_false_iff.mpr once)] at doubled
    cases doubled

/-- A single `return` is read without problems. -/
theorem escapes_iff_doubles_of_return :
    ∃ program, (parse "return 1;").accepted = .ok program ∧
      ∃ ending session, runText callDepth 0 "return 1;" = .ok (ending, session) ∧
        ((ending.wrapped = true ∨ ∃ visit ∈ program.visits callDepth 0, visit.escapes = true) ↔
          ∃ visit ∈ program.visits callDepth 0, visit.doubles = true) ∧
        ((∃ visit ∈ program.visits callDepth 0, visit.doubles = true) →
          ∃ visit ∈ program.visits callDepth 0, visit.rewraps = true) := by
  have accepted : (parse "return 1;").accepted =
      .ok ⟨[.giveBack ⟨.returnKeyword, "return", ⟨1, 1⟩⟩
        (some (.integer ⟨.int, "1", ⟨1, 8⟩⟩ 1))]⟩ := by cbv
  exact ⟨_, accepted, escapes_iff_doubles callDepth 0 "return 1;" _ accepted⟩

/-- The `return` in the operand wraps the value, the outer `return` wraps it once more, and the
program takes one wrapper off. -/
theorem returned_return_escapes :
    (runText callDepth 0 "return if (true) \x7b return 1; \x7d;").map (fun outcome => outcome.1) =
      .ok (.value (.returned (.integer 1))) := by
  cbv

end Monkey

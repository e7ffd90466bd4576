import Monkey.Proofs.Laws

/-!
An error of the language ends everything at once, and so do calls that nest too deeply. Once a part
of an evaluation has been cut short, the parts around it end in the same way and in the same state,
one after the other, and no other part is begun.
-/

namespace Monkey

open Watched

/-- A task has been cut short. -/
def Visit.fails : Visit → Bool
  | .begins _ _ => false
  | .ends _ (.value value) _ => value.isError
  | .ends _ _ _ => true

theorem Stop.fails_ending (stop : Stop) (task : Task) (state : State) :
    (Visit.ends task stop.ending state).fails = true := by
  cases stop <;> rfl

/-- The latest visits end the tasks around the place where the evaluation was cut short, in the
state it was in there. No visit before them fails. -/
def Unwinds (stop : Stop) (watch : Watch) : Prop :=
  ∃ later earlier, watch.visits = later ++ earlier ∧
    (∀ visit ∈ later, ∃ outer, visit = .ends outer stop.ending watch.state) ∧
    ∀ visit ∈ earlier, visit.fails = false

/-- As long as an evaluation goes on, no task has been cut short and no value is an error. -/
def Law.stopsEnd : Law where
  kept watch := ∀ visit ∈ watch.visits, visit.fails = false
  cut := Unwinds
  lasts _ _ := True
  fine value _ := value.isError = false

namespace Law

theorem stopsEnd_ends (task : Task) : stopsEnd.Ends task := by
  intro value watch kept fine
  have passes : (Visit.ends task (.value value) watch.state).fails = false := fine
  exact ⟨trivial, List.forall_mem_cons.mpr ⟨passes, kept⟩⟩

theorem stopsEnd_endsStatement (direct : Bool) : stopsEnd.EndsStatement direct := by
  intro tree scope value watch kept gives
  have fine : value.isError = false := by
    cases tree with
    | giveBack token operand =>
      obtain ⟨inner, rfl, -⟩ := gives
      rfl
    | _ => exact gives
  exact ⟨stopsEnd_ends _ value watch kept fine, fine⟩

theorem unwinds_note {stop : Stop} {watch : Watch} (task : Task) (unwinds : Unwinds stop watch) :
    Unwinds stop (watch.note (.ends task stop.ending watch.state)) := by
  obtain ⟨later, earlier, visits, ends, passes⟩ := unwinds
  refine ⟨.ends task stop.ending watch.state :: later, earlier, ?_, ?_, passes⟩
  · exact congrArg (_ :: ·) visits
  · exact List.forall_mem_cons.mpr ⟨⟨task, rfl⟩, ends⟩

theorem stopsEnd_total : stopsEnd.Total where
  refl _ := trivial
  trans _ _ := trivial
  fine_lasts fine _ := fine
  made _ _ fine := fine
  found _ _ fine := fine
  follow _ kept := ⟨trivial, kept⟩
  print _ kept := ⟨trivial, kept⟩
  assign _ _ kept _ := ⟨trivial, kept⟩
  enter _ kept _ := ⟨trivial, kept⟩
  begins _ kept := ⟨trivial, List.forall_mem_cons.mpr ⟨rfl, kept⟩⟩
  expression _ _ := stopsEnd_ends _
  block _ _ := stopsEnd_ends _
  statement := stopsEnd_endsStatement false
  stops _ kept := ⟨[], _, rfl, fun _ member => absurd member List.not_mem_nil, kept⟩
  cuts task unwinds := unwinds_note task unwinds
  direct := stopsEnd_endsStatement true
  body _ _ := stopsEnd_ends _
  application _ _ := stopsEnd_ends _

end Law

/-- A visit that fails is among the latest when none before those fails. -/
theorem exists_of_append_eq {later earlier front back : List Visit} {visit : Visit}
    (same : later ++ earlier = front ++ visit :: back) (fails : visit.fails = true)
    (passes : ∀ visit ∈ earlier, visit.fails = false) : ∃ more, later = front ++ visit :: more := by
  have early : visit ∉ earlier := fun member => by
    rw [passes visit member] at fails
    cases fails
  rcases List.append_eq_append_iff.mp same with ⟨more, -, rest⟩ | ⟨more, rest, tail⟩
  · exact absurd (by simp [rest]) early
  · cases more with
    | nil => exact absurd ((show visit :: back = earlier from tail) ▸ List.mem_cons_self) early
    | cons first more =>
      obtain ⟨rfl, -⟩ := List.cons.inj tail
      exact ⟨more, rest⟩

/-- When a part of an evaluation has been cut short, only the parts around it end after that, and
they and the whole evaluation end in the same way and in the same state. -/
theorem ends_where_cut_short (depth scope : Nat) (node : Node) (start reached : State)
    (before after : List Visit) (task : Task) (stop : Stop)
    (seen : node.visits depth scope start = before ++ .ends task stop.ending reached :: after) :
    (∀ visit ∈ after, ∃ outer, visit = .ends outer stop.ending reached) ∧
      (node.evaluate depth scope).finish start = (stop.ending, reached) := by
  have led := node.keeps Law.stopsEnd_total depth scope ⟨start, []⟩
    fun _ member => absurd member List.not_mem_nil
  have plain := node.forgets depth scope ⟨start, []⟩
  have fails := stop.fails_ending task reached
  have member : .ends task stop.ending reached ∈ node.visits depth scope start := by
    rw [seen]
    simp
  unfold Node.visits at seen member
  unfold Leads at led
  cases outcome : node.watch depth scope ⟨start, []⟩ with
  | ok value final =>
    rw [outcome] at led
    rw [leaves_of_ok outcome, List.mem_reverse] at member
    exact absurd (fails.symm.trans (led.1.2 _ member)) (by decide)
  | error stop' final =>
    rw [outcome] at led plain
    rw [leaves_of_error outcome] at seen
    obtain ⟨later, earlier, visits, ends, passes⟩ := led
    have same : later ++ earlier =
        after.reverse ++ .ends task stop.ending reached :: before.reverse := by
      rw [← visits, ← List.reverse_reverse final.visits, seen]
      simp
    obtain ⟨more, unwound⟩ := exists_of_append_eq same fails passes
    rw [unwound] at ends
    obtain ⟨_, ended⟩ := ends (.ends task stop.ending reached) (by simp)
    obtain ⟨-, ending, rfl⟩ := Visit.ends.inj ended
    rw [ending]
    exact ⟨fun visit member => ends visit (by simp [member]), Evaluation.finish_of_error plain.symm⟩

/-- When a part of an evaluation has ended in an error, only the parts around it end after that, and
they and the whole evaluation end in the same error and the same state. -/
theorem ends_in_error (depth scope : Nat) (node : Node) (start reached : State)
    (before after : List Visit) (task : Task) (message : String)
    (seen : node.visits depth scope start =
      before ++ .ends task (.value (.error message)) reached :: after) :
    (∀ visit ∈ after, ∃ outer, visit = .ends outer (.value (.error message)) reached) ∧
      (node.evaluate depth scope).finish start = (.value (.error message), reached) :=
  ends_where_cut_short depth scope node start reached before after task (.error message) seen

/-- In `!-true + 1` the sign before `true` is an error, and the sum ends without its right side. -/
theorem negated_truth_ends_sum :
    (∀ visit ∈ [Visit.ends (.expression (.unary ⟨.bang, "!", .start⟩ .bang
        (.unary ⟨.minus, "-", .start⟩ .minus (.boolean ⟨.trueKeyword, "true", .start⟩ true))) 0)
        (.value (.error (Fault.unknownUnary .minus .boolean).message)) (State.fresh 0)],
      ∃ outer, visit = .ends outer (.value (.error (Fault.unknownUnary .minus .boolean).message))
        (State.fresh 0)) ∧
    ((Node.expression (.binary ⟨.plus, "+", .start⟩ (.unary ⟨.bang, "!", .start⟩ .bang
      (.unary ⟨.minus, "-", .start⟩ .minus (.boolean ⟨.trueKeyword, "true", .start⟩ true))) .plus
      (.integer ⟨.int, "1", .start⟩ 1))).evaluate 0 0).finish (State.fresh 0) =
        (.value (.error (Fault.unknownUnary .minus .boolean).message), State.fresh 0) :=
  ends_in_error 0 0 _ (State.fresh 0) (State.fresh 0)
    [.begins (.expression (.unary ⟨.bang, "!", .start⟩ .bang (.unary ⟨.minus, "-", .start⟩ .minus
        (.boolean ⟨.trueKeyword, "true", .start⟩ true))) 0) (State.fresh 0),
      .begins (.expression (.unary ⟨.minus, "-", .start⟩ .minus
        (.boolean ⟨.trueKeyword, "true", .start⟩ true)) 0) (State.fresh 0),
      .begins (.expression (.boolean ⟨.trueKeyword, "true", .start⟩ true) 0) (State.fresh 0),
      .ends (.expression (.boolean ⟨.trueKeyword, "true", .start⟩ true) 0) (.value (.boolean true))
        (State.fresh 0)] _
    (.expression (.unary ⟨.minus, "-", .start⟩ .minus
      (.boolean ⟨.trueKeyword, "true", .start⟩ true)) 0) _ rfl

end Monkey

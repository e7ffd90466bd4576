import Monkey.Proofs.Histories
import Monkey.Proofs.Returns.Balance

/-!
Orderly histories. What a `return` gives back is wrapped until it gets to the call that it is given
back from. In an orderly history nothing else happens before it is there: one after the other the
tasks around the `return` end with the wrapped value, all in the state in which the `return` did. So
what the call gives follows from where the `return` stands.
-/

namespace Monkey

/-- No wrapped value is part of the value. -/
def Value.Bare (value : Value) : Prop := value.Each fun part => part.wrapped = false

namespace Task

def isCall : Task → Bool
  | application _ _ => true
  | _ => false

/-- The next tasks around an expression are a statement that consists of it. -/
def IsStatement (tree : Expr) (scope : Nat) (around : List Task) : Prop :=
  ∃ token direct outer, around = .statement (.expression token (some tree)) scope direct :: outer

/-- A wrapped value may get out of a task, given the tasks around it. -/
def LetsOut : Task → List Task → Prop
  | expression tree scope, around => IsStatement tree scope around
  | application _ _, _ => False
  | _, _ => True

end Task

/-- The tasks that are under way after some visits, the innermost first. The visits are given in
reverse, as all histories are here. -/
def underway : List Visit → List Task
  | [] => []
  | .begins task _ :: earlier => task :: underway earlier
  | .ends _ _ _ :: earlier => (underway earlier).tail

/-- The tasks around the one that ends after some visits, which are given the earliest first. -/
def around (before : List Visit) : List Task := (underway before.reverse).tail

/-- How a value that is given back gets out of the tasks around the `return`. The call takes the
wrapper off. Without a call it gets out of all of them. -/
def wayOut (value : Value) (state : State) : List Task → List Visit
  | [] => []
  | task :: around =>
    if task.isCall then [.ends task (.value value) state]
    else .ends task (.value (.returned value)) state :: wayOut value state around

namespace Visit

/-- A task ends with a wrapped value. -/
def wraps : Visit → Bool
  | ends _ (.value value) _ => value.wrapped
  | _ => false

/-- No wrapped value is part of what is at hand or bound. -/
structure Bare (visit : Visit) : Prop where
  values : ∀ value ∈ visit.values, value.Bare
  store : visit.state.store.Holds Value.Bare

end Visit

/-- The last visit did not end with a wrapped value. -/
def Still (visits : List Visit) : Prop := ∀ visit ∈ visits.head?, visit.wraps = false

inductive Orderly : List Visit → Prop
  | start : Orderly []
  | begins {task : Task} {state : State} {visits : List Visit} (orderly : Orderly visits)
      (still : Still visits) (bare : (Visit.begins task state).Bare) :
      Orderly (.begins task state :: visits)
  | ends {task : Task} {ending : Ending} {state : State} {visits : List Visit}
      (orderly : Orderly visits) (still : Still visits)
      (bare : (Visit.ends task ending state).Bare) :
      Orderly (.ends task ending state :: visits)
  | gives {token : Token} {tree : Option Expr} {scope : Nat} {direct : Bool} {value : Value}
      {state : State} {visits : List Visit} (orderly : Orderly visits) (still : Still visits)
      (bare : value.Bare) (store : state.store.Holds Value.Bare) :
      Orderly (.ends (.statement (.giveBack token tree) scope direct) (.value (.returned value))
        state :: visits)
  | passes {inner task : Task} {around : List Task} {value : Value} {state : State}
      {visits : List Visit}
      (orderly : Orderly (.ends inner (.value (.returned value)) state :: visits))
      (same : (underway visits).tail = task :: around) (out : task.LetsOut around) :
      Orderly (.ends task (.value (.returned value)) state ::
        .ends inner (.value (.returned value)) state :: visits)
  | arrives {inner task : Task} {around : List Task} {value : Value} {state : State}
      {visits : List Visit}
      (orderly : Orderly (.ends inner (.value (.returned value)) state :: visits))
      (same : (underway visits).tail = task :: around) (call : task.isCall = true)
      (bare : (Visit.ends task (.value value) state).Bare) :
      Orderly (.ends task (.value value) state ::
        .ends inner (.value (.returned value)) state :: visits)

namespace Orderly

variable {visits earlier later : List Visit} {visit : Visit} {task : Task} {value : Value}
variable {state : State}

theorem of_cons (orderly : Orderly (visit :: visits)) : Orderly visits := by
  cases orderly <;> assumption

theorem of_append (orderly : Orderly (later ++ earlier)) : Orderly earlier := by
  induction later with
  | nil => exact orderly
  | cons visit later ih => exact ih orderly.of_cons

theorem not_bare : ¬(Value.returned value).Bare := fun bare => nomatch bare _ .whole

/-- After a task has ended with a wrapped value. -/
theorem next (orderly : Orderly
      (visit :: .ends task (.value (.returned value)) state :: visits)) :
    ∃ outer around, (underway visits).tail = outer :: around ∧
      ((outer.isCall = true ∧ visit = .ends outer (.value value) state) ∨
        outer.isCall = false ∧ visit = .ends outer (.value (.returned value)) state) := by
  cases orderly with
  | begins _ still _ => exact absurd (still _ rfl) (by simp [Visit.wraps, Value.wrapped])
  | ends _ still _ => exact absurd (still _ rfl) (by simp [Visit.wraps, Value.wrapped])
  | gives _ still _ _ => exact absurd (still _ rfl) (by simp [Visit.wraps, Value.wrapped])
  | @passes _ outer around _ _ _ _ same out =>
    refine ⟨outer, around, same, .inr ⟨?_, rfl⟩⟩
    cases outer with
    | application => cases out
    | _ => rfl
  | @arrives _ outer around _ _ _ _ same call => exact ⟨outer, around, same, .inl ⟨call, rfl⟩⟩

/-- A value that is not bare is the wrapped one that is on its way out. -/
theorem of_ends (orderly : Orderly (.ends task (.value value) state :: visits)) : value.Bare ∨
    ∃ inner, value = .returned inner ∧ inner.Bare ∧ task.LetsOut (underway visits).tail := by
  generalize whole : .ends task (.value value) state :: visits = history at orderly
  induction orderly generalizing task value state visits with
  | start | begins => cases whole
  | ends _ _ bare =>
    cases whole
    exact .inl (bare.values _ List.mem_cons_self)
  | gives _ _ bare =>
    cases whole
    exact .inr ⟨_, rfl, bare, trivial⟩
  | passes _ same out ih =>
    cases whole
    obtain bare | ⟨inner, wrapped, bare, -⟩ := ih rfl
    · exact absurd bare not_bare
    · cases wrapped
      refine .inr ⟨_, rfl, bare, ?_⟩
      change Task.LetsOut _ (List.tail (List.tail _))
      rw [same]
      exact out
  | arrives _ _ _ bare =>
    cases whole
    exact .inl (bare.values _ List.mem_cons_self)

/-- What is bound, and what is handed over where a task begins. -/
theorem bare (orderly : Orderly visits) :
    ∀ visit ∈ visits, visit.state.store.Holds Value.Bare ∧
      ∀ task state, visit = .begins task state → ∀ value ∈ task.values, value.Bare := by
  induction orderly with
  | start => exact fun _ member => absurd member List.not_mem_nil
  | begins _ _ bare ih =>
    refine List.forall_mem_cons.mpr ⟨⟨bare.store, ?_⟩, ih⟩
    rintro task state ⟨⟩
    exact bare.values
  | ends _ _ bare ih => exact List.forall_mem_cons.mpr ⟨⟨bare.store, nofun⟩, ih⟩
  | gives _ _ _ store ih => exact List.forall_mem_cons.mpr ⟨⟨store, nofun⟩, ih⟩
  | passes _ _ _ ih | arrives _ _ _ _ ih =>
    have here := (ih _ List.mem_cons_self).1
    exact List.forall_mem_cons.mpr ⟨⟨here, nofun⟩, ih⟩

/-- By induction on what comes after. -/
theorem wayOut_of_wrapped {after : List Visit} (orderly : Orderly
      (after.reverse ++ .ends task (.value (.returned value)) state :: earlier))
    (done : underway
      (after.reverse ++ .ends task (.value (.returned value)) state :: earlier) = []) :
    wayOut value state (underway earlier).tail <+: after ∧
      ((∀ outer ∈ (underway earlier).tail, outer.isCall = false) →
        after = wayOut value state (underway earlier).tail ∧
        ∃ outer, (after.reverse ++ .ends task (.value (.returned value)) state :: earlier).head? =
          some (.ends outer (.value (.returned value)) state)) := by
  induction after generalizing task earlier with
  | nil =>
    have nothing : (underway earlier).tail = [] := done
    rw [nothing]
    exact ⟨List.nil_prefix, fun _ => ⟨rfl, task, rfl⟩⟩
  | cons visit after ih =>
    rw [List.reverse_cons, List.append_assoc, List.singleton_append] at orderly done ⊢
    obtain ⟨outer, around, same, ⟨call, rfl⟩ | ⟨other, rfl⟩⟩ := (of_append orderly).next
    · rw [same]
      constructor
      · simp [wayOut, call]
      · intro none
        exact absurd call (by simp [none outer List.mem_cons_self])
    · have further := ih orderly done
      have rest :
          (underway (.ends task (.value (.returned value)) state :: earlier)).tail = around :=
        congrArg List.tail same
      rw [rest] at further
      rw [same]
      refine ⟨?_, fun none => ?_⟩
      · simpa [wayOut, other] using further.1
      · obtain ⟨left, last⟩ := further.2 (List.forall_mem_cons.mp none).2
        refine ⟨?_, last⟩
        simp only [wayOut, other]
        rw [← left]
        rfl

end Orderly
end Monkey

import Monkey.Proofs.Histories
import Monkey.Proofs.Laws
import Monkey.Proofs.Literals

/-!
Rules. A rule says what every part of every value is like that an evaluation comes upon: that it
computes, binds, passes to a function or gives back. It may depend on the moment, that is on what
the evaluation has gone through so far. When every single step conforms to a rule, so does every
evaluation.
-/

namespace Monkey

open Evaluation Watched Value

/-- The state after a scope has been opened with some names bound in it. -/
def State.entered (state : State) (parent : Nat) (bindings : List (String × Value)) : State :=
  { state with
    store := (state.store.opened (some parent)).bindAll state.store.size bindings }

theorem State.size_entered (state : State) (parent : Nat) (bindings : List (String × Value)) :
    (state.entered parent bindings).store.size = state.store.size + 1 :=
  (Store.size_bindAll _ _ bindings).trans (Store.size_opened _ _)

namespace Watched.Leads

/-- The same evaluation, with less said about where it is cut short. -/
theorem recut {α : Type} {cut further : Stop → Watch → Prop} {watched : Watched α} {watch : Watch}
    {good : α → Watch → Prop} (leads : Leads cut watched watch good)
    (cuts : ∀ stop later, cut stop later → further stop later) :
    Leads further watched watch good := by
  unfold Leads at leads ⊢
  cases outcome : watched watch with
  | ok value later =>
    rw [outcome] at leads
    exact leads
  | error stop later =>
    rw [outcome] at leads
    exact cuts stop later leads

end Watched.Leads

/-- What is to hold at the moments of an evaluation and of the values at hand. -/
structure Rule where
  /-- The integers that may stand in trees. -/
  fits : Int → Prop
  /-- What holds at a moment. -/
  kept : Watch → Prop
  /-- How a moment is related to those after it. -/
  lasts : Watch → Watch → Prop
  /-- What the parts of values are like. -/
  good : Value → Watch → Prop
  /-- The scopes that trees may be evaluated in. -/
  stands : Nat → Watch → Prop

namespace Rule

/-- All parts of a value are good. -/
def Fine (rule : Rule) (value : Value) (watch : Watch) : Prop := value.Each (rule.good · watch)

/-- What is bound is fine too. -/
def Holds (rule : Rule) (watch : Watch) : Prop :=
  rule.kept watch ∧ watch.state.store.Holds (rule.Fine · watch)

def Steps (rule : Rule) (watch later : Watch) : Prop := rule.lasts watch later ∧ rule.kept later

def Admits (rule : Rule) (integers : List (Token × Int)) : Prop :=
  ∀ pair ∈ integers, rule.fits pair.2

/-- From a moment at which the rule holds, the evaluation gets to a later such moment with a good
value, or is cut short at one. -/
def Keeps {α : Type} (rule : Rule) (watched : Watched α) (watch : Watch)
    (good : α → Watch → Prop) : Prop :=
  rule.Holds watch → watched.Leads (fun _ later => rule.lasts watch later ∧ rule.Holds later) watch
    fun value later => (rule.lasts watch later ∧ rule.Holds later) ∧ good value later

/-- A rule that the steps between visits conform to. -/
structure Steady (rule : Rule) : Prop where
  refl : ∀ watch, rule.lasts watch watch
  trans : ∀ {first second third}, rule.lasts first second → rule.lasts second third →
    rule.lasts first third
  good_lasts : ∀ {value watch later}, rule.good value watch → rule.lasts watch later →
    rule.good value later
  mild : ∀ watch, Mild (rule.good · watch)
  /-- The length of a value that was handed over. -/
  length : ∀ {arguments value watch state},
    Visit.begins (.application (.builtin .len) arguments) state ∈ watch.visits →
    Builtin.length arguments = .ok value → rule.good value watch
  /-- What is printed or followed does not matter. -/
  quiet : ∀ {watch} output trace, rule.kept watch →
    rule.Steps watch ⟨⟨watch.state.store, output, trace⟩, watch.visits⟩
  assign : ∀ {value watch} scope name, rule.kept watch → rule.Fine value watch → rule.Steps watch
    ⟨{ watch.state with store := watch.state.store.bind scope name value }, watch.visits⟩
  enter : ∀ {bindings : List (String × Value)} {parent watch}, rule.kept watch →
    rule.stands parent watch → (∀ binding ∈ bindings, rule.Fine binding.2 watch) →
      rule.Steps watch ⟨watch.state.entered parent bindings, watch.visits⟩ ∧
        rule.stands watch.state.store.size ⟨watch.state.entered parent bindings, watch.visits⟩

/-- A rule that all single steps conform to, visits and what trees make out of nothing too. -/
structure Stable (rule : Rule) : Prop extends rule.Steady where
  begins : ∀ {watch} task, rule.Holds watch → (∀ value ∈ task.values, rule.Fine value watch) →
    (∀ scope ∈ task.scope?, rule.stands scope watch) →
      rule.Steps watch (watch.note (.begins task watch.state))
  ends : ∀ {watch value} task, rule.Holds watch → (∀ value ∈ task.values, rule.Fine value watch) →
    rule.Fine value watch → rule.Steps watch (watch.note (.ends task (.value value) watch.state))
  cuts : ∀ {watch} task (stop : Stop), rule.Holds watch →
    (∀ value ∈ task.values, rule.Fine value watch) →
      rule.Steps watch (watch.note (.ends task stop.ending watch.state))
  stands_lasts : ∀ {scope watch later}, rule.stands scope watch → rule.lasts watch later →
    rule.stands scope later
  literal : ∀ {value} watch, rule.fits value → rule.good (.integer value) watch
  returned : ∀ value watch, rule.good (.returned value) watch
  function : ∀ {parameters body scope watch}, rule.Admits body.integers → rule.stands scope watch →
    rule.good (.function parameters body scope) watch
  opens : ∀ {parameters body scope watch}, rule.good (.function parameters body scope) watch →
    rule.Admits body.integers ∧ rule.stands scope watch

theorem admits_append {rule : Rule} {first second : List (Token × Int)} :
    rule.Admits (first ++ second) ↔ rule.Admits first ∧ rule.Admits second :=
  List.forall_mem_append

namespace Steady

variable {rule : Rule} (steady : rule.Steady) {α β : Type} {watch later : Watch}
include steady

theorem fine_lasts {value : Value} (fine : rule.Fine value watch) (lasts : rule.lasts watch later) :
    rule.Fine value later := fine.mono fun _ good => steady.good_lasts good lasts

theorem all_lasts {values : List Value} (fine : ∀ value ∈ values, rule.Fine value watch)
    (lasts : rule.lasts watch later) : ∀ value ∈ values, rule.Fine value later :=
  fun value member => steady.fine_lasts (fine value member) lasts

theorem store_lasts (holds : rule.Holds watch) (lasts : rule.lasts watch later) :
    watch.state.store.Holds (rule.Fine · later) :=
  fun scope opened binding member => steady.fine_lasts (holds.2 scope opened binding member) lasts

/-- A step that leaves the store as it is. -/
theorem holds_of_steps (holds : rule.Holds watch) (steps : rule.Steps watch later)
    (same : later.state.store = watch.state.store) : rule.Holds later :=
  ⟨steps.2, same ▸ steady.store_lasts holds steps.1⟩

theorem pure {value : α} {good : α → Watch → Prop} (fine : good value watch) :
    rule.Keeps (Pure.pure value) watch good :=
  fun holds => ⟨⟨steady.refl watch, holds⟩, fine⟩

theorem throw {good : α → Watch → Prop} (stop : Stop) :
    rule.Keeps (MonadExcept.throw stop : Watched α) watch good :=
  fun holds => ⟨steady.refl watch, holds⟩

theorem bind {first : Watched α} {next : α → Watched β} {good : α → Watch → Prop}
    {better : β → Watch → Prop} (start : rule.Keeps first watch good)
    (others : ∀ value later, rule.lasts watch later → good value later →
      rule.Keeps (next value) later better) : rule.Keeps (first >>= next) watch better := by
  intro holds
  apply (start holds).bind
  intro value later reached
  obtain ⟨⟨lasts, holds⟩, fine⟩ := reached
  have ran := others value later lasts fine holds
  apply (ran.recut fun stop last reached => ⟨steady.trans lasts reached.1, reached.2⟩).mono
  intro result last reached
  exact ⟨⟨steady.trans lasts reached.1.1, reached.1.2⟩, reached.2⟩

theorem null_fine : rule.Fine .null watch := each_of_atom rfl (steady.mild watch).null

theorem closed (watch : Watch) : Closed (Each (rule.good · watch)) :=
  have := steady.mild watch
  inferInstance

/-! Steps that only use the state. -/

theorem follows (event : Event) : rule.Keeps (plainly (Evaluation.follow event)) watch
    fun _ later => later.visits = watch.visits := by
  intro holds
  have steps := steady.quiet watch.state.output (watch.state.trace.follow event) holds.1
  exact ⟨⟨steps.1, steady.holds_of_steps holds steps rfl⟩, rfl⟩

theorem prints (line : String) :
    rule.Keeps (plainly (Evaluation.print line)) watch fun _ _ => True := by
  intro holds
  have steps := steady.quiet (line :: watch.state.output) watch.state.trace holds.1
  exact ⟨⟨steps.1, steady.holds_of_steps holds steps rfl⟩, trivial⟩

theorem assigns {value : Value} (scope : Nat) (name : String) (fine : rule.Fine value watch) :
    rule.Keeps (plainly (Evaluation.bind scope name value)) watch fun _ _ => True := by
  intro holds
  have steps := steady.assign scope name holds.1 fine
  have store := (steady.store_lasts holds steps.1).bind scope name (steady.fine_lasts fine steps.1)
  exact ⟨⟨steps.1, steps.2, store⟩, trivial⟩

theorem enters {bindings : List (String × Value)} {parent : Nat} (stands : rule.stands parent watch)
    (fine : ∀ binding ∈ bindings, rule.Fine binding.2 watch) :
    rule.Keeps (plainly (Evaluation.enter (some parent) bindings)) watch rule.stands := by
  intro holds
  obtain ⟨steps, stands⟩ := steady.enter holds.1 stands fine
  have store := ((steady.store_lasts holds steps.1).opened (some parent)).bindAll
    watch.state.store.size fun binding member => steady.fine_lasts (fine binding member) steps.1
  exact ⟨⟨steps.1, steps.2, store⟩, stands⟩

theorem faults {good : α → Watch → Prop} (cause : Fault) :
    rule.Keeps (plainly (fault cause : Evaluation α)) watch good :=
  fun holds => ⟨steady.refl watch, holds⟩

theorem settles {value : Value} (fine : rule.Fine value watch) :
    rule.Keeps (plainly (settle value)) watch rule.Fine := by
  intro holds
  cases value with
  | error message => exact ⟨steady.refl watch, holds⟩
  | _ => exact ⟨⟨steady.refl watch, holds⟩, fine⟩

theorem answers {result : Except Fault Value}
    (fine : ∀ value, result = .ok value → rule.Fine value watch) :
    rule.Keeps (plainly (answer result)) watch rule.Fine := by
  cases result with
  | ok value => exact steady.settles (fine value rfl)
  | error cause => exact steady.faults cause

theorem resolves (scope : Nat) (name : String) :
    rule.Keeps (plainly (resolve scope name)) watch rule.Fine := by
  intro holds
  unfold resolve
  apply Leads.get
  split
  · rename_i value found
    exact steady.settles (holds.2.find? found) holds
  · split
    · rename_i builtin named
      exact steady.pure (each_of_atom rfl ((steady.mild watch).builtin builtin)) holds
    · exact steady.faults _ holds

theorem printsAll (values : List Value) :
    rule.Keeps (plainly (Builtin.printAll values)) watch fun _ _ => True := by
  induction values generalizing watch with
  | nil => exact steady.pure trivial
  | cons value others ih =>
    unfold Builtin.printAll
    rw [plainly_bind]
    exact steady.bind (steady.prints value.inspect) fun _ _ _ _ => ih

theorem applies (builtin : Builtin) {arguments : List Value} {state : State}
    (fine : ∀ value ∈ arguments, rule.Fine value watch)
    (noted : Visit.begins (.application (.builtin builtin) arguments) state ∈ watch.visits) :
    rule.Keeps (plainly (builtin.apply arguments)) watch rule.Fine := by
  have closed := steady.closed watch
  have parts : ∀ value ∈ arguments, value.Each (rule.good · watch) := fine
  cases builtin with
  | len =>
    refine steady.answers fun value same => ?_
    have good := steady.length noted same
    obtain ⟨_, _, rfl⟩ | ⟨_, _, rfl⟩ := Builtin.exists_of_length same <;>
      exact each_of_atom rfl good
  | push => exact steady.answers fun value => Builtin.closed_pushed parts
  | puts =>
    unfold Builtin.apply
    rw [plainly_bind]
    exact steady.bind (steady.printsAll arguments) fun _ _ _ _ => steady.pure steady.null_fine
  | first =>
    refine steady.answers fun value => Builtin.closed_map parts fun values fine => ?_
    exact Closed.getD_null fun value found => fine value (List.mem_of_head? found)
  | last =>
    refine steady.answers fun value => Builtin.closed_map parts fun values fine => ?_
    exact Closed.getD_null fun value found => fine value (List.mem_of_getLast? found)
  | rest =>
    refine steady.answers fun value => Builtin.closed_map parts fun values fine => ?_
    cases values with
    | nil => exact steady.null_fine
    | cons value values =>
      exact Closed.array fun other member => fine other (List.mem_cons_of_mem _ member)

end Steady

namespace Stable

variable {rule : Rule} (stable : rule.Stable) {watch : Watch}
include stable

theorem visit {watched : Watched Value} {task : Task}
    (given : ∀ value ∈ task.values, rule.Fine value watch)
    (standing : ∀ scope ∈ task.scope?, rule.stands scope watch)
    (inner : ∀ later, rule.lasts watch later → Visit.begins task watch.state ∈ later.visits →
      rule.Keeps watched later rule.Fine) :
    rule.Keeps (Watched.visit task watched) watch rule.Fine := by
  intro holds
  have begun := stable.begins task holds given standing
  have ran := inner _ begun.1 (List.mem_cons_self ..) (stable.holds_of_steps holds begun rfl)
  apply ran.visit
  · intro value later reached
    obtain ⟨⟨lasts, holds⟩, fine⟩ := reached
    have lasts := stable.trans begun.1 lasts
    have ended := stable.ends task holds (stable.all_lasts given lasts) fine
    exact ⟨⟨stable.trans lasts ended.1, stable.holds_of_steps holds ended rfl⟩,
      stable.fine_lasts fine ended.1⟩
  · intro stop later reached
    obtain ⟨lasts, holds⟩ := reached
    have lasts := stable.trans begun.1 lasts
    have ended := stable.cuts task stop holds (stable.all_lasts given lasts)
    exact ⟨stable.trans lasts ended.1, stable.holds_of_steps holds ended rfl⟩

/-- A task in a scope that trees may be evaluated in. -/
theorem visit_within {watched : Watched Value} {task : Task} {scope : Nat}
    (stands : rule.stands scope watch) (within : task.scope? = some scope)
    (inner : ∀ later, rule.stands scope later → rule.Keeps watched later rule.Fine) :
    rule.Keeps (Watched.visit task watched) watch rule.Fine := by
  refine stable.visit (fun value member => ?_) (fun other same => ?_) fun later lasts _ =>
    inner later (stable.stands_lasts stands lasts)
  · rw [Task.values_of_scope? within] at member
    exact absurd member List.not_mem_nil
  · obtain rfl := Option.some.inj (within.symm.trans same)
    exact stands

end Stable
end Rule

/-! The induction over the syntax. A call is taken to keep the rule. -/

section
variable {rule : Rule} (stable : rule.Stable) {watching : Value → List Value → Watched Value}
variable (calls : ∀ callee arguments watch, rule.Fine callee watch →
  (∀ value ∈ arguments, rule.Fine value watch) →
    rule.Keeps (visit (.application callee arguments) (watching callee arguments)) watch rule.Fine)
variable (scope : Nat)
include stable calls

set_option linter.unusedSectionVars false

mutual

theorem Expr.conforms : ∀ (expr : Expr) (watch : Watch), rule.Admits expr.integers →
    rule.stands scope watch → rule.Keeps (expr.watch watching scope) watch rule.Fine
  | .identifier name, _, _, _ => stable.resolves scope name.name
  | .integer token value, watch, fits, _ =>
    stable.pure (each_of_atom rfl (stable.literal watch (fits (token, value) List.mem_cons_self)))
  | .boolean _ value, watch, _, _ =>
    stable.pure (each_of_atom rfl ((stable.mild watch).boolean value))
  | .string _ value, watch, _, _ =>
    stable.pure (each_of_atom rfl ((stable.mild watch).string value))
  | .unary _ operator right, _, fits, stands => by
    apply stable.bind (stable.visit_within stands rfl fun later => Expr.conforms right later fits)
    intro value later _ fine
    have closed := stable.closed later
    exact stable.answers fun _ => Value.closed_unary
  | .binary _ left operator right, _, fits, stands => by
    obtain ⟨lefts, rights⟩ := Rule.admits_append.mp fits
    apply stable.bind (stable.visit_within stands rfl fun later => Expr.conforms left later lefts)
    intro left middle lasts fine
    apply stable.bind (stable.visit_within (stable.stands_lasts stands lasts) rfl fun later =>
      Expr.conforms right later rights)
    intro right later lasts' fine'
    have closed := stable.closed later
    exact stable.answers fun _ => Value.closed_binary
  | .conditional _ condition consequence alternative, _, fits, stands => by
    obtain ⟨fits, alternatives⟩ := Rule.admits_append.mp fits
    obtain ⟨conditions, consequences⟩ := Rule.admits_append.mp fits
    apply stable.bind (stable.visit_within stands rfl fun later =>
      Expr.conforms condition later conditions)
    intro value middle lasts _
    apply stable.bind (stable.follows (.condition value))
    intro _ later lasts' _
    have stands := stable.stands_lasts stands (stable.trans lasts lasts')
    split
    · exact stable.visit_within stands rfl fun later =>
        Block.conforms false consequence later consequences
    · exact Block.conformsAlternative alternative later alternatives stands
  | .function _ parameters body, _, fits, stands =>
    stable.pure (each_of_atom rfl (stable.function fits stands))
  | .call _ callee arguments, _, fits, stands => by
    obtain ⟨callees, others⟩ := Rule.admits_append.mp fits
    apply stable.bind (stable.visit_within stands rfl fun later =>
      Expr.conforms callee later callees)
    intro callee middle lasts fine
    apply stable.bind (Expr.conformsAll arguments middle others (stable.stands_lasts stands lasts))
    intro arguments later lasts all
    exact calls callee arguments later (stable.fine_lasts fine lasts) all
  | .array _ elements, watch, fits, stands => by
    apply stable.bind (Expr.conformsAll elements watch fits stands)
    intro values later _ all
    exact stable.pure (Each.array_iff.mpr ⟨(stable.mild later).array values, all⟩)
  | .hash _ pairs, watch, fits, stands => by
    apply stable.bind (Expr.conformsPairs [] pairs watch (fun _ member =>
      absurd member List.not_mem_nil) fits stands)
    intro entries later _ all
    exact stable.pure (Each.hash_iff.mpr ⟨(stable.mild later).hash entries, all⟩)
  | .index _ left position, _, fits, stands => by
    obtain ⟨lefts, positions⟩ := Rule.admits_append.mp fits
    apply stable.bind (stable.visit_within stands rfl fun later => Expr.conforms left later lefts)
    intro left middle lasts fine
    apply stable.bind (stable.visit_within (stable.stands_lasts stands lasts) rfl fun later =>
      Expr.conforms position later positions)
    intro position later lasts' fine'
    have closed := stable.closed later
    exact stable.answers fun _ => Value.closed_index (stable.fine_lasts fine lasts')
  | .slice _ left lower upper, _, fits, stands => by
    obtain ⟨fits, uppers⟩ := Rule.admits_append.mp fits
    obtain ⟨lefts, lowers⟩ := Rule.admits_append.mp fits
    apply stable.bind (stable.visit_within stands rfl fun later => Expr.conforms left later lefts)
    intro left first lasts fine
    have stands := stable.stands_lasts stands lasts
    apply stable.bind (Expr.conformsBound lower first lowers stands)
    intro lower second lasts' _
    apply stable.bind (Expr.conformsBound upper second uppers (stable.stands_lasts stands lasts'))
    intro upper later lasts'' _
    have closed := stable.closed later
    exact stable.answers fun _ =>
      Value.closed_slice (stable.fine_lasts fine (stable.trans lasts' lasts''))
  | .unknown, _, _, _ => stable.throw _

theorem Expr.conformsBound : ∀ (bound : Option Expr) (watch : Watch),
    rule.Admits (Expr.valueIntegers bound) → rule.stands scope watch →
      rule.Keeps (Expr.watchBound watching scope bound) watch fun _ _ => True
  | none, _, _, _ => stable.pure trivial
  | some bound, _, fits, stands => by
    apply stable.bind (stable.visit_within stands rfl fun later => Expr.conforms bound later fits)
    intro value later _ _
    exact stable.pure trivial

theorem Expr.conformsAll : ∀ (list : List Expr) (watch : Watch),
    rule.Admits (Expr.allIntegers list) → rule.stands scope watch →
      rule.Keeps (Expr.watchAll watching scope list) watch
        fun values later => ∀ value ∈ values, rule.Fine value later
  | [], _, _, _ => stable.pure fun _ member => absurd member List.not_mem_nil
  | expr :: rest, _, fits, stands => by
    obtain ⟨first, others⟩ := Rule.admits_append.mp fits
    apply stable.bind (stable.visit_within stands rfl fun later => Expr.conforms expr later first)
    intro value middle lasts fine
    apply stable.bind (Expr.conformsAll rest middle others (stable.stands_lasts stands lasts))
    intro values later lasts all
    exact stable.pure (List.forall_mem_cons.mpr ⟨stable.fine_lasts fine lasts, all⟩)

theorem Expr.conformsPairs (entries : List (Entry Value)) :
    ∀ (list : List (Expr × Expr)) (watch : Watch),
      (∀ entry ∈ entries, rule.Fine entry.key watch ∧ rule.Fine entry.value watch) →
      rule.Admits (Expr.pairsIntegers list) → rule.stands scope watch →
        rule.Keeps (Expr.watchPairs watching scope entries list) watch fun entries later =>
          ∀ entry ∈ entries, rule.Fine entry.key later ∧ rule.Fine entry.value later
  | [], _, all, _, _ => stable.pure all
  | (key, value) :: rest, _, all, fits, stands => by
    obtain ⟨fits, others⟩ := Rule.admits_append.mp fits
    obtain ⟨keys, values⟩ := Rule.admits_append.mp fits
    apply stable.bind (stable.visit_within stands rfl fun later => Expr.conforms key later keys)
    intro key middle lasts fine
    cases key.hashKey? with
    | none => exact stable.faults _
    | some hashKey =>
      have stands := stable.stands_lasts stands lasts
      apply stable.bind (stable.visit_within stands rfl fun later =>
        Expr.conforms value later values)
      intro value later lasts' fine'
      apply Expr.conformsPairs _ rest later _ others (stable.stands_lasts stands lasts')
      intro entry member
      rcases Entry.value_of_mem_insert member with rfl | member
      · exact ⟨stable.fine_lasts fine lasts', fine'⟩
      · have whole := stable.trans lasts lasts'
        exact ⟨stable.fine_lasts (all entry member).1 whole,
          stable.fine_lasts (all entry member).2 whole⟩

theorem Statement.conforms : ∀ (statement : Statement) (watch : Watch),
    rule.Admits statement.integers → rule.stands scope watch →
      rule.Keeps (statement.watch watching scope) watch rule.Fine
  | .binding _ name value, watch, fits, stands => by
    apply stable.bind (Expr.conformsOrNull value watch fits stands)
    intro value first _ fine
    apply stable.bind (stable.assigns scope name.name fine)
    intro _ second _ _
    apply stable.bind (stable.follows (.binding name.name value))
    intro _ later _ _
    exact stable.pure stable.null_fine
  | .giveBack _ value, watch, fits, stands => by
    apply stable.bind (Expr.conformsOrNull value watch fits stands)
    intro value later _ fine
    exact stable.pure (Each.returned_iff.mpr ⟨stable.returned value later, fine⟩)
  | .expression _ value, watch, fits, stands => Expr.conformsOrNull value watch fits stands
  | .block body, _, fits, stands =>
    stable.visit_within stands rfl fun later => Block.conforms false body later fits

theorem Expr.conformsOrNull : ∀ (value : Option Expr) (watch : Watch),
    rule.Admits (Expr.valueIntegers value) → rule.stands scope watch →
      rule.Keeps (Expr.watchOrNull watching scope value) watch rule.Fine
  | none, _, _, _ => stable.pure stable.null_fine
  | some expr, _, fits, stands =>
    stable.visit_within stands rfl fun later => Expr.conforms expr later fits

theorem Statement.conformsAll (direct : Bool) (last : Value) :
    ∀ (list : List Statement) (watch : Watch), rule.Fine last watch →
      rule.Admits (Statement.allIntegers list) → rule.stands scope watch →
        rule.Keeps (Statement.watchAll watching scope direct last list) watch rule.Fine
  | [], _, fine, _, _ => stable.pure fine
  | statement :: rest, _, _, fits, stands => by
    obtain ⟨first, others⟩ := Rule.admits_append.mp fits
    apply stable.bind (stable.visit_within stands rfl fun later =>
      Statement.conforms statement later first)
    intro value later lasts fine
    have further := fun last fine => Statement.conformsAll direct last rest later fine others
      (stable.stands_lasts stands lasts)
    cases value with
    | returned value => exact stable.pure fine
    | _ => exact further _ fine

theorem Block.conforms (direct : Bool) : ∀ (block : Block) (watch : Watch),
    rule.Admits block.integers → rule.stands scope watch →
      rule.Keeps (block.watch watching scope direct) watch rule.Fine
  | ⟨_, statements⟩, watch, fits, stands =>
    Statement.conformsAll direct .null statements watch stable.null_fine fits stands

theorem Block.conformsAlternative : ∀ (block : Option Block) (watch : Watch),
    rule.Admits (Block.alternativeIntegers block) → rule.stands scope watch →
      rule.Keeps (Block.watchAlternative watching scope block) watch rule.Fine
  | none, _, _, _ => stable.pure stable.null_fine
  | some block, _, fits, stands =>
    stable.visit_within stands rfl fun later => Block.conforms false block later fits

end

end

def Node.integers : Node → List (Token × Int)
  | .program tree => Holding.integers tree
  | .statement tree => tree.integers
  | .expression tree => tree.integers

section
variable {rule : Rule} (stable : rule.Stable)
include stable

/-- A call conforms if the calls in it do. -/
theorem watchWithin_conforms (depth : Nat) (calls : ∀ less, depth = less + 1 →
      ∀ callee arguments watch, rule.Fine callee watch →
        (∀ value ∈ arguments, rule.Fine value watch) → rule.Keeps
          (visit (.application callee arguments) (watchWithin less callee arguments)) watch
          rule.Fine)
    (callee : Value) (arguments : List Value) (watch : Watch) (fine : rule.Fine callee watch)
    (all : ∀ value ∈ arguments, rule.Fine value watch) :
    rule.Keeps (visit (.application callee arguments) (watchWithin depth callee arguments)) watch
      rule.Fine := by
  have given : ∀ value ∈ (Task.application callee arguments).values, rule.Fine value watch :=
    List.forall_mem_cons.mpr ⟨fine, all⟩
  apply stable.visit given nofun
  intro later lasts noted
  have fine := stable.fine_lasts fine lasts
  have all := stable.all_lasts all lasts
  cases callee with
  | function parameters body scope =>
    unfold watchWithin
    split
    · exact stable.faults _
    cases depth with
    | zero => exact stable.throw _
    | succ depth =>
      obtain ⟨fits, stands⟩ := stable.opens (fine _ .whole)
      apply stable.bind (stable.follows (.call (.function parameters body scope) arguments))
      intro _ first lasts _
      apply stable.bind (stable.enters (stable.stands_lasts stands lasts) fun binding member =>
        stable.fine_lasts (all _ (List.of_mem_zip member).2) lasts)
      intro inner second _ stands
      apply stable.bind (stable.visit_within stands rfl fun later =>
        Block.conforms stable (calls depth rfl) inner true body later fits)
      intro result third _ fine
      exact stable.settles fine.unwrapped
  | builtin builtin =>
    unfold watchWithin
    apply stable.bind (stable.follows (.builtinCall builtin arguments))
    intro _ last lasts same
    exact stable.applies builtin (stable.all_lasts all lasts) (same ▸ noted)
  | _ =>
    unfold watchWithin
    exact stable.faults _

/-- By induction on how deep calls may nest. -/
theorem application_conforms (depth : Nat) (callee : Value) (arguments : List Value)
    (watch : Watch) (fine : rule.Fine callee watch)
    (all : ∀ value ∈ arguments, rule.Fine value watch) :
    rule.Keeps (visit (.application callee arguments) (watchWithin depth callee arguments)) watch
      rule.Fine := by
  induction depth generalizing callee arguments watch with
  | zero =>
    exact watchWithin_conforms stable 0 (fun _ impossible => nomatch impossible) _ _ _ fine all
  | succ depth ih =>
    refine watchWithin_conforms stable (depth + 1) (fun less same => ?_) _ _ _ fine all
    obtain rfl := Nat.succ.inj same
    exact ih

theorem Program.conforms (depth scope : Nat) (program : Program) (watch : Watch)
    (fits : rule.Admits (integers program)) (stands : rule.stands scope watch) :
    rule.Keeps (program.watch depth scope) watch rule.Fine := by
  apply stable.bind (Statement.conformsAll stable (application_conforms stable depth) scope true
    .null program.statements watch stable.null_fine fits stands)
  intro result later _ fine
  exact stable.pure fine.unwrapped

theorem Node.conforms (depth scope : Nat) (node : Node) (watch : Watch)
    (fits : rule.Admits node.integers) (stands : rule.stands scope watch) :
    rule.Keeps (node.watch depth scope) watch rule.Fine := by
  have calls := application_conforms stable depth
  cases node with
  | program tree => exact tree.conforms stable depth scope watch fits stands
  | statement tree => exact tree.conforms stable calls scope watch fits stands
  | expression tree => exact tree.conforms stable calls scope watch fits stands

/-- Where an evaluation ends. An error is not taken for a value here. -/
theorem Node.exists_final (depth scope : Nat) (node : Node) (state : State)
    (fits : rule.Admits node.integers) (holds : rule.Holds ⟨state, []⟩)
    (stands : rule.stands scope ⟨state, []⟩) :
    ∃ final : Watch, rule.lasts ⟨state, []⟩ final ∧ rule.Holds final ∧
      node.visits depth scope state = final.visits.reverse ∧
      ((node.evaluate depth scope).finish state).2 = final.state ∧
      ∀ value, ((node.evaluate depth scope).finish state).1 = .value value →
        value.isError = false → rule.Fine value final := by
  have ran := node.conforms stable depth scope ⟨state, []⟩ fits stands holds
  have plain := node.forgets depth scope ⟨state, []⟩
  unfold Leads at ran
  unfold Node.visits Evaluation.finish
  rw [← plain]
  cases outcome : node.watch depth scope ⟨state, []⟩ with
  | ok value final =>
    rw [outcome] at ran
    obtain ⟨⟨lasts, holds⟩, fine⟩ := ran
    refine ⟨final, lasts, holds, by rw [leaves_of_ok outcome], rfl, fun result same _ => ?_⟩
    cases same
    exact fine
  | error stop final =>
    rw [outcome] at ran
    refine ⟨final, ran.1, ran.2, by rw [leaves_of_error outcome], ?_, fun result same sound => ?_⟩
    · cases stop <;> rfl
    · cases stop <;> cases same
      cases sound

/-- Where a run of a session ends. -/
theorem Node.exists_conforming (depth : Nat) (node : Node) (session : Session)
    (fits : rule.Admits node.integers) (holds : rule.Holds ⟨session.state, []⟩)
    (stands : rule.stands Session.root ⟨session.state, []⟩) :
    ∃ final : Watch, rule.lasts ⟨session.state, []⟩ final ∧ rule.Holds final ∧
      node.visits depth Session.root session.state = final.visits.reverse ∧
      (session.run depth node).2.state = final.state ∧
      ∀ value, (session.run depth node).1 = .value value → value.isError = false →
        rule.Fine value final :=
  node.exists_final stable depth Session.root session.state fits holds stands

end

end Monkey

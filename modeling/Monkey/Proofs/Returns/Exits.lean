import Monkey.Proofs.Rules
import Monkey.Proofs.Returns
import Monkey.Proofs.Returns.Orderly

/-!
Clean exits. A `return` in a conditional gets out of it with a wrapped value. Where the conditional
is a statement, that ends the statements around it too; where it is an operand, the wrapped value is
computed with like any other. In a clean program every conditional with a `return` in it is a
statement. Then no wrapped value is ever computed with, and each `return` ends the call that it
stands in, or the program, with just its value.
-/

namespace Monkey

open Evaluation Watched Value

mutual

/-- A `return` stands in the tree, but not in a function literal. -/
def Expr.gives : Expr → Bool
  | .identifier _ | .integer _ _ | .boolean _ _ | .string _ _ | .function _ _ _ | .unknown => false
  | .unary _ _ right => right.gives
  | .binary _ left _ right => left.gives || right.gives
  | .conditional _ condition consequence alternative =>
    condition.gives || consequence.gives || Block.alternativeGives alternative
  | .call _ callee arguments => callee.gives || Expr.anyGives arguments
  | .array _ elements => Expr.anyGives elements
  | .hash _ pairs => Expr.pairsGive pairs
  | .index _ left position => left.gives || position.gives
  | .slice _ left lower upper => left.gives || Expr.valueGives lower || Expr.valueGives upper

def Expr.valueGives : Option Expr → Bool
  | none => false
  | some value => value.gives

def Expr.anyGives : List Expr → Bool
  | [] => false
  | expr :: rest => expr.gives || Expr.anyGives rest

def Expr.pairsGive : List (Expr × Expr) → Bool
  | [] => false
  | (key, value) :: rest => key.gives || value.gives || Expr.pairsGive rest

def Statement.gives : Statement → Bool
  | .giveBack _ _ => true
  | .binding _ _ value | .expression _ value => Expr.valueGives value
  | .block body => body.gives

def Statement.anyGives : List Statement → Bool
  | [] => false
  | statement :: rest => statement.gives || Statement.anyGives rest

def Block.gives : Block → Bool
  | ⟨_, statements⟩ => Statement.anyGives statements

def Block.alternativeGives : Option Block → Bool
  | none => false
  | some block => block.gives

end

mutual

/-- Every conditional with a `return` in one of its blocks is a statement, in function literals too.
The expression itself is one or not. -/
def Expr.clean (isStatement : Bool) : Expr → Bool
  | .identifier _ | .integer _ _ | .boolean _ _ | .string _ _ | .unknown => true
  | .unary _ _ right => right.clean false
  | .binary _ left _ right => left.clean false && right.clean false
  | .conditional _ condition consequence alternative =>
    (isStatement || !(consequence.gives || Block.alternativeGives alternative)) &&
      condition.clean false && consequence.clean && Block.alternativeClean alternative
  | .function _ _ body => body.clean
  | .call _ callee arguments => callee.clean false && Expr.allClean arguments
  | .array _ elements => Expr.allClean elements
  | .hash _ pairs => Expr.pairsClean pairs
  | .index _ left position => left.clean false && position.clean false
  | .slice _ left lower upper =>
    left.clean false && Expr.valueClean false lower && Expr.valueClean false upper

def Expr.valueClean (isStatement : Bool) : Option Expr → Bool
  | none => true
  | some value => value.clean isStatement

def Expr.allClean : List Expr → Bool
  | [] => true
  | expr :: rest => expr.clean false && Expr.allClean rest

def Expr.pairsClean : List (Expr × Expr) → Bool
  | [] => true
  | (key, value) :: rest => key.clean false && value.clean false && Expr.pairsClean rest

def Statement.clean : Statement → Bool
  | .binding _ _ value | .giveBack _ value => Expr.valueClean false value
  | .expression _ value => Expr.valueClean true value
  | .block body => body.clean

def Statement.allClean : List Statement → Bool
  | [] => true
  | statement :: rest => statement.clean && Statement.allClean rest

def Block.clean : Block → Bool
  | ⟨_, statements⟩ => Statement.allClean statements

def Block.alternativeClean : Option Block → Bool
  | none => true
  | some block => block.clean

end

def Program.clean (program : Program) : Bool := Statement.allClean program.statements

/-- Parts of values in a clean program: no wrapped value, no error, and functions with a clean
body. -/
def Value.Proper : Value → Prop
  | returned _ | error _ => False
  | function _ body _ => body.clean = true
  | _ => True

theorem Value.bare_of_proper {value : Value} (proper : value.Each Proper) : value.Bare := by
  refine Each.mono proper fun part fine => ?_
  cases part with
  | returned value => exact fine.elim
  | _ => rfl

/-- Where no wrapped value is at hand, the history is orderly and all values are proper. -/
def Rule.proper : Rule where
  fits _ := True
  kept watch := Orderly watch.visits ∧ Still watch.visits
  lasts watch later := underway later.visits = underway watch.visits
  good part _ := part.Proper
  stands _ _ := True

/-- The last task ended with a wrapped value, and no other part of a value is improper. -/
structure Watch.Leaving (watch : Watch) (value : Value) : Prop where
  orderly : Orderly watch.visits
  ended : ∃ task visits,
    watch.visits = .ends task (.value (.returned value)) watch.state :: visits
  proper : value.Each Proper
  store : watch.state.store.Holds (Each Proper)

namespace Rule

variable {watch : Watch} {value : Value} {task : Task}

theorem proper_steady : proper.Steady where
  refl _ := rfl
  trans first second := second.trans first
  good_lasts good _ := good
  mild _ := {
    integer := fun _ => trivial
    boolean := fun _ => trivial
    string := fun _ => trivial
    null := trivial
    array := fun _ => trivial
    hash := fun _ => trivial
    builtin := fun _ => trivial }
  length _ same := by
    obtain ⟨_, _, rfl⟩ | ⟨_, _, rfl⟩ := Builtin.exists_of_length same <;> trivial
  quiet _ _ kept := ⟨rfl, kept⟩
  assign _ _ kept _ := ⟨rfl, kept⟩
  enter kept _ _ := ⟨⟨rfl, kept⟩, trivial⟩

theorem bare_store (holds : proper.Holds watch) : watch.state.store.Holds Value.Bare :=
  fun scope opened binding member => bare_of_proper (holds.2 scope opened binding member)

/-- A visit with which no wrapped value is at hand. -/
theorem proper_note {visit : Visit} (holds : proper.Holds watch)
    (orderly : Orderly (visit :: watch.visits)) (plain : visit.wraps = false) :
    proper.Holds ⟨watch.state, visit :: watch.visits⟩ := by
  refine ⟨⟨orderly, fun _ member => ?_⟩, holds.2⟩
  cases member
  exact plain

theorem proper_begins (holds : proper.Holds watch) (given : ∀ value ∈ task.values, value.Bare) :
    proper.Holds (watch.note (.begins task watch.state)) :=
  proper_note holds (.begins holds.1.1 holds.1.2 ⟨given, bare_store holds⟩) rfl

theorem proper_ends (holds : proper.Holds watch) (fine : value.Each Proper) :
    proper.Holds (watch.note (.ends task (.value value) watch.state)) := by
  have bare := bare_of_proper fine
  refine proper_note holds (.ends holds.1.1 holds.1.2 ⟨?_, bare_store holds⟩) (bare _ .whole)
  exact List.forall_mem_singleton.mpr bare

theorem proper_cuts (holds : proper.Holds watch) (stop : Stop) :
    proper.Holds (watch.note (.ends task stop.ending watch.state)) := by
  have bare : ∀ value ∈ (Visit.ends task stop.ending watch.state).values, value.Bare := by
    intro value member
    obtain ⟨message, rfl⟩ := Visit.exists_error member
    exact each_of_atom rfl rfl
  refine proper_note holds (.ends holds.1.1 holds.1.2 ⟨bare, bare_store holds⟩) ?_
  cases stop <;> rfl

end Rule

open Rule (proper_steady)

namespace Watch.Leaving

variable {watch : Watch} {value : Value} {task : Task} {around : List Task}

/-- A `return` is where a value begins to leave. -/
theorem gives (holds : Rule.proper.Holds watch) (fine : value.Each Proper) (token : Token)
    (tree : Option Expr) (scope : Nat) (direct : Bool) :
    (watch.note (.ends (.statement (.giveBack token tree) scope direct) (.value (.returned value))
      watch.state)).Leaving value where
  orderly := .gives holds.1.1 holds.1.2 (bare_of_proper fine) (Rule.bare_store holds)
  ended := ⟨_, _, rfl⟩
  proper := fine
  store := holds.2

theorem passes (leaving : watch.Leaving value) (same : underway watch.visits = task :: around)
    (out : task.LetsOut around) :
    (watch.note (.ends task (.value (.returned value)) watch.state)).Leaving value := by
  obtain ⟨inner, visits, ended⟩ := leaving.ended
  have orderly := leaving.orderly
  rw [ended] at same orderly
  refine ⟨?_, ⟨_, _, rfl⟩, leaving.proper, leaving.store⟩
  change Orderly (_ :: watch.visits)
  rw [ended]
  exact .passes orderly same out

/-- The call gives just the value. -/
theorem arrives (leaving : watch.Leaving value) (same : underway watch.visits = task :: around)
    (call : task.isCall = true) :
    Rule.proper.Holds (watch.note (.ends task (.value value) watch.state)) := by
  obtain ⟨inner, visits, ended⟩ := leaving.ended
  have orderly := leaving.orderly
  have bare := bare_of_proper leaving.proper
  rw [ended] at same orderly
  have store : watch.state.store.Holds Value.Bare := fun scope opened binding member =>
    bare_of_proper (leaving.store scope opened binding member)
  refine ⟨⟨?_, fun _ member => ?_⟩, leaving.store⟩
  · change Orderly (_ :: watch.visits)
    rw [ended]
    exact .arrives orderly same call ⟨List.forall_mem_singleton.mpr bare, store⟩
  · cases member
    exact bare _ .whole

end Watch.Leaving

/-- Where an evaluation got to: it has a proper value, or a `return` gives one back. -/
def Watch.Reached (exits : Bool) (value : Value) (watch : Watch) : Prop :=
  (Rule.proper.Holds watch ∧ value.Each Proper) ∨
    exits = true ∧ ∃ inner, value = .returned inner ∧ watch.Leaving inner

/-- From a moment at which all values are proper the evaluation gets to a good one within the same
tasks, or it is cut short where they are. -/
def Watched.Goes (watched : Watched Value) (watch : Watch) (good : Value → Watch → Prop) : Prop :=
  Rule.proper.Holds watch →
    watched.Leads (fun _ later => Rule.proper.lasts watch later ∧ Rule.proper.Holds later) watch
      fun value later => Rule.proper.lasts watch later ∧ good value later

/-- Only if the evaluation `exits` a `return` may cut it short. -/
def Watched.Exits (exits : Bool) (watched : Watched Value) (watch : Watch) : Prop :=
  watched.Goes watch fun value later => later.Reached exits value

/-- What the body of a function leaves to the call: a proper value, which may be on its way out. -/
def Watched.Arrives (watched : Watched Value) (watch : Watch) : Prop :=
  watched.Goes watch fun value later =>
    value.Each Proper ∧ (Rule.proper.Holds later ∨ later.Leaving value)

/-- After something from which no `return` gets out. -/
theorem Watched.Goes.after {α : Type} {first : Watched α} {next : α → Watched Value} {watch : Watch}
    {good : α → Watch → Prop} {better : Value → Watch → Prop}
    (start : Rule.proper.Keeps first watch good)
    (others : ∀ value later, Rule.proper.lasts watch later → good value later →
      (next value).Goes later better) :
    Goes (first >>= next) watch better := by
  intro holds
  apply (start holds).bind
  intro value later reached
  obtain ⟨⟨lasts, holds⟩, fine⟩ := reached
  have ran := others value later lasts fine holds
  apply (ran.recut fun stop last reached => ⟨reached.1.trans lasts, reached.2⟩).mono
  exact fun result last reached => ⟨reached.1.trans lasts, reached.2⟩

namespace Watched.Exits

variable {exits : Bool} {watched : Watched Value} {watch : Watch} {task : Task}

theorem of_keeps (keeps : Rule.proper.Keeps watched watch Rule.proper.Fine) :
    Exits exits watched watch :=
  fun holds => (keeps holds).mono fun _ _ reached => ⟨reached.1.1, .inl ⟨reached.1.2, reached.2⟩⟩

theorem keeps (without : Exits false watched watch) :
    Rule.proper.Keeps watched watch Rule.proper.Fine := by
  intro holds
  refine (without holds).mono fun value later reached => ?_
  obtain ⟨lasts, ⟨holds, fine⟩ | ⟨impossible, -⟩⟩ := reached
  · exact ⟨⟨lasts, holds⟩, fine⟩
  · cases impossible

theorem mono {more : Bool} (some : Exits exits watched watch)
    (weaker : exits = true → more = true) : Exits more watched watch :=
  fun holds => (some holds).mono fun _ _ reached =>
    ⟨reached.1, reached.2.imp_right fun out => ⟨weaker out.1, out.2⟩⟩

/-- A task with the same way out as what is done in it. -/
theorem visit (nothing : task.values = [])
    (inner : ∀ later, underway later.visits = task :: underway watch.visits →
      Exits exits watched later)
    (out : exits = true → task.LetsOut (underway watch.visits)) :
    Exits exits (Watched.visit task watched) watch := by
  intro holds
  have begun : Rule.proper.Holds (watch.note (.begins task watch.state)) :=
    Rule.proper_begins holds (by simp [nothing])
  have ran := inner _ rfl begun
  apply ran.visit
  · rintro value later ⟨lasts, ⟨holds, fine⟩ | ⟨some, inner, rfl, leaving⟩⟩
    · exact ⟨congrArg List.tail lasts, .inl ⟨Rule.proper_ends holds fine, fine⟩⟩
    · have left := leaving.passes lasts (out some)
      exact ⟨congrArg List.tail lasts, .inr ⟨some, inner, rfl, left⟩⟩
  · intro stop later reached
    exact ⟨congrArg List.tail reached.1, Rule.proper_cuts reached.2 stop⟩

/-- An operand. No `return` gets out of it. -/
theorem operand {tree : Expr} {scope : Nat} (inner : ∀ later, Exits false watched later) :
    Rule.proper.Keeps (Watched.visit (.expression tree scope) watched) watch Rule.proper.Fine :=
  keeps (visit rfl (fun later _ => inner later) fun impossible => nomatch impossible)

theorem visitGiveBack {scope : Nat} {direct : Bool} {token : Token} {tree : Option Expr}
    (inner : ∀ later, Rule.proper.Keeps watched later Rule.proper.Fine) :
    Exits true (Watched.visit (.statement (.giveBack token tree) scope direct)
      (do let value ← watched; pure (.returned value))) watch := by
  intro holds
  let task := Task.statement (.giveBack token tree) scope direct
  have begun : Rule.proper.Holds (watch.note (.begins task watch.state)) :=
    Rule.proper_begins holds fun _ member => absurd member List.not_mem_nil
  have wraps : Rule.proper.Keeps (do let value ← watched; pure (Value.returned value))
      (watch.note (.begins task watch.state)) fun value later =>
        ∃ inner, value = .returned inner ∧ Rule.proper.Fine inner later :=
    proper_steady.bind (inner _) fun value _ _ fine =>
      proper_steady.pure ⟨value, rfl, fine⟩
  apply (wraps begun).visit
  · rintro value later ⟨⟨lasts, holds⟩, inner, rfl, fine⟩
    exact ⟨congrArg List.tail lasts, .inr ⟨rfl, inner, rfl,
      .gives holds fine token tree scope direct⟩⟩
  · intro stop later reached
    exact ⟨congrArg List.tail reached.1, Rule.proper_cuts reached.2 stop⟩

/-- Nothing more is evaluated once a `return` gives a value back. -/
theorem andThen {first : Watched Value} {next : Value → Watched Value} {more : Bool}
    (start : Exits exits first watch)
    (leaves : ∀ inner, next (.returned inner) = pure (.returned inner))
    (others : ∀ value later, Rule.proper.Fine value later → Exits more (next value) later) :
    Exits (exits || more) (first >>= next) watch := by
  intro holds
  apply (start holds).bind
  rintro value later ⟨lasts, ⟨holds, fine⟩ | ⟨some, inner, rfl, leaving⟩⟩
  · have ran := others value later fine holds
    apply (ran.recut fun stop last reached => ⟨reached.1.trans lasts, reached.2⟩).mono
    rintro result last ⟨lasts', reached⟩
    exact ⟨lasts'.trans lasts, reached.imp_right fun out => ⟨by simp [out.1], out.2⟩⟩
  · rw [leaves]
    exact ⟨lasts, .inr ⟨by simp [some], inner, rfl, leaving⟩⟩

end Watched.Exits

section
variable {watching : Value → List Value → Watched Value}
variable (calls : ∀ callee arguments watch, Rule.proper.Fine callee watch →
  (∀ value ∈ arguments, Rule.proper.Fine value watch) → Rule.proper.Keeps
    (visit (.application callee arguments) (watching callee arguments)) watch Rule.proper.Fine)
variable (scope : Nat)
include calls

set_option linter.unusedSectionVars false

mutual

theorem Expr.exits (isStatement : Bool) : ∀ (expr : Expr) (watch : Watch),
    expr.clean isStatement = true →
      Exits (isStatement && expr.gives) (expr.watch watching scope) watch
  | .identifier name, _, _ => .of_keeps (proper_steady.resolves scope name.name)
  | .integer _ value, _, _ => .of_keeps (proper_steady.pure (each_of_atom rfl trivial))
  | .boolean _ value, _, _ => .of_keeps (proper_steady.pure (each_of_atom rfl trivial))
  | .string _ value, _, _ => .of_keeps (proper_steady.pure (each_of_atom rfl trivial))
  | .unary _ operator right, _, clean => by
    apply Exits.of_keeps
    apply proper_steady.bind (Exits.operand fun later => Expr.exits false right later clean)
    intro value later _ fine
    have closed := proper_steady.closed later
    exact proper_steady.answers fun _ => Value.closed_unary
  | .binary _ left operator right, _, clean => by
    obtain ⟨clean, clean'⟩ := Bool.and_eq_true_iff.mp clean
    apply Exits.of_keeps
    apply proper_steady.bind (Exits.operand fun later => Expr.exits false left later clean)
    intro left middle _ _
    apply proper_steady.bind (Exits.operand fun later => Expr.exits false right later clean')
    intro right later _ _
    have closed := proper_steady.closed later
    exact proper_steady.answers fun _ => Value.closed_binary
  | .conditional _ condition consequence alternative, _, clean => by
    simp only [Expr.clean, Bool.and_eq_true] at clean
    obtain ⟨⟨⟨out, conditions⟩, consequences⟩, alternatives⟩ := clean
    apply Goes.after (Exits.operand fun later => Expr.exits false condition later conditions)
    intro value middle _ _
    apply Goes.after (proper_steady.follows (.condition value))
    intro _ later _ _
    split
    · have taken : Exits consequence.gives (visit (.block consequence scope)
          (consequence.watch watching scope false)) later :=
        .visit rfl (fun later _ => Block.exits false consequence later consequences)
          fun _ => trivial
      refine taken.mono fun some => ?_
      cases isStatement <;> simp_all [Expr.gives]
    · refine (Block.exitsAlternative alternative later alternatives).mono fun some => ?_
      cases isStatement <;> simp_all [Expr.gives]
  | .function _ parameters body, _, clean =>
    .of_keeps (proper_steady.pure (each_of_atom rfl clean))
  | .call _ callee arguments, _, clean => by
    obtain ⟨clean, others⟩ := Bool.and_eq_true_iff.mp clean
    apply Exits.of_keeps
    apply proper_steady.bind (Exits.operand fun later => Expr.exits false callee later clean)
    intro callee middle _ fine
    apply proper_steady.bind (Expr.exitsAll arguments middle others)
    intro arguments later _ all
    exact calls callee arguments later fine all
  | .array _ elements, watch, clean => by
    apply Exits.of_keeps
    apply proper_steady.bind (Expr.exitsAll elements watch clean)
    intro values later _ all
    exact proper_steady.pure (Each.array_iff.mpr ⟨trivial, all⟩)
  | .hash _ pairs, watch, clean => by
    apply Exits.of_keeps
    apply proper_steady.bind (Expr.exitsPairs [] (fun _ member =>
      absurd member List.not_mem_nil) pairs watch clean)
    intro entries later _ all
    exact proper_steady.pure (Each.hash_iff.mpr ⟨trivial, all⟩)
  | .index _ left position, _, clean => by
    obtain ⟨clean, clean'⟩ := Bool.and_eq_true_iff.mp clean
    apply Exits.of_keeps
    apply proper_steady.bind (Exits.operand fun later => Expr.exits false left later clean)
    intro left middle _ fine
    apply proper_steady.bind (Exits.operand fun later => Expr.exits false position later clean')
    intro position later _ _
    have closed := proper_steady.closed later
    have left : Each (Rule.proper.good · later) left := fine
    exact proper_steady.answers fun _ => Value.closed_index left
  | .slice _ left lower upper, _, clean => by
    simp only [Expr.clean, Bool.and_eq_true] at clean
    obtain ⟨⟨clean, lowers⟩, uppers⟩ := clean
    apply Exits.of_keeps
    apply proper_steady.bind (Exits.operand fun later => Expr.exits false left later clean)
    intro left first _ fine
    apply proper_steady.bind (Expr.exitsBound lower first lowers)
    intro lower second _ _
    apply proper_steady.bind (Expr.exitsBound upper second uppers)
    intro upper later _ _
    have closed := proper_steady.closed later
    have left : Each (Rule.proper.good · later) left := fine
    exact proper_steady.answers fun _ => Value.closed_slice left
  | .unknown, _, _ => .of_keeps (proper_steady.throw _)

theorem Expr.exitsBound : ∀ (bound : Option Expr) (watch : Watch),
    Expr.valueClean false bound = true →
      Rule.proper.Keeps (Expr.watchBound watching scope bound) watch fun _ _ => True
  | none, _, _ => proper_steady.pure trivial
  | some bound, _, clean => by
    apply proper_steady.bind (Exits.operand fun later => Expr.exits false bound later clean)
    intro value later _ _
    exact proper_steady.pure trivial

theorem Expr.exitsAll : ∀ (list : List Expr) (watch : Watch), Expr.allClean list = true →
    Rule.proper.Keeps (Expr.watchAll watching scope list) watch
      fun values later => ∀ value ∈ values, Rule.proper.Fine value later
  | [], _, _ => proper_steady.pure fun _ member => absurd member List.not_mem_nil
  | expr :: rest, _, clean => by
    obtain ⟨clean, others⟩ := Bool.and_eq_true_iff.mp clean
    apply proper_steady.bind (Exits.operand fun later => Expr.exits false expr later clean)
    intro value middle _ fine
    apply proper_steady.bind (Expr.exitsAll rest middle others)
    intro values later _ all
    exact proper_steady.pure (List.forall_mem_cons.mpr ⟨fine, all⟩)

theorem Expr.exitsPairs (entries : List (Entry Value))
    (all : ∀ entry ∈ entries, entry.key.Each Proper ∧ entry.value.Each Proper) :
    ∀ (list : List (Expr × Expr)) (watch : Watch), Expr.pairsClean list = true →
      Rule.proper.Keeps (Expr.watchPairs watching scope entries list) watch fun entries _ =>
        ∀ entry ∈ entries, entry.key.Each Proper ∧ entry.value.Each Proper
  | [], _, _ => proper_steady.pure all
  | (key, value) :: rest, _, clean => by
    simp only [Expr.pairsClean, Bool.and_eq_true] at clean
    obtain ⟨⟨keys, values⟩, others⟩ := clean
    apply proper_steady.bind (Exits.operand fun later => Expr.exits false key later keys)
    intro key middle _ fine
    cases key.hashKey? with
    | none => exact proper_steady.faults _
    | some hashKey =>
      apply proper_steady.bind (Exits.operand fun later => Expr.exits false value later values)
      intro value later _ fine'
      refine Expr.exitsPairs _ (fun entry member => ?_) rest later others
      rcases Entry.value_of_mem_insert member with rfl | member
      · exact ⟨fine, fine'⟩
      · exact all entry member

/-- A statement together with its visit, which is around the expression that it may consist of. -/
theorem Statement.exits (direct : Bool) : ∀ (statement : Statement) (watch : Watch),
    statement.clean = true → Exits statement.gives
      (visit (.statement statement scope direct) (statement.watch watching scope)) watch
  | .binding _ name value, _, clean => by
    refine .visit rfl (fun watch _ => .of_keeps ?_) fun _ => trivial
    apply proper_steady.bind (Expr.exitsOrNull value watch clean)
    intro value first _ fine
    apply proper_steady.bind (proper_steady.assigns scope name.name fine)
    intro _ second _ _
    apply proper_steady.bind (proper_steady.follows (.binding name.name value))
    intro _ later _ _
    exact proper_steady.pure proper_steady.null_fine
  | .giveBack _ value, _, clean => .visitGiveBack fun watch => Expr.exitsOrNull value watch clean
  | .expression _ none, _, _ =>
    .visit rfl (fun _ _ => .of_keeps (proper_steady.pure proper_steady.null_fine))
      fun _ => trivial
  | .expression token (some expr), _, clean =>
    .visit rfl (fun _ same => .visit rfl (fun later _ => Expr.exits true expr later clean)
      fun _ => ⟨token, direct, _, same⟩) fun _ => trivial
  | .block body, _, clean =>
    .visit rfl (fun _ _ => .visit rfl (fun later _ => Block.exits false body later clean)
      fun _ => trivial) fun _ => trivial

theorem Expr.exitsOrNull : ∀ (value : Option Expr) (watch : Watch),
    Expr.valueClean false value = true →
      Rule.proper.Keeps (Expr.watchOrNull watching scope value) watch Rule.proper.Fine
  | none, _, _ => proper_steady.pure proper_steady.null_fine
  | some expr, _, clean => Exits.operand fun later => Expr.exits false expr later clean

theorem Statement.exitsAll (direct : Bool) (last : Value) (fine : last.Each Proper) :
    ∀ (list : List Statement) (watch : Watch), Statement.allClean list = true →
      Exits (Statement.anyGives list) (Statement.watchAll watching scope direct last list) watch
  | [], _, _ => .of_keeps (proper_steady.pure fine)
  | statement :: rest, watch, clean => by
    obtain ⟨clean, others⟩ := Bool.and_eq_true_iff.mp clean
    have further := fun last fine => Statement.exitsAll direct last fine rest
    refine (Statement.exits direct statement watch clean).andThen (fun _ => rfl)
      fun value later fine => ?_
    cases value with
    | returned value => exact absurd (fine _ .whole) id
    | _ => exact further _ fine later others

theorem Block.exits (direct : Bool) : ∀ (block : Block) (watch : Watch), block.clean = true →
    Exits block.gives (block.watch watching scope direct) watch
  | ⟨_, statements⟩, watch, clean =>
    Statement.exitsAll direct .null (each_of_atom rfl trivial) statements watch clean

theorem Block.exitsAlternative : ∀ (block : Option Block) (watch : Watch),
    Block.alternativeClean block = true →
      Exits (Block.alternativeGives block) (Block.watchAlternative watching scope block) watch
  | none, _, _ => .of_keeps (proper_steady.pure proper_steady.null_fine)
  | some block, _, clean =>
    .visit rfl (fun later _ => Block.exits false block later clean) fun _ => trivial

end

end

namespace Watched.Arrives

variable {watched : Watched Value} {watch : Watch}

theorem of_keeps (keeps : Rule.proper.Keeps watched watch Rule.proper.Fine) :
    Arrives watched watch :=
  fun holds => (keeps holds).mono fun _ _ reached =>
    ⟨reached.1.1, reached.2, .inl reached.1.2⟩

/-- The wrapper is taken off. A proper value is no error. -/
theorem of_exits {exits : Bool} (body : Exits exits watched watch) :
    Arrives (watched >>= fun result => plainly (settle result.unwrapped)) watch := by
  intro holds
  apply (body holds).bind
  rintro value later ⟨lasts, ⟨holds, fine⟩ | ⟨-, inner, rfl, leaving⟩⟩
  · cases value with
    | returned value | error message => exact absurd (fine _ .whole) id
    | _ => exact ⟨lasts, fine, .inl holds⟩
  · have proper := leaving.proper
    cases inner with
    | error message => exact absurd (proper _ .whole) id
    | _ => exact ⟨lasts, proper, .inr leaving⟩

/-- The call gives the value that arrives. -/
theorem visit {callee : Value} {arguments : List Value} (fine : callee.Each Proper)
    (all : ∀ value ∈ arguments, value.Each Proper) (inner : ∀ later,
      Visit.begins (.application callee arguments) watch.state ∈ later.visits →
        Arrives watched later) :
    Rule.proper.Keeps (Watched.visit (.application callee arguments) watched) watch
      Rule.proper.Fine := by
  intro holds
  have given : ∀ value ∈ (Task.application callee arguments).values, value.Bare :=
    List.forall_mem_cons.mpr ⟨bare_of_proper fine, fun value member =>
      bare_of_proper (all value member)⟩
  apply (inner _ List.mem_cons_self (Rule.proper_begins holds given)).visit
  · rintro value later ⟨lasts, fine, holds | leaving⟩
    · exact ⟨⟨congrArg List.tail lasts, Rule.proper_ends holds fine⟩, fine⟩
    · exact ⟨⟨congrArg List.tail lasts, leaving.arrives lasts rfl⟩, fine⟩
  · intro stop later reached
    exact ⟨congrArg List.tail reached.1, Rule.proper_cuts reached.2 stop⟩

end Watched.Arrives

/-- What a call does, if the calls in it keep all values proper. -/
theorem watchWithin_arrives (depth : Nat) (calls : ∀ less, depth = less + 1 →
      ∀ callee arguments watch, Rule.proper.Fine callee watch →
        (∀ value ∈ arguments, Rule.proper.Fine value watch) → Rule.proper.Keeps
          (visit (.application callee arguments) (watchWithin less callee arguments)) watch
          Rule.proper.Fine)
    (callee : Value) (arguments : List Value) (watch : Watch) (fine : callee.Each Proper)
    (all : ∀ value ∈ arguments, value.Each Proper) {state : State}
    (noted : Visit.begins (.application callee arguments) state ∈ watch.visits) :
    Arrives (watchWithin depth callee arguments) watch := by
  have steady := proper_steady
  cases callee with
  | function parameters body scope =>
    unfold watchWithin
    split
    · exact .of_keeps (steady.faults _)
    cases depth with
    | zero => exact .of_keeps (steady.throw _)
    | succ depth =>
      apply Goes.after (steady.follows (.call (.function parameters body scope) arguments))
      intro _ first _ _
      apply Goes.after (@Rule.Steady.enters _ steady _ _ scope trivial fun binding member =>
        all _ (List.of_mem_zip member).2)
      intro inner second _ _
      have clean : body.clean = true := fine _ .whole
      exact Arrives.of_exits (.visit rfl (fun later _ =>
        Block.exits (calls depth rfl) inner true body later clean) fun _ => trivial)
  | builtin builtin =>
    unfold watchWithin
    apply Goes.after (steady.follows (.builtinCall builtin arguments))
    intro _ later _ same
    exact Arrives.of_keeps (steady.applies builtin all (same ▸ noted))
  | _ =>
    unfold watchWithin
    exact .of_keeps (steady.faults _)

/-- By induction on how deep calls may nest. -/
theorem application_keepsProper (depth : Nat) (callee : Value) (arguments : List Value)
    (watch : Watch) (fine : callee.Each Proper) (all : ∀ value ∈ arguments, value.Each Proper) :
    Rule.proper.Keeps
      (visit (.application callee arguments) (watchWithin depth callee arguments)) watch
      Rule.proper.Fine := by
  induction depth generalizing callee arguments watch with
  | zero =>
    exact Arrives.visit fine all fun later noted => watchWithin_arrives 0
      (fun _ impossible => nomatch impossible) callee arguments later fine all noted
  | succ depth ih =>
    refine Arrives.visit fine all fun later noted => watchWithin_arrives (depth + 1)
      (fun less same => ?_) callee arguments later fine all noted
    obtain rfl := Nat.succ.inj same
    exact ih

/-- Where the run of a clean program ends: no task is under way any more, and a value that has left
them all is the result. -/
theorem Program.exists_orderly (depth level : Nat) (program : Program)
    (clean : program.clean = true) : ∃ final : List Visit,
      program.visits depth level = final.reverse ∧ Orderly final ∧ underway final = [] ∧
      (∀ value, ((Session.start level).run depth (.program program)).1 = .value value →
        value.Bare) ∧
      ∀ task value state, final.head? = some (.ends task (.value (.returned value)) state) →
        (Session.start level).run depth (.program program) = (.value value, ⟨state⟩) := by
  let start : Watch := ⟨(Session.start level).state, []⟩
  have holds : Rule.proper.Holds start :=
    ⟨⟨.start, fun _ member => nomatch member⟩, Store.Holds.empty.opened none⟩
  have ran := Statement.exitsAll (application_keepsProper depth) Session.root true .null
    (each_of_atom rfl trivial) program.statements start clean holds
  have plain := program.forgets depth Session.root start
  unfold Leads at ran
  unfold Program.visits Node.visits Session.run Evaluation.finish
  dsimp only [Node.evaluate, Node.watch]
  rw [← plain]
  have never (final : Watch) (holds : Rule.proper.Holds final) (task : Task) (value : Value)
      (state : State) : final.visits.head? ≠ some (.ends task (.value (.returned value)) state) :=
    fun last => absurd (holds.1.2 _ last) (by simp [Visit.wraps, Value.wrapped])
  cases outcome : Statement.watchAll (watchWithin depth) Session.root true .null
      program.statements start with
  | ok value final =>
    have whole : program.watch depth Session.root start = .ok value.unwrapped final :=
      bind_of_ok outcome
    rw [outcome] at ran
    rw [whole, leaves_of_ok whole]
    obtain ⟨lasts, ⟨holds, fine⟩ | ⟨-, inner, rfl, leaving⟩⟩ := ran
    · refine ⟨final.visits, rfl, holds.1.1, lasts, fun result same => ?_,
        fun task inner state last => absurd last (never final holds task inner state)⟩
      cases same
      exact bare_of_proper (Each.unwrapped fine)
    · refine ⟨final.visits, rfl, leaving.orderly, lasts, fun result same => ?_,
        fun task result state last => ?_⟩
      · cases same
        exact bare_of_proper leaving.proper
      · obtain ⟨_, _, ended⟩ := leaving.ended
        rw [ended] at last
        cases last
        rfl
  | error stop final =>
    have whole : program.watch depth Session.root start = .error stop final :=
      bind_of_error outcome
    rw [outcome] at ran
    rw [whole, leaves_of_error whole]
    obtain ⟨lasts, holds⟩ := ran
    refine ⟨final.visits, rfl, holds.1.1, lasts, fun result same => ?_,
      fun task inner state last => absurd last (never final holds task inner state)⟩
    cases stop <;> cases same
    exact each_of_atom rfl rfl

/-- In the run of a program `return` is nothing but a way out. -/
structure Program.ReturnsCleanly (depth level : Nat) (program : Program) : Prop where
  /-- No part of a value that is bound is wrapped. -/
  bound : ∀ visit ∈ program.visits depth level, visit.state.store.Holds Value.Bare
  /-- No part of a function that is called or of its arguments is wrapped. -/
  handed : ∀ task state, .begins task state ∈ program.visits depth level →
    ∀ value ∈ task.values, value.Bare
  /-- No part of a value that a task ends with is wrapped, but for one on its way out. An expression
  lets that out only where it is a statement, so no operand has it, and a call does not at all. -/
  ends : ∀ before after task value state,
    program.visits depth level = before ++ .ends task (.value value) state :: after →
      value.Bare ∨
        ∃ inner, value = .returned inner ∧ inner.Bare ∧ task.LetsOut (around before)
  /-- No part of the result of the program is wrapped. -/
  result : ∀ value, ((Session.start level).run depth (.program program)).1 = .value value →
    value.Bare
  /-- After a `return` the tasks around it end in the same state, up to the call that it stands in,
  which gives just the value. Without a call around it nothing else happens, and the program ends
  with the value in that state. -/
  leaves : ∀ before after token tree scope direct value state, program.visits depth level =
      before ++ .ends (.statement (.giveBack token tree) scope direct) (.value (.returned value))
        state :: after →
    wayOut value state (around before) <+: after ∧
      ((∀ outer ∈ around before, outer.isCall = false) →
        after = wayOut value state (around before) ∧
        (Session.start level).run depth (.program program) = (.value value, ⟨state⟩))

/-- Where every conditional with a `return` in it is a statement, no wrapped value is computed with,
and every `return` ends just the call that it stands in, or the program. -/
theorem return_is_clean_exit (depth level : Nat) (program : Program)
    (clean : program.clean = true) : program.ReturnsCleanly depth level := by
  obtain ⟨final, visits, orderly, done, result, ended⟩ := program.exists_orderly depth level clean
  have split {before after : List Visit} {visit : Visit}
      (same : program.visits depth level = before ++ visit :: after) :
      final = after.reverse ++ visit :: before.reverse := by
    rw [visits] at same
    rw [← List.reverse_reverse final, same]
    simp
  have visited {visit : Visit} (member : visit ∈ program.visits depth level) : visit ∈ final :=
    List.mem_reverse.mp (visits ▸ member)
  constructor
  case bound => exact fun visit member => (orderly.bare visit (visited member)).1
  case handed => exact fun task state member => (orderly.bare _ (visited member)).2 task state rfl
  case ends =>
    intro before after task value state same
    rw [split same] at orderly
    exact orderly.of_append.of_ends
  case result => exact result
  case leaves =>
    intro before after token tree scope direct value state same
    rw [split same] at orderly done ended
    obtain ⟨out, alone⟩ := orderly.wayOut_of_wrapped done
    refine ⟨out, fun none => ?_⟩
    obtain ⟨all, outer, last⟩ := alone none
    exact ⟨all, ended outer value state last⟩

/-- A function that returns out of a conditional. -/
theorem early_return_is_clean_exit :
    (parse "let f = fn(x) \x7b if (x) \x7b return 1; \x7d 2 \x7d; f(true)").program.clean = true ∧
      (parse "let f = fn(x) \x7b if (x) \x7b return 1; \x7d 2 \x7d; f(true)").program.ReturnsCleanly
        callDepth 0 := by
  have clean : (parse
    "let f = fn(x) \x7b if (x) \x7b return 1; \x7d 2 \x7d; f(true)").program.clean = true := by cbv
  exact ⟨clean, return_is_clean_exit callDepth 0 _ clean⟩

/-- Here the wrapped value is bound to a name. -/
example : (parse "let x = if (true) \x7b return 1; \x7d;").program.clean = false := by cbv

end Monkey

import Monkey.Proofs.Made
import Monkey.Proofs.Visits


/-!
Laws of evaluation. A law says what is kept from one moment of an evaluation to the next, and what
the values are like that come up on the way. When it withstands every single step, it holds in every
evaluation: this is the one induction over the syntax and over how deep calls nest, for all laws.
-/

namespace Monkey

open Evaluation Watched

def Watch.note (watch : Watch) (visit : Visit) : Watch := ⟨watch.state, visit :: watch.visits⟩

namespace Watched

variable {α β : Type} {watch : Watch} {cut : Stop → Watch → Prop} {good : α → Watch → Prop}

/-- The evaluation has a good value, or it is cut short as described. -/
def Leads (cut : Stop → Watch → Prop) (watched : Watched α) (watch : Watch)
    (good : α → Watch → Prop) : Prop :=
  match watched watch with
  | .ok value later => good value later
  | .error stop later => cut stop later

namespace Leads

theorem bind {first : Watched α} {next : α → Watched β} {better : β → Watch → Prop}
    (start : Leads cut first watch good)
    (others : ∀ value later, good value later → Leads cut (next value) later better) :
    Leads cut (first >>= next) watch better := by
  unfold Leads at start ⊢
  cases outcome : first watch with
  | ok value later =>
    rw [outcome] at start
    rw [bind_of_ok outcome]
    exact others value later start
  | error stop later =>
    rw [outcome] at start
    rw [bind_of_error outcome]
    exact start

theorem mono {better : α → Watch → Prop} {watched : Watched α}
    (leads : Leads cut watched watch good)
    (fine : ∀ value later, good value later → better value later) :
    Leads cut watched watch better := by
  unfold Leads at leads ⊢
  cases outcome : watched watch with
  | ok value later =>
    rw [outcome] at leads
    exact fine value later leads
  | error stop later =>
    rw [outcome] at leads
    exact leads

theorem get {next : State → Evaluation α}
    (leads : Leads cut (plainly (next watch.state)) watch good) :
    Leads cut (plainly (get >>= next)) watch good := leads

theorem visit {further : Stop → Watch → Prop} {good better : Value → Watch → Prop}
    {watched : Watched Value} {task : Task}
    (inner : Leads cut watched (watch.note (.begins task watch.state)) good)
    (fine : ∀ value later, good value later →
      better value (later.note (.ends task (.value value) later.state)))
    (cuts : ∀ stop later, cut stop later →
      further stop (later.note (.ends task stop.ending later.state))) :
    Leads further (visit task watched) watch better := by
  unfold Leads at inner ⊢
  cases outcome : watched (watch.note (.begins task watch.state)) with
  | ok value later =>
    rw [outcome] at inner
    rw [visit_of_ok outcome]
    exact fine value later inner
  | error stop later =>
    rw [outcome] at inner
    rw [visit_of_error outcome]
    exact cuts stop later inner

end Leads
end Watched

/-- What an evaluation keeps. -/
structure Law where
  kept : Watch → Prop
  /-- What holds where the evaluation is cut short. -/
  cut : Stop → Watch → Prop
  /-- How a moment is related to those after it. -/
  lasts : Watch → Watch → Prop
  /-- What the values are like that are at hand at a moment. -/
  fine : Value → Watch → Prop

namespace Law

def Steps (law : Law) (watch later : Watch) : Prop := law.lasts watch later ∧ law.kept later

/-- From a moment at which all is kept, the evaluation gets to a later such moment with a good
value. -/
def Keeps {α : Type} (law : Law) (watched : Watched α) (watch : Watch)
    (good : α → Watch → Prop) : Prop :=
  law.kept watch →
    watched.Leads law.cut watch fun value later => law.Steps watch later ∧ good value later

theorem Keeps.mono {α : Type} {law : Law} {watched : Watched α} {watch : Watch}
    {good better : α → Watch → Prop} (keeps : law.Keeps watched watch good)
    (fine : ∀ value later, good value later → better value later) :
    law.Keeps watched watch better :=
  fun kept => (keeps kept).mono fun value later reached => ⟨reached.1, fine value later reached.2⟩

/-- The value of a statement before a `return` is seen: what is given back is wrapped. -/
def Gives (law : Law) : Statement → Value → Watch → Prop
  | .giveBack _ _, value, watch => ∃ inner, value = .returned inner ∧ law.fine inner watch
  | _, value, watch => law.fine value watch

/-- The law allows a task to end. -/
def Ends (law : Law) (task : Task) : Prop :=
  ∀ value watch, law.kept watch → law.fine value watch →
    law.Steps watch (watch.note (.ends task (.value value) watch.state))

/-- The law allows a statement to end. -/
def EndsStatement (law : Law) (direct : Bool) : Prop :=
  ∀ tree scope value watch, law.kept watch → law.Gives tree value watch →
    law.Steps watch (watch.note (.ends (.statement tree scope direct) (.value value) watch.state)) ∧
      law.fine value (watch.note (.ends (.statement tree scope direct) (.value value) watch.state))

/-- A law that no single step breaks, calls apart. -/
structure Stable (law : Law) : Prop where
  refl : ∀ watch, law.lasts watch watch
  trans : ∀ {first second third}, law.lasts first second → law.lasts second third →
    law.lasts first third
  fine_lasts : ∀ {value watch later}, law.fine value watch → law.lasts watch later →
    law.fine value later
  made : ∀ {sources value watch}, (∀ source ∈ sources, law.fine source watch) →
    Value.Made sources value → value.isError = false → law.fine value watch
  found : ∀ {scope name value watch}, law.kept watch →
    watch.state.store.find? scope name = some value → value.isError = false → law.fine value watch
  follow : ∀ {watch} event, law.kept watch → law.Steps watch
    ⟨{ watch.state with trace := watch.state.trace.follow event }, watch.visits⟩
  print : ∀ {watch} line, law.kept watch → law.Steps watch
    ⟨{ watch.state with output := line :: watch.state.output }, watch.visits⟩
  assign : ∀ {value watch} scope name, law.kept watch → law.fine value watch → law.Steps watch
    ⟨{ watch.state with store := watch.state.store.bind scope name value }, watch.visits⟩
  enter : ∀ {bindings : List (String × Value)} {watch} parent, law.kept watch →
    (∀ binding ∈ bindings, law.fine binding.2 watch) → law.Steps watch
      ⟨{ watch.state with
        store := (watch.state.store.opened parent).bindAll watch.state.store.size bindings },
        watch.visits⟩
  begins : ∀ {watch} task, law.kept watch → law.Steps watch (watch.note (.begins task watch.state))
  expression : ∀ tree scope, law.Ends (.expression tree scope)
  block : ∀ tree scope, law.Ends (.block tree scope)
  statement : law.EndsStatement false
  stops : ∀ {watch} stop, law.kept watch → law.cut stop watch
  cuts : ∀ {stop watch} task, law.cut stop watch →
    law.cut stop (watch.note (.ends task stop.ending watch.state))

namespace Stable

variable {law : Law} (stable : law.Stable) {α β : Type} {watch : Watch}
include stable

theorem pure {value : α} {good : α → Watch → Prop} (fine : good value watch) :
    law.Keeps (Pure.pure value) watch good :=
  fun kept => ⟨⟨stable.refl watch, kept⟩, fine⟩

theorem throw {good : α → Watch → Prop} (stop : Stop) :
    law.Keeps (MonadExcept.throw stop : Watched α) watch good :=
  stable.stops stop

theorem bind {first : Watched α} {next : α → Watched β} {good : α → Watch → Prop}
    {better : β → Watch → Prop} (start : law.Keeps first watch good)
    (others : ∀ value later, law.lasts watch later → good value later →
      law.Keeps (next value) later better) : law.Keeps (first >>= next) watch better := by
  intro kept
  apply (start kept).bind
  intro value later reached
  obtain ⟨⟨lasts, kept⟩, fine⟩ := reached
  apply (others value later lasts fine kept).mono
  intro result last reached
  exact ⟨⟨stable.trans lasts reached.1.1, reached.1.2⟩, reached.2⟩

theorem visit_of_lasts {watched : Watched Value} {task : Task} (ends : law.Ends task)
    (inner : ∀ later, law.lasts watch later → law.Keeps watched later law.fine) :
    law.Keeps (visit task watched) watch law.fine := by
  intro kept
  have begun := stable.begins task kept
  apply (inner _ begun.1 begun.2).visit
  · intro value later reached
    obtain ⟨⟨lasts, kept⟩, fine⟩ := reached
    have ended := ends value later kept fine
    have whole := stable.trans (stable.trans begun.1 lasts) ended.1
    exact ⟨⟨whole, ended.2⟩, stable.fine_lasts fine ended.1⟩
  · exact fun stop later => stable.cuts task

theorem visit {watched : Watched Value} {task : Task} (ends : law.Ends task)
    (inner : ∀ watch, law.Keeps watched watch law.fine) :
    law.Keeps (Watched.visit task watched) watch law.fine :=
  stable.visit_of_lasts ends fun later _ => inner later

theorem visitStatement {tree : Statement} {direct : Bool} {watched : Watched Value}
    (ends : law.EndsStatement direct) (inner : ∀ watch, law.Keeps watched watch (law.Gives tree))
    (scope : Nat) :
    law.Keeps (Watched.visit (.statement tree scope direct) watched) watch law.fine := by
  intro kept
  have begun := stable.begins (.statement tree scope direct) kept
  apply (inner _ begun.2).visit
  · intro value later reached
    obtain ⟨⟨lasts, kept⟩, gives⟩ := reached
    obtain ⟨ended, fine⟩ := ends tree scope value later kept gives
    exact ⟨⟨stable.trans (stable.trans begun.1 lasts) ended.1, ended.2⟩, fine⟩
  · exact fun stop later => stable.cuts _

/-- What can be had from nothing. -/
theorem plain_fine {value : Value} (made : Value.Made [] value) (fine : value.isError = false) :
    law.fine value watch :=
  stable.made (fun _ member => absurd member List.not_mem_nil) made fine

theorem null_fine : law.fine .null watch := stable.plain_fine .null rfl

theorem hash_fine {entries : List (Entry Value)}
    (fine : ∀ entry ∈ entries, law.fine entry.value watch) : law.fine (.hash entries) watch := by
  have sources : ∀ value ∈ entries.map Entry.value, law.fine value watch :=
    List.forall_mem_map.mpr fine
  exact stable.made sources (.hash fun _ member => .given (List.mem_map_of_mem member)) rfl

/-! Steps that only use the state. -/

theorem follows (event : Event) :
    law.Keeps (plainly (Evaluation.follow event)) watch fun _ _ => True :=
  fun kept => ⟨stable.follow event kept, trivial⟩

theorem assigns {value : Value} (scope : Nat) (name : String) (fine : law.fine value watch) :
    law.Keeps (plainly (Evaluation.bind scope name value)) watch fun _ _ => True :=
  fun kept => ⟨stable.assign scope name kept fine, trivial⟩

theorem enters {bindings : List (String × Value)} (parent : Option Nat)
    (fine : ∀ binding ∈ bindings, law.fine binding.2 watch) :
    law.Keeps (plainly (Evaluation.enter parent bindings)) watch fun _ _ => True :=
  fun kept => ⟨stable.enter parent kept fine, trivial⟩

theorem faults {good : α → Watch → Prop} (cause : Fault) :
    law.Keeps (plainly (fault cause : Evaluation α)) watch good :=
  fun kept => stable.stops (.error cause.message) kept

theorem settles {value : Value} {good : Value → Watch → Prop}
    (fine : value.isError = false → good value watch) :
    law.Keeps (plainly (settle value)) watch good := by
  intro kept
  cases value with
  | error message => exact stable.stops (.error message) kept
  | _ => exact ⟨⟨stable.refl watch, kept⟩, fine rfl⟩

theorem answers {sources : List Value} {result : Except Fault Value}
    (fine : ∀ source ∈ sources, law.fine source watch)
    (made : ∀ value, result = .ok value → Value.Made sources value) :
    law.Keeps (plainly (answer result)) watch law.fine := by
  cases result with
  | ok value => exact stable.settles (stable.made fine (made value rfl))
  | error cause => exact stable.faults cause

theorem resolves (scope : Nat) (name : String) :
    law.Keeps (plainly (resolve scope name)) watch law.fine := by
  intro kept
  unfold resolve
  apply Leads.get
  split
  · rename_i value found
    exact stable.settles (stable.found kept found) kept
  · split
    · rename_i builtin named
      exact stable.pure (stable.plain_fine (.builtin builtin) rfl) kept
    · exact stable.faults _ kept

theorem prints (line : String) :
    law.Keeps (plainly (Evaluation.print line)) watch fun _ _ => True :=
  fun kept => ⟨stable.print line kept, trivial⟩

theorem printsAll (values : List Value) :
    law.Keeps (plainly (Builtin.printAll values)) watch fun _ _ => True := by
  induction values generalizing watch with
  | nil => exact stable.pure trivial
  | cons value others ih =>
    unfold Builtin.printAll
    rw [plainly_bind]
    exact stable.bind (stable.prints value.inspect) fun _ _ _ _ => ih

theorem applies (builtin : Builtin) {arguments : List Value}
    (fine : ∀ value ∈ arguments, law.fine value watch) :
    law.Keeps (plainly (builtin.apply arguments)) watch law.fine := by
  cases builtin with
  | len =>
    refine stable.answers fine fun value same => ?_
    obtain ⟨_, _, rfl⟩ | ⟨_, _, rfl⟩ := Builtin.exists_of_length same <;> exact .integer _
  | push => exact stable.answers fine fun value => Builtin.closed_pushed fun _ => .given
  | puts =>
    unfold Builtin.apply
    rw [plainly_bind]
    exact stable.bind (stable.printsAll arguments) fun _ _ _ _ => stable.pure stable.null_fine
  | first =>
    refine stable.answers fine fun value =>
      Builtin.closed_map (fun _ => .given) fun values made => ?_
    exact Value.Closed.getD_null fun value found => made value (List.mem_of_head? found)
  | last =>
    refine stable.answers fine fun value =>
      Builtin.closed_map (fun _ => .given) fun values made => ?_
    exact Value.Closed.getD_null fun value found => made value (List.mem_of_getLast? found)
  | rest =>
    refine stable.answers fine fun value =>
      Builtin.closed_map (fun _ => .given) fun values made => ?_
    cases values with
    | nil => exact .null
    | cons value values =>
      exact .array fun other member => made other (List.mem_cons_of_mem _ member)

theorem appliesBuiltin (depth : Nat) (builtin : Builtin) {arguments : List Value}
    (fine : ∀ value ∈ arguments, law.fine value watch) :
    law.Keeps (watchWithin depth (.builtin builtin) arguments) watch law.fine := by
  unfold watchWithin
  apply stable.bind (stable.follows (.builtinCall builtin arguments))
  intro _ later lasts _
  exact stable.applies builtin fun value member => stable.fine_lasts (fine value member) lasts

end Stable

end Law

/-! The induction over the syntax. A call is taken to keep the law. -/

section
variable {law : Law} (stable : law.Stable) {watching : Value → List Value → Watched Value}
variable (calls : ∀ callee arguments watch, law.fine callee watch →
  (∀ value ∈ arguments, law.fine value watch) →
    law.Keeps (visit (.application callee arguments) (watching callee arguments)) watch law.fine)
variable (scope : Nat)
include stable calls

set_option linter.unusedSectionVars false

mutual

theorem Expr.keeps : ∀ (expr : Expr) (watch : Watch),
    law.Keeps (expr.watch watching scope) watch law.fine
  | .identifier name, _ => stable.resolves scope name.name
  | .integer _ value, _ => stable.pure (stable.plain_fine (.integer value) rfl)
  | .boolean _ value, _ => stable.pure (stable.plain_fine (.boolean value) rfl)
  | .string _ value, _ => stable.pure (stable.plain_fine (.string value) rfl)
  | .unary _ operator right, _ =>
    stable.bind (stable.visit (stable.expression right scope) (Expr.keeps right)) fun _ _ _ fine =>
      stable.answers (List.forall_mem_singleton.mpr fine) fun _ => Value.closed_unary
  | .binary _ left operator right, _ => by
    apply stable.bind (stable.visit (stable.expression left scope) (Expr.keeps left))
    intro left middle _ fine
    apply stable.bind (stable.visit (stable.expression right scope) (Expr.keeps right))
    intro right later lasts fine'
    have operands : ∀ value ∈ [left, right], law.fine value later :=
      List.forall_mem_cons.mpr
        ⟨stable.fine_lasts fine lasts, List.forall_mem_singleton.mpr fine'⟩
    exact stable.answers operands fun _ => Value.closed_binary
  | .conditional _ condition consequence alternative, _ => by
    apply stable.bind (stable.visit (stable.expression condition scope) (Expr.keeps condition))
    intro value middle _ _
    apply stable.bind (stable.follows (.condition value))
    intro _ later _ _
    split
    · exact stable.visit (stable.block consequence scope)
        (Block.keeps stable.statement consequence)
    · exact Block.keepsAlternative alternative later
  | .function _ parameters body, _ =>
    stable.pure (stable.plain_fine (.function parameters body scope) rfl)
  | .call _ callee arguments, _ => by
    apply stable.bind (stable.visit (stable.expression callee scope) (Expr.keeps callee))
    intro callee middle _ fine
    apply stable.bind (Expr.keepsAll arguments middle)
    intro arguments later lasts all
    exact calls callee arguments later (stable.fine_lasts fine lasts) all
  | .array _ elements, watch => by
    apply stable.bind (Expr.keepsAll elements watch)
    intro values later _ all
    exact stable.pure (stable.made all (.array fun _ => .given) rfl)
  | .hash _ pairs, watch => by
    have nothing : ∀ entry ∈ ([] : List (Entry Value)), law.fine entry.value watch :=
      fun _ member => absurd member List.not_mem_nil
    apply stable.bind (Expr.keepsPairs [] pairs watch nothing)
    intro entries later _ all
    exact stable.pure (stable.hash_fine all)
  | .index _ left position, _ => by
    apply stable.bind (stable.visit (stable.expression left scope) (Expr.keeps left))
    intro left middle _ fine
    apply stable.bind (stable.visit (stable.expression position scope) (Expr.keeps position))
    intro position later lasts fine'
    have operands : ∀ value ∈ [left, position], law.fine value later :=
      List.forall_mem_cons.mpr
        ⟨stable.fine_lasts fine lasts, List.forall_mem_singleton.mpr fine'⟩
    exact stable.answers operands fun _ => Value.closed_index (.given List.mem_cons_self)
  | .slice _ left lower upper, _ => by
    apply stable.bind (stable.visit (stable.expression left scope) (Expr.keeps left))
    intro left first _ fine
    apply stable.bind (Expr.keepsBound lower first)
    intro lower second lasts _
    apply stable.bind (Expr.keepsBound upper second)
    intro upper later lasts' _
    have fine := stable.fine_lasts fine (stable.trans lasts lasts')
    exact stable.answers (List.forall_mem_singleton.mpr fine) fun _ =>
      Value.closed_slice (.given List.mem_cons_self)
  | .unknown, _ => stable.throw _

theorem Expr.keepsBound : ∀ (bound : Option Expr) (watch : Watch),
    law.Keeps (Expr.watchBound watching scope bound) watch fun _ _ => True
  | none, _ => stable.pure trivial
  | some bound, _ => by
    apply stable.bind (stable.visit (stable.expression bound scope) (Expr.keeps bound))
    intro value later _ _
    exact stable.pure trivial

theorem Expr.keepsAll : ∀ (list : List Expr) (watch : Watch),
    law.Keeps (Expr.watchAll watching scope list) watch
      fun values later => ∀ value ∈ values, law.fine value later
  | [], _ => stable.pure fun _ member => absurd member List.not_mem_nil
  | expr :: rest, _ => by
    apply stable.bind (stable.visit (stable.expression expr scope) (Expr.keeps expr))
    intro value middle _ fine
    apply stable.bind (Expr.keepsAll rest middle)
    intro values later lasts all
    exact stable.pure (List.forall_mem_cons.mpr ⟨stable.fine_lasts fine lasts, all⟩)

theorem Expr.keepsPairs (entries : List (Entry Value)) :
    ∀ (list : List (Expr × Expr)) (watch : Watch),
      (∀ entry ∈ entries, law.fine entry.value watch) →
        law.Keeps (Expr.watchPairs watching scope entries list) watch
          fun entries later => ∀ entry ∈ entries, law.fine entry.value later
  | [], _, all => stable.pure all
  | (key, value) :: rest, _, all => by
    apply stable.bind (stable.visit (stable.expression key scope) (Expr.keeps key))
    intro key middle lasts _
    cases key.hashKey? with
    | none => exact stable.faults _
    | some hashKey =>
      apply stable.bind (stable.visit (stable.expression value scope) (Expr.keeps value))
      intro value later lasts' fine
      apply Expr.keepsPairs _ rest later
      intro entry member
      rcases Entry.value_of_mem_insert member with rfl | member
      · exact fine
      · exact stable.fine_lasts (all entry member) (stable.trans lasts lasts')

theorem Statement.keeps : ∀ (statement : Statement) (watch : Watch),
    law.Keeps (statement.watch watching scope) watch (law.Gives statement)
  | .binding _ name value, watch => by
    apply stable.bind (Expr.keepsOrNull value watch)
    intro value first _ fine
    apply stable.bind (stable.assigns scope name.name fine)
    intro _ second _ _
    apply stable.bind (stable.follows (.binding name.name value))
    intro _ later _ _
    exact stable.pure stable.null_fine
  | .giveBack _ value, watch => by
    apply stable.bind (Expr.keepsOrNull value watch)
    intro value later _ fine
    exact stable.pure ⟨value, rfl, fine⟩
  | .expression _ value, watch => Expr.keepsOrNull value watch
  | .block body, _ =>
    stable.visit (stable.block body scope) (Block.keeps stable.statement body)

theorem Expr.keepsOrNull : ∀ (value : Option Expr) (watch : Watch),
    law.Keeps (Expr.watchOrNull watching scope value) watch law.fine
  | none, _ => stable.pure stable.null_fine
  | some expr, _ => stable.visit (stable.expression expr scope) (Expr.keeps expr)

theorem Statement.keepsAll {direct : Bool} (ends : law.EndsStatement direct) (last : Value) :
    ∀ (list : List Statement) (watch : Watch), law.fine last watch →
      law.Keeps (Statement.watchAll watching scope direct last list) watch law.fine
  | [], _, fine => stable.pure fine
  | statement :: rest, _, _ => by
    apply stable.bind (stable.visitStatement ends (Statement.keeps statement) scope)
    intro value later _ fine
    have others := fun last fine => Statement.keepsAll ends last rest later fine
    cases value with
    | returned value => exact stable.pure fine
    | _ => exact others _ fine

theorem Block.keeps {direct : Bool} (ends : law.EndsStatement direct) :
    ∀ (block : Block) (watch : Watch),
      law.Keeps (block.watch watching scope direct) watch law.fine
  | ⟨_, statements⟩, watch => Statement.keepsAll ends .null statements watch stable.null_fine

theorem Block.keepsAlternative : ∀ (block : Option Block) (watch : Watch),
    law.Keeps (Block.watchAlternative watching scope block) watch law.fine
  | none, _ => stable.pure stable.null_fine
  | some block, _ =>
    stable.visit (stable.block block scope) (Block.keeps stable.statement block)

end

end

/-- A law that calls do not break either. -/
structure Law.Total (law : Law) : Prop extends law.Stable where
  direct : law.EndsStatement true
  body : ∀ tree scope, law.Ends (.body tree scope)
  application : ∀ callee arguments, law.Ends (.application callee arguments)

section
variable {law : Law} (total : law.Total)
include total

/-- A call keeps the law if the calls in it do. -/
theorem watchWithin_keeps (depth : Nat) (calls : ∀ less callee arguments watch, depth = less + 1 →
      (∀ value ∈ arguments, law.fine value watch) →
        law.Keeps (visit (.application callee arguments) (watchWithin less callee arguments)) watch
          law.fine)
    (callee : Value) (arguments : List Value) (watch : Watch)
    (fine : ∀ value ∈ arguments, law.fine value watch) :
    law.Keeps (watchWithin depth callee arguments) watch law.fine := by
  have stable := total.toStable
  cases callee with
  | function parameters body scope =>
    unfold watchWithin
    split
    · exact stable.faults _
    cases depth with
    | zero => exact stable.throw _
    | succ depth =>
      apply stable.bind (stable.follows (.call (.function parameters body scope) arguments))
      intro _ first lasts _
      have bindings : ∀ binding ∈ (parameters.map Identifier.name).zip arguments,
          law.fine binding.2 first :=
        fun binding member => stable.fine_lasts (fine _ (List.of_mem_zip member).2) lasts
      apply stable.bind (stable.enters (some scope) bindings)
      intro inner second _ _
      have inside := Block.keeps stable
        (fun callee arguments watch _ => calls depth callee arguments watch rfl) inner total.direct
      apply stable.bind (stable.visit (total.body body inner) (inside body))
      intro result third _ fine
      apply stable.settles
      have made : Value.Made [result] result.unwrapped := (Value.Made.given (by simp)).unwrapped
      exact stable.made (List.forall_mem_singleton.mpr fine) made
  | builtin builtin => exact stable.appliesBuiltin depth builtin fine
  | _ =>
    unfold watchWithin
    exact stable.faults _

/-- By induction on how deep calls may nest. -/
theorem application_keeps (depth : Nat) (callee : Value) (arguments : List Value) (watch : Watch)
    (fine : ∀ value ∈ arguments, law.fine value watch) :
    law.Keeps (visit (.application callee arguments) (watchWithin depth callee arguments)) watch
      law.fine := by
  induction depth generalizing callee arguments watch with
  | zero =>
    apply total.visit_of_lasts (total.application callee arguments)
    intro later lasts
    apply watchWithin_keeps total 0 (fun _ _ _ _ same => nomatch same)
    exact fun value member => total.fine_lasts (fine value member) lasts
  | succ depth ih =>
    apply total.visit_of_lasts (total.application callee arguments)
    intro later lasts
    apply watchWithin_keeps total (depth + 1)
    · intro less callee arguments watch same fine
      obtain rfl := Nat.succ.inj same
      exact ih callee arguments watch fine
    · exact fun value member => total.fine_lasts (fine value member) lasts

theorem Program.keeps (depth scope : Nat) (program : Program) (watch : Watch) :
    law.Keeps (program.watch depth scope) watch fun value later =>
      ∃ result, value = result.unwrapped ∧ law.fine result later := by
  have stable := total.toStable
  apply stable.bind (Statement.keepsAll stable
    (fun callee arguments watch _ => application_keeps total depth callee arguments watch) scope
    total.direct .null program.statements watch stable.null_fine)
  intro result later _ fine
  exact stable.pure ⟨result, rfl, fine⟩

theorem Node.keeps (depth scope : Nat) (node : Node) (watch : Watch) :
    law.Keeps (node.watch depth scope) watch fun _ _ => True := by
  have calls := fun callee arguments watch (_ : law.fine callee watch) =>
    application_keeps total depth callee arguments watch
  cases node with
  | program tree => exact (tree.keeps total depth scope watch).mono fun _ _ _ => trivial
  | statement tree =>
    exact (tree.keeps total.toStable calls scope watch).mono fun _ _ _ => trivial
  | expression tree =>
    exact (tree.keeps total.toStable calls scope watch).mono fun _ _ _ => trivial

end

end Monkey

import Monkey.Proofs.Stores
import Monkey.Proofs.Visits

/-!
Which scopes an evaluation writes to. A binding goes to the scope that the tree is evaluated in, and
a call opens a scope of its own; so of the scopes that were there before, only the current one can
change, and a call changes none. This holds at every moment of an evaluation, however it ends.
-/

namespace Monkey

open Evaluation Watched

/-! The names that a tree binds in the scope it is evaluated in. What is inside a function is left
out: it is evaluated in other scopes. -/

mutual

def Expr.assigned : Expr → List String
  | .unary _ _ right => right.assigned
  | .binary _ left _ right => left.assigned ++ right.assigned
  | .conditional _ condition consequence alternative =>
    condition.assigned ++ consequence.assigned ++ Block.alternativeAssigned alternative
  | .call _ callee arguments => callee.assigned ++ Expr.allAssigned arguments
  | .array _ elements => Expr.allAssigned elements
  | .hash _ pairs => Expr.pairsAssigned pairs
  | .index _ left position => left.assigned ++ position.assigned
  | .slice _ left lower upper =>
    left.assigned ++ Expr.valueAssigned lower ++ Expr.valueAssigned upper
  | _ => []

def Expr.valueAssigned : Option Expr → List String
  | none => []
  | some value => value.assigned

def Expr.allAssigned : List Expr → List String
  | [] => []
  | expr :: rest => expr.assigned ++ Expr.allAssigned rest

def Expr.pairsAssigned : List (Expr × Expr) → List String
  | [] => []
  | (key, value) :: rest => key.assigned ++ value.assigned ++ Expr.pairsAssigned rest

def Statement.assigned : Statement → List String
  | .binding _ name value => name.name :: Expr.valueAssigned value
  | .giveBack _ value | .expression _ value => Expr.valueAssigned value
  | .block body => body.assigned

def Statement.allAssigned : List Statement → List String
  | [] => []
  | statement :: rest => statement.assigned ++ Statement.allAssigned rest

def Block.assigned : Block → List String
  | ⟨_, statements⟩ => Statement.allAssigned statements

def Block.alternativeAssigned : Option Block → List String
  | none => []
  | some block => block.assigned

end

def Node.assigned : Node → List String
  | .program tree => Statement.allAssigned tree.statements
  | .statement tree => tree.assigned
  | .expression tree => tree.assigned

namespace Store

/-- All scopes of one store are in a later one as they were. -/
def Extends (before after : Store) : Prop :=
  ∀ number found, before.scope? number = some found → after.scope? number = some found

/-- All scopes of one store are in a later one as they were, but that one of them may bind some
names anew. -/
structure Frame (scope : Nat) (names : List String) (before after : Store) : Prop where
  others : ∀ number found, number ≠ scope →
    before.scope? number = some found → after.scope? number = some found
  own : ∀ found, before.scope? scope = some found →
    ∃ later, after.scope? scope = some later ∧ later.parent = found.parent ∧
      ∀ name ∉ names, later.bindings.lookup name = found.bindings.lookup name

variable {scope : Nat} {names : List String} {before middle after : Store}

namespace Extends

theorem refl (store : Store) : store.Extends store := fun _ _ => id

theorem trans (first : before.Extends middle) (second : middle.Extends after) :
    before.Extends after :=
  fun number found same => second number found (first number found same)

theorem frame (extend : before.Extends after) : before.Frame scope names after where
  others number found _ := extend number found
  own found same := ⟨found, extend scope found same, rfl, fun _ _ => rfl⟩

end Extends

namespace Frame

theorem refl (store : Store) : store.Frame scope names store := (Extends.refl store).frame

theorem trans (first : before.Frame scope names middle) (second : middle.Frame scope names after) :
    before.Frame scope names after where
  others number found other same :=
    second.others number found other (first.others number found other same)
  own found same := by
    obtain ⟨between, same, parent, kept⟩ := first.own found same
    obtain ⟨later, same, parent', kept'⟩ := second.own between same
    exact ⟨later, same, parent'.trans parent,
      fun name free => (kept' name free).trans (kept name free)⟩

end Frame

theorem frame_bind (store : Store) (value : Value) {name : String} (listed : name ∈ names) :
    store.Frame scope names (store.bind scope name value) where
  others number found other same := by rw [scope?_bind, if_neg other, same]
  own found same := by
    refine ⟨found.bind name value, by rw [scope?_bind, if_pos rfl, same]; rfl, rfl, ?_⟩
    intro free unlisted
    have different : free ≠ name := fun same => unlisted (same ▸ listed)
    exact (Scope.lookup_assign name free value found.bindings).trans (if_neg different)

theorem extends_opened (store : Store) (parent : Option Nat) :
    store.Extends (store.opened parent) := by
  intro number found same
  have other : number ≠ store.size := Nat.ne_of_lt (lt_size same)
  rw [scope?_opened, if_neg other]
  exact same

/-- What is only done in a new scope leaves all older ones as they were. -/
theorem Extends.inside (extend : before.Extends middle) (fresh : before.size ≤ scope)
    (frame : middle.Frame scope names after) : before.Extends after := by
  intro number found same
  have older := Nat.lt_of_lt_of_le (lt_size same) fresh
  exact frame.others number found (Nat.ne_of_lt older) (extend number found same)

theorem frame_bindAll (store : Store) (bindings : List (String × Value))
    (listed : ∀ binding ∈ bindings, binding.1 ∈ names) :
    store.Frame scope names (store.bindAll scope bindings) := by
  induction bindings generalizing store with
  | nil => exact .refl store
  | cons first rest ih =>
    have bound : store.Frame scope names (store.bind scope first.1 first.2) :=
      store.frame_bind first.2 (listed first List.mem_cons_self)
    exact bound.trans (ih _ fun binding member => listed binding (List.mem_cons_of_mem _ member))

/-- A new scope with its bindings. -/
theorem extends_enter (store : Store) (parent : Option Nat) (bindings : List (String × Value)) :
    store.Extends ((store.opened parent).bindAll store.size bindings) := by
  have frame : (store.opened parent).Frame store.size (bindings.map Prod.fst)
      ((store.opened parent).bindAll store.size bindings) :=
    frame_bindAll _ bindings fun _ member => List.mem_map_of_mem member
  exact (store.extends_opened parent).inside (Nat.le_refl _) frame

end Store

/-- A relation between a store and the later ones that an evaluation leads to. -/
class Lasting (keeps : Store → Store → Prop) : Prop where
  refl : ∀ store, keeps store store
  trans : ∀ {before middle after}, keeps before middle → keeps middle after → keeps before after

instance : Lasting Store.Extends := ⟨.refl, .trans⟩

instance (scope : Nat) (names : List String) : Lasting (Store.Frame scope names) := ⟨.refl, .trans⟩

/-! Evaluations that do not write to any scope. -/

namespace Evaluation

/-- The state that an evaluation leaves, whether it has a value or not. -/
def after {α : Type} (evaluation : Evaluation α) (state : State) : State :=
  match evaluation state with
  | .ok _ later | .error _ later => later

def Quiet {α : Type} (evaluation : Evaluation α) : Prop :=
  ∀ state, (evaluation.after state).store = state.store

theorem quiet_settle (value : Value) : Quiet (settle value) := by
  intro state
  cases value <;> rfl

theorem quiet_fault {α : Type} (cause : Fault) : Quiet (fault cause : Evaluation α) := fun _ => rfl

theorem quiet_answer (result : Except Fault Value) : Quiet (answer result) := by
  cases result with
  | ok value => exact quiet_settle value
  | error cause => exact quiet_fault cause

theorem quiet_follow (event : Event) : Quiet (follow event) := fun _ => rfl

/-- To look at the state is to leave it alone. -/
theorem Quiet.get {α : Type} {next : State → Evaluation α} (others : ∀ state, Quiet (next state)) :
    Quiet (MonadState.get >>= next) :=
  fun state => others state state

theorem quiet_resolve (scope : Nat) (name : String) : Quiet (resolve scope name) := by
  unfold resolve
  refine .get fun state => ?_
  split
  · exact quiet_settle _
  · split
    · exact fun _ => rfl
    · exact quiet_fault _

theorem Quiet.bind {α β : Type} {first : Evaluation α} {next : α → Evaluation β}
    (start : Quiet first) (others : ∀ value, Quiet (next value)) : Quiet (first >>= next) := by
  intro state
  have reached := start state
  unfold after at reached ⊢
  change (match EStateM.bind first next state with
    | .ok _ later | .error _ later => later).store = state.store
  unfold EStateM.bind
  cases outcome : first state with
  | ok value later =>
    rw [outcome] at reached
    exact (others value later).trans reached
  | error stop later =>
    rw [outcome] at reached
    exact reached

theorem quiet_printAll (values : List Value) : Quiet (Builtin.printAll values) := by
  induction values with
  | nil => exact fun _ => rfl
  | cons value others ih => exact Quiet.bind (fun _ => rfl) fun _ => ih

theorem quiet_apply (builtin : Builtin) (arguments : List Value) :
    Quiet (builtin.apply arguments) := by
  cases builtin with
  | puts => exact (quiet_printAll arguments).bind fun _ _ => rfl
  | _ => exact quiet_answer _

end Evaluation

/-- The state at the time of a visit. -/
def Visit.state : Visit → State
  | begins _ state | ends _ _ state => state

namespace Watched

variable {α β : Type} {keeps : Store → Store → Prop}

/-- At every moment of an evaluation that is noted, and at its end, the store is kept in this way
since the beginning. -/
def Stays (keeps : Store → Store → Prop) (watched : Watched α) : Prop :=
  ∀ watch, keeps watch.state.store (watched.leaves watch).state.store ∧
    ∀ visit ∈ (watched.leaves watch).visits,
      visit ∈ watch.visits ∨ keeps watch.state.store visit.state.store

theorem leaves_plainly (evaluation : Evaluation α) (watch : Watch) :
    (plainly evaluation).leaves watch = ⟨evaluation.after watch.state, watch.visits⟩ := by
  unfold leaves plainly after
  cases evaluation watch.state <;> rfl

namespace Stays

theorem mono {kept : Store → Store → Prop} {watched : Watched α} (stays : Stays keeps watched)
    (weaker : ∀ before after, keeps before after → kept before after) : Stays kept watched :=
  fun watch => ⟨weaker _ _ (stays watch).1,
    fun visit member => ((stays watch).2 visit member).imp_right (weaker _ _)⟩

theorem plainly {evaluation : Evaluation α}
    (keep : ∀ state, keeps state.store (evaluation.after state).store) :
    Stays keeps (plainly evaluation) := by
  intro watch
  rw [leaves_plainly]
  exact ⟨keep watch.state, fun _ => .inl⟩

variable [Lasting keeps]

theorem pure (value : α) : Stays keeps (Pure.pure value : Watched α) :=
  fun watch => ⟨Lasting.refl watch.state.store, fun _ => .inl⟩

theorem throw (stop : Stop) : Stays keeps (MonadExcept.throw stop : Watched α) :=
  fun watch => ⟨Lasting.refl watch.state.store, fun _ => .inl⟩

theorem quiet {evaluation : Evaluation α} (quiet : evaluation.Quiet) :
    Stays keeps (Watched.plainly evaluation) :=
  .plainly fun state => by rw [quiet state]; exact Lasting.refl state.store

theorem visit {watched : Watched Value} (task : Task) (inner : Stays keeps watched) :
    Stays keeps (visit task watched) := by
  intro watch
  have begun := inner ⟨watch.state, .begins task watch.state :: watch.visits⟩
  generalize reached : watched.leaves ⟨watch.state, .begins task watch.state :: watch.visits⟩ =
    later at begun
  obtain ⟨kept, seen⟩ := begun
  have noted : ∃ ending, (Watched.visit task watched).leaves watch =
      ⟨later.state, .ends task ending later.state :: later.visits⟩ := by
    unfold leaves at reached ⊢
    cases outcome : watched ⟨watch.state, .begins task watch.state :: watch.visits⟩ <;>
      rw [outcome] at reached <;> subst reached
    · exact ⟨_, by rw [visit_of_ok outcome]⟩
    · exact ⟨_, by rw [visit_of_error outcome]⟩
  obtain ⟨ending, noted⟩ := noted
  rw [noted]
  refine ⟨kept, List.forall_mem_cons.mpr ⟨.inr kept, fun visit member => ?_⟩⟩
  rcases seen visit member with member | kept
  · rcases List.mem_cons.mp member with rfl | member
    · exact .inr (Lasting.refl watch.state.store)
    · exact .inl member
  · exact .inr kept

/-- What holds since the beginning holds on from wherever the first part led. -/
theorem bind {first : Watched α} {next : α → Watched β} (start : Stays keeps first)
    (others : ∀ value, Stays keeps (next value)) : Stays keeps (first >>= next) := by
  intro watch
  obtain ⟨kept, seen⟩ := start watch
  cases outcome : first watch with
  | error stop later =>
    have whole : (first >>= next).leaves watch = later := leaves_of_error (bind_of_error outcome)
    rw [leaves_of_error outcome] at kept seen
    rw [whole]
    exact ⟨kept, seen⟩
  | ok value later =>
    have whole : (first >>= next).leaves watch = (next value).leaves later := by
      unfold leaves
      rw [bind_of_ok outcome]
    rw [leaves_of_ok outcome] at kept seen
    rw [whole]
    obtain ⟨kept', seen'⟩ := others value later
    refine ⟨Lasting.trans kept kept', fun visit member => ?_⟩
    rcases seen' visit member with member | kept'
    · exact seen visit member
    · exact .inr (Lasting.trans kept kept')

/-- What goes on in a scope of its own is not seen in the scopes that were there before. -/
theorem enter {parent : Option Nat} {bindings : List (String × Value)} {next : Nat → Watched β}
    {names : List String} (inside : ∀ inner, Stays (Store.Frame inner names) (next inner)) :
    Stays Store.Extends (Watched.plainly (Evaluation.enter parent bindings) >>= next) := by
  intro watch
  let store := watch.state.store
  have opened := store.extends_enter parent bindings
  obtain ⟨kept, seen⟩ := inside store.size ⟨{ watch.state with
    store := (store.opened parent).bindAll store.size bindings }, watch.visits⟩
  refine ⟨opened.inside (Nat.le_refl _) kept, fun visit member => ?_⟩
  exact (seen visit member).imp_right (opened.inside (Nat.le_refl _))

end Stays
end Watched

/-! The induction over the syntax. A call is taken to change no scope. -/

section
variable {watching : Value → List Value → Watched Value}
variable (calls : ∀ callee arguments, (watching callee arguments).Stays Store.Extends)
variable {scope : Nat} {names : List String}
include calls

set_option linter.unusedSectionVars false

mutual

theorem Expr.stays : ∀ expr : Expr, expr.assigned ⊆ names →
    (expr.watch watching scope).Stays (Store.Frame scope names)
  | .identifier name, _ => .quiet (quiet_resolve scope name.name)
  | .integer _ _, _ | .boolean _ _, _ | .string _ _, _ | .function _ _ _, _ => .pure _
  | .unary _ _ right, within =>
    .bind (.visit _ (Expr.stays right within)) fun _ => .quiet (quiet_answer _)
  | .binary _ left _ right, within => by
    obtain ⟨first, second⟩ := List.append_subset.mp within
    refine .bind (.visit _ (Expr.stays left first)) fun _ => ?_
    refine .bind (.visit _ (Expr.stays right second)) fun _ => ?_
    exact .quiet (quiet_answer _)
  | .conditional _ condition consequence alternative, within => by
    obtain ⟨within, third⟩ := List.append_subset.mp within
    obtain ⟨first, second⟩ := List.append_subset.mp within
    refine .bind (.visit _ (Expr.stays condition first)) fun value => ?_
    refine .bind (.quiet (quiet_follow _)) fun _ => ?_
    split
    · exact .visit _ (Block.stays false consequence second)
    · exact Block.staysAlternative alternative third
  | .call _ callee arguments, within => by
    obtain ⟨first, second⟩ := List.append_subset.mp within
    refine .bind (.visit _ (Expr.stays callee first)) fun _ => ?_
    refine .bind (Expr.staysAll arguments second) fun _ => ?_
    exact .visit _ ((calls _ _).mono fun _ _ extend => extend.frame)
  | .array _ elements, within => .bind (Expr.staysAll elements within) fun _ => .pure _
  | .hash _ pairs, within => .bind (Expr.staysPairs [] pairs within) fun _ => .pure _
  | .index _ left position, within => by
    obtain ⟨first, second⟩ := List.append_subset.mp within
    refine .bind (.visit _ (Expr.stays left first)) fun _ => ?_
    refine .bind (.visit _ (Expr.stays position second)) fun _ => ?_
    exact .quiet (quiet_answer _)
  | .slice _ left lower upper, within => by
    obtain ⟨within, third⟩ := List.append_subset.mp within
    obtain ⟨first, second⟩ := List.append_subset.mp within
    refine .bind (.visit _ (Expr.stays left first)) fun _ => ?_
    refine .bind (Expr.staysBound lower second) fun _ => ?_
    refine .bind (Expr.staysBound upper third) fun _ => ?_
    exact .quiet (quiet_answer _)
  | .unknown, _ => .throw _

theorem Expr.staysBound : ∀ bound : Option Expr, Expr.valueAssigned bound ⊆ names →
    (Expr.watchBound watching scope bound).Stays (Store.Frame scope names)
  | none, _ => .pure _
  | some bound, within => .bind (.visit _ (Expr.stays bound within)) fun _ => .pure _

theorem Expr.staysAll : ∀ list : List Expr, Expr.allAssigned list ⊆ names →
    (Expr.watchAll watching scope list).Stays (Store.Frame scope names)
  | [], _ => .pure _
  | expr :: rest, within => by
    obtain ⟨first, second⟩ := List.append_subset.mp within
    refine .bind (.visit _ (Expr.stays expr first)) fun _ => ?_
    exact .bind (Expr.staysAll rest second) fun _ => .pure _

theorem Expr.staysPairs (entries : List (Entry Value)) : ∀ list : List (Expr × Expr),
    Expr.pairsAssigned list ⊆ names →
      (Expr.watchPairs watching scope entries list).Stays (Store.Frame scope names)
  | [], _ => .pure _
  | (key, value) :: rest, within => by
    obtain ⟨within, third⟩ := List.append_subset.mp within
    obtain ⟨first, second⟩ := List.append_subset.mp within
    refine .bind (.visit _ (Expr.stays key first)) fun key => ?_
    cases key.hashKey? with
    | none => exact .quiet (quiet_fault _)
    | some hashKey =>
      refine .bind (.visit _ (Expr.stays value second)) fun _ => ?_
      exact Expr.staysPairs _ rest third

theorem Statement.stays : ∀ statement : Statement, statement.assigned ⊆ names →
    (statement.watch watching scope).Stays (Store.Frame scope names)
  | .binding _ name value, within => by
    obtain ⟨listed, within⟩ := List.cons_subset.mp within
    refine .bind (Expr.staysOrNull value within) fun value => ?_
    refine .bind (.plainly fun state => ?_) fun _ => ?_
    · exact state.store.frame_bind value listed
    · exact .bind (.quiet (quiet_follow _)) fun _ => .pure _
  | .giveBack _ value, within => .bind (Expr.staysOrNull value within) fun _ => .pure _
  | .expression _ value, within => Expr.staysOrNull value within
  | .block body, within => .visit _ (Block.stays false body within)

theorem Expr.staysOrNull : ∀ value : Option Expr, Expr.valueAssigned value ⊆ names →
    (Expr.watchOrNull watching scope value).Stays (Store.Frame scope names)
  | none, _ => .pure _
  | some expr, within => .visit _ (Expr.stays expr within)

theorem Statement.staysAll (direct : Bool) (last : Value) : ∀ list : List Statement,
    Statement.allAssigned list ⊆ names →
      (Statement.watchAll watching scope direct last list).Stays (Store.Frame scope names)
  | [], _ => .pure _
  | statement :: rest, within => by
    obtain ⟨first, second⟩ := List.append_subset.mp within
    refine .bind (.visit _ (Statement.stays statement first)) fun value => ?_
    have others := fun last => Statement.staysAll direct last rest second
    -- A statement that gives back ends the list: of the rest nothing is run.
    cases value with
    | returned value => exact .pure _
    | _ => exact others _

theorem Block.stays (direct : Bool) : ∀ block : Block, block.assigned ⊆ names →
    (block.watch watching scope direct).Stays (Store.Frame scope names)
  | ⟨_, statements⟩, within => Statement.staysAll direct .null statements within

theorem Block.staysAlternative : ∀ block : Option Block,
    Block.alternativeAssigned block ⊆ names →
      (Block.watchAlternative watching scope block).Stays (Store.Frame scope names)
  | none, _ => .pure _
  | some block, within => .visit _ (Block.stays false block within)

end

end

/-- A call changes no scope, by induction on how deep calls may nest. -/
theorem watchWithin_stays (depth : Nat) (callee : Value) (arguments : List Value) :
    (watchWithin depth callee arguments).Stays Store.Extends := by
  induction depth generalizing callee arguments with
  | zero =>
    cases callee with
    | function parameters body scope =>
      unfold watchWithin
      split
      · exact .quiet (quiet_fault _)
      · exact .throw _
    | builtin builtin =>
      exact .bind (.quiet (quiet_follow _)) fun _ => .quiet (quiet_apply builtin arguments)
    | _ => exact .quiet (quiet_fault _)
  | succ depth ih =>
    cases callee with
    | function parameters body scope =>
      unfold watchWithin
      split
      · exact .quiet (quiet_fault _)
      · refine .bind (.quiet (quiet_follow _)) fun _ => ?_
        refine Watched.Stays.enter
          (?inside : ∀ inner, Watched.Stays (Store.Frame inner body.assigned) _)
        intro inner
        refine .bind (.visit _ ?_) fun _ => .quiet (quiet_settle _)
        exact Block.stays ih true body (List.Subset.refl _)
    | builtin builtin =>
      exact .bind (.quiet (quiet_follow _)) fun _ => .quiet (quiet_apply builtin arguments)
    | _ => exact .quiet (quiet_fault _)

theorem Node.stays (depth scope : Nat) (node : Node) :
    (node.watch depth scope).Stays (Store.Frame scope node.assigned) := by
  have calls := watchWithin_stays depth
  cases node with
  | program tree =>
    exact .bind (Statement.staysAll calls true .null tree.statements (List.Subset.refl _)) fun _ =>
      .pure _
  | statement tree => exact Statement.stays calls tree (List.Subset.refl _)
  | expression tree => exact Expr.stays calls tree (List.Subset.refl _)

/-- The plain evaluation leaves the state that the watched one does. -/
theorem Watched.Forgets.finish {watched : Watched Value} {evaluation : Evaluation Value}
    (forgets : watched.Forgets evaluation) (watch : Watch) :
    (evaluation.finish watch.state).2 = (watched.leaves watch).state := by
  unfold Evaluation.finish leaves
  rw [← forgets watch]
  cases watched watch with
  | ok value later => rfl
  | error stop later => cases stop <;> rfl

/-- Only the current scope is written to, and there only the names that the tree binds itself: at
the end, however the evaluation ends, and at every moment noted on the way. A call writes to no
scope that was there before it. -/
theorem writes_only_current_scope (depth scope : Nat) (node : Node) (state : State) :
    (state.store.Frame scope node.assigned ((node.evaluate depth scope).finish state).2.store ∧
      ∀ visit ∈ node.visits depth scope state,
        state.store.Frame scope node.assigned visit.state.store) ∧
    ∀ callee arguments,
      state.store.Extends ((applyWithin depth callee arguments).finish state).2.store ∧
        ∀ visit ∈ ((watchWithin depth callee arguments).leaves ⟨state, []⟩).visits,
          state.store.Extends visit.state.store := by
  constructor
  · obtain ⟨kept, seen⟩ := node.stays depth scope ⟨state, []⟩
    refine ⟨?_, fun visit member => ?_⟩
    · rw [(node.forgets depth scope).finish ⟨state, []⟩]
      exact kept
    · exact (seen visit (List.mem_reverse.mp member)).resolve_left List.not_mem_nil
  · intro callee arguments
    obtain ⟨kept, seen⟩ := watchWithin_stays depth callee arguments ⟨state, []⟩
    refine ⟨?_, fun visit member => ?_⟩
    · rw [(watchWithin_forgets depth callee arguments).finish ⟨state, []⟩]
      exact kept
    · exact (seen visit member).resolve_left List.not_mem_nil

end Monkey

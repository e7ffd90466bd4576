import Mathlib.Data.List.Forall2
import Monkey.Session

/-!
What an evaluation leaves behind besides its result. It reads the store and nothing else of the
state; the lines it prints and the events it goes through are added to those before. So how much of
them is followed, and where to, cannot be noticed by a program.
-/

namespace Monkey

open Evaluation

namespace Trace

def followAll (trace : Trace) (events : List Event) : Trace := events.foldl follow trace

/-- All events of a trace, the earliest first. -/
def events (trace : Trace) : List Event := trace.recorded.reverse ++ trace.shown.reverse

end Trace

/-- What comes of an evaluation: how it ends, the store it leaves, the lines it prints, the latest
first, and the events it goes through, the earliest first. -/
structure Effect (α : Type) where
  outcome : Except Stop α
  store : Store
  lines : List String
  events : List Event

namespace Effect

variable {α β : Type}

/-- The effect in a state with this output and trace. -/
def result (effect : Effect α) (output : List String) (trace : Trace) :
    EStateM.Result Stop State α :=
  let later : State := ⟨effect.store, effect.lines ++ output, trace.followAll effect.events⟩
  match effect.outcome with
  | .ok value => .ok value later
  | .error stop => .error stop later

/-- The effect of going on after the first one. -/
def before (first : Effect α) (second : Effect β) : Effect β :=
  ⟨second.outcome, second.store, second.lines ++ first.lines, first.events ++ second.events⟩

theorem result_before (first : Effect α) (second : Effect β) (output : List String)
    (trace : Trace) : (first.before second).result output trace =
      second.result (first.lines ++ output) (trace.followAll first.events) := by
  unfold result before Trace.followAll
  simp only [List.append_assoc, List.foldl_append]

end Effect

namespace Evaluation

variable {α β : Type}

/-- What comes of the evaluation depends on the store only. -/
def Logs (evaluation : Evaluation α) : Prop :=
  ∀ store, ∃ effect : Effect α, ∀ output trace,
    evaluation ⟨store, output, trace⟩ = effect.result output trace

namespace Logs

theorem pure (value : α) : Logs (Pure.pure value) :=
  fun store => ⟨⟨.ok value, store, [], []⟩, fun _ _ => rfl⟩

theorem throw (stop : Stop) : Logs (MonadExcept.throw stop : Evaluation α) :=
  fun store => ⟨⟨.error stop, store, [], []⟩, fun _ _ => rfl⟩

theorem bind {first : Evaluation α} {next : α → Evaluation β} (start : Logs first)
    (others : ∀ value, Logs (next value)) : Logs (first >>= next) := by
  intro store
  obtain ⟨effect, begun⟩ := start store
  obtain ⟨outcome, between, lines, events⟩ := effect
  cases outcome with
  | error stop =>
    refine ⟨⟨.error stop, between, lines, events⟩, fun output trace => ?_⟩
    change EStateM.bind first next _ = _
    unfold EStateM.bind
    rw [begun]
    rfl
  | ok value =>
    obtain ⟨further, ended⟩ := others value between
    refine ⟨Effect.before ⟨.ok value, between, lines, events⟩ further, fun output trace => ?_⟩
    change EStateM.bind first next _ = _
    unfold EStateM.bind
    rw [begun, Effect.result_before]
    exact ended _ _

theorem settle (value : Value) : Logs (settle value) := by
  cases value <;> first | exact .throw _ | exact .pure _

theorem fault (cause : Fault) : Logs (fault cause : Evaluation α) := .throw _

theorem answer (result : Except Fault Value) : Logs (answer result) := by
  cases result with
  | ok value => exact .settle value
  | error cause => exact .fault cause

theorem follow (event : Event) : Logs (follow event) :=
  fun store => ⟨⟨.ok (), store, [], [event]⟩, fun _ _ => rfl⟩

theorem print (line : String) : Logs (print line) :=
  fun store => ⟨⟨.ok (), store, [line], []⟩, fun _ _ => rfl⟩

theorem assign (scope : Nat) (name : String) (value : Value) :
    Logs (Evaluation.bind scope name value) :=
  fun store => ⟨⟨.ok (), store.bind scope name value, [], []⟩, fun _ _ => rfl⟩

theorem enter (parent : Option Nat) (bindings : List (String × Value)) :
    Logs (enter parent bindings) :=
  fun store => ⟨⟨.ok store.size, (store.opened parent).bindAll store.size bindings, [], []⟩,
    fun _ _ => rfl⟩

/-- Of the state only the store is looked at. -/
theorem get {next : State → Evaluation α}
    (others : ∀ store, ∃ inner, Logs inner ∧ ∀ output trace,
      next ⟨store, output, trace⟩ = inner) : Logs (MonadState.get >>= next) := by
  intro store
  obtain ⟨inner, logs, same⟩ := others store
  obtain ⟨effect, comes⟩ := logs store
  refine ⟨effect, fun output trace => ?_⟩
  rw [← comes, ← same output trace]
  rfl

theorem resolve (scope : Nat) (name : String) : Logs (resolve scope name) := by
  refine .get fun store => ⟨_, ?_, fun _ _ => by dsimp only⟩
  split
  · exact .settle _
  · split
    · exact .pure _
    · exact .fault _

theorem printAll (values : List Value) : Logs (Builtin.printAll values) := by
  induction values with
  | nil => exact .pure ()
  | cons value others ih => exact (Logs.print _).bind fun _ => ih

theorem apply (builtin : Builtin) (arguments : List Value) : Logs (builtin.apply arguments) := by
  cases builtin with
  | puts => exact (Logs.printAll arguments).bind fun _ => .pure _
  | _ => exact .answer _

end Logs
end Evaluation

section
variable {calling : Calling} (scope : Nat)
variable (calls : ∀ callee arguments, Logs (calling callee arguments))
include calls

set_option linter.unusedSectionVars false

mutual

theorem Expr.logs : ∀ expr : Expr, Logs (expr.evaluate calling scope)
  | .identifier _ => .resolve _ _
  | .integer _ _ | .boolean _ _ | .string _ _ | .function _ _ _ => .pure _
  | .unary _ _ right => .bind (Expr.logs right) fun _ => .answer _
  | .binary _ left _ right => .bind (Expr.logs left) fun _ =>
    .bind (Expr.logs right) fun _ => .answer _
  | .conditional _ condition consequence alternative => by
    refine .bind (Expr.logs condition) fun value => .bind (.follow _) fun _ => ?_
    split
    · exact Block.logs consequence
    · exact Block.logsAlternative alternative
  | .call _ callee arguments => .bind (Expr.logs callee) fun _ =>
    .bind (Expr.logsAll arguments) fun _ => calls _ _
  | .array _ elements => .bind (Expr.logsAll elements) fun _ => .pure _
  | .hash _ pairs => .bind (Expr.logsPairs [] pairs) fun _ => .pure _
  | .index _ left position => .bind (Expr.logs left) fun _ =>
    .bind (Expr.logs position) fun _ => .answer _
  | .slice _ left lower upper => .bind (Expr.logs left) fun _ =>
    .bind (Expr.logsBound lower) fun _ => .bind (Expr.logsBound upper) fun _ => .answer _
  | .unknown => .throw _

theorem Expr.logsBound : ∀ bound : Option Expr, Logs (Expr.evaluateBound calling scope bound)
  | none => .pure _
  | some bound => .bind (Expr.logs bound) fun _ => .pure _

theorem Expr.logsAll : ∀ list : List Expr, Logs (Expr.evaluateAll calling scope list)
  | [] => .pure _
  | expr :: rest => .bind (Expr.logs expr) fun _ => .bind (Expr.logsAll rest) fun _ => .pure _

theorem Expr.logsPairs (entries : List (Entry Value)) :
    ∀ list : List (Expr × Expr), Logs (Expr.evaluatePairs calling scope entries list)
  | [] => .pure _
  | (key, value) :: rest => by
    refine .bind (Expr.logs key) fun key => ?_
    cases key.hashKey? with
    | none => exact .fault _
    | some hashKey => exact .bind (Expr.logs value) fun _ => Expr.logsPairs _ rest

theorem Statement.logs : ∀ statement : Statement, Logs (statement.evaluate calling scope)
  | .binding _ _ value => .bind (Expr.logsOrNull value) fun _ => .bind (.assign _ _ _) fun _ =>
    .bind (.follow _) fun _ => .pure _
  | .giveBack _ value => .bind (Expr.logsOrNull value) fun _ => .pure _
  | .expression _ value => Expr.logsOrNull value
  | .block body => Block.logs body

theorem Expr.logsOrNull : ∀ value : Option Expr, Logs (Expr.evaluateOrNull calling scope value)
  | none => .pure _
  | some expr => Expr.logs expr

theorem Statement.logsAll (last : Value) :
    ∀ list : List Statement, Logs (Statement.evaluateAll calling scope last list)
  | [] => .pure _
  | statement :: rest => by
    refine .bind (Statement.logs statement) fun value => ?_
    split
    · exact .pure _
    · exact Statement.logsAll _ rest

theorem Block.logs : ∀ block : Block, Logs (block.evaluate calling scope)
  | ⟨_, statements⟩ => Statement.logsAll _ statements

theorem Block.logsAlternative :
    ∀ alternative : Option Block, Logs (Block.evaluateAlternative calling scope alternative)
  | none => .pure _
  | some block => Block.logs block

end

end

theorem applyWithin_logs (depth : Nat) :
    ∀ callee arguments, Logs (applyWithin depth callee arguments) := by
  induction depth with
  | zero =>
    intro callee arguments
    unfold applyWithin
    split
    · split
      · exact .fault _
      · exact .throw _
    · exact .bind (.follow _) fun _ => .apply _ _
    · exact .fault _
  | succ depth ih =>
    intro callee arguments
    unfold applyWithin
    split
    · split
      · exact .fault _
      · exact .bind (.follow _) fun _ => .bind (.enter _ _) fun inner =>
          .bind (Block.logs inner ih _) fun _ => .settle _
    · exact .bind (.follow _) fun _ => .apply _ _
    · exact .fault _

theorem Node.logs (depth scope : Nat) (node : Node) : Logs (node.evaluate depth scope) := by
  have calls := applyWithin_logs depth
  cases node with
  | program tree =>
    exact .bind (Statement.logsAll scope calls .null tree.statements) fun _ => .pure _
  | statement tree => exact tree.logs scope calls
  | expression tree => exact tree.logs scope calls

/-! Sessions. -/

/-- A session runs parts of syntax trees and may end its trace file, once or several times. -/
inductive Step where
  | run (node : Node)
  | close

namespace Step

def runs : Step → Bool
  | run _ => true
  | close => false

end Step

/-- How the runs of a session end, each with the session that it leaves. -/
def Session.perform (depth : Nat) (session : Session) : List Step → List (Ending × Session)
  | [] => []
  | .run node :: rest =>
    let outcome := session.run depth node
    outcome :: outcome.2.perform depth rest
  | .close :: rest => session.close.perform depth rest

/-- Two sessions with the same bindings and output whose traces are related. -/
structure Session.Matches (related : Trace → Trace → Prop) (session other : Session) : Prop where
  store : session.state.store = other.state.store
  output : session.state.output = other.state.output
  trace : related session.state.trace other.state.trace

/-- Two runs that end the same way in sessions that match. -/
def Session.MatchesAfter (related : Trace → Trace → Prop) (here there : Ending × Session) : Prop :=
  here.1 = there.1 ∧ here.2.Matches related there.2

namespace Trace

/-- What is kept when both traces follow an event. -/
def Follows (related : Trace → Trace → Prop) : Prop :=
  ∀ trace other event, related trace other → related (trace.follow event) (other.follow event)

theorem Follows.all {related : Trace → Trace → Prop} (follows : Follows related)
    (events : List Event) : ∀ trace other, related trace other →
      related (trace.followAll events) (other.followAll events) := by
  induction events with
  | nil => exact fun _ _ same => same
  | cons event events ih =>
    exact fun trace other same => ih _ _ (follows trace other event same)

end Trace

namespace Session

variable {related : Trace → Trace → Prop} {session other : Session}

theorem Matches.run (follows : Trace.Follows related) (depth : Nat) (node : Node)
    (same : session.Matches related other) :
    MatchesAfter related (session.run depth node) (other.run depth node) := by
  obtain ⟨⟨store, output, trace⟩⟩ := session
  obtain ⟨⟨store', output', trace'⟩⟩ := other
  obtain ⟨rfl, rfl, traces⟩ := same
  obtain ⟨⟨outcome, later, lines, events⟩, comes⟩ := node.logs depth root store
  have moved := follows.all events trace trace' traces
  unfold MatchesAfter Session.run Evaluation.finish
  simp only [comes]
  rcases outcome with (message | _ | _) | value <;> exact ⟨rfl, rfl, rfl, moved⟩

/-- The other session leaves out some of the closings. -/
theorem Matches.perform_filter (follows : Trace.Follows related) (depth : Nat)
    (chosen : Step → Bool) (runs : ∀ node, chosen (.run node) = true)
    (closes : ∀ trace other, related trace other →
      related trace.close (if chosen .close then other.close else other))
    (steps : List Step) (same : session.Matches related other) :
    List.Forall₂ (MatchesAfter related) (session.perform depth steps)
      (other.perform depth (steps.filter chosen)) := by
  induction steps generalizing session other with
  | nil => exact .nil
  | cons step rest ih =>
    cases step with
    | run node =>
      rw [List.filter_cons_of_pos (runs node)]
      have ran := same.run follows depth node
      exact .cons ran (ih ran.2)
    | close =>
      have closed := closes _ _ same.trace
      cases kept : chosen .close with
      | true =>
        rw [List.filter_cons_of_pos kept]
        rw [kept] at closed
        have stillSame : session.close.Matches related other.close :=
          ⟨same.store, same.output, closed⟩
        exact ih stillSame
      | false =>
        rw [List.filter_cons_of_neg (by rw [kept]; exact Bool.false_ne_true)]
        rw [kept] at closed
        exact ih ⟨same.store, same.output, closed⟩

theorem Matches.perform (follows : Trace.Follows related)
    (closes : ∀ trace other, related trace other → related trace.close other.close)
    (depth : Nat) (steps : List Step) (same : session.Matches related other) :
    List.Forall₂ (MatchesAfter related) (session.perform depth steps)
      (other.perform depth steps) := by
  have everyStep : steps.filter (fun _ => true) = steps := List.filter_true steps
  rw [← everyStep]
  nth_rewrite 1 [everyStep]
  exact same.perform_filter follows depth (fun _ => true) (fun _ => rfl) closes steps

theorem MatchesAfter.mono {stronger : Trace → Trace → Prop} {here there : Ending × Session}
    (weaker : ∀ trace other, stronger trace other → related trace other)
    (same : MatchesAfter stronger here there) : MatchesAfter related here there :=
  ⟨same.1, same.2.store, same.2.output, weaker _ _ same.2.trace⟩

end Session

/-- What is followed at a level: nothing, calls, bindings too, everything. -/
def Event.kept : Nat → Event → Bool
  | 0, _ => false
  | 1, call _ _ | 1, builtinCall _ _ => true
  | 1, _ => false
  | 2, condition _ => false
  | 2, _ => true
  | _, _ => true

theorem Event.kept_iff (level : Nat) (event : Event) :
    event.kept level = true ↔ event.level ≤ level := by
  rcases level with _ | _ | _ | level <;> cases event <;> simp [kept, Event.level]

namespace Trace

/-- The events of the first trace are those of the second one that the level asks for, in the same
order and the same places. -/
structure Selects (level : Nat) (trace whole : Trace) : Prop where
  recorded : trace.recorded = whole.recorded.filter (Event.kept level)
  shown : trace.shown = whole.shown.filter (Event.kept level)

/-- The first trace may have been closed, the second one was not. All events are in both. -/
structure Divides (trace whole : Trace) : Prop where
  events : trace.events = whole.events
  shown : whole.shown = []

theorem follow_of_kept {trace : Trace} {event : Event} (kept : event.kept trace.level = true) :
    trace.follow event =
      if trace.closed then { trace with shown := event :: trace.shown }
      else { trace with recorded := event :: trace.recorded } := by
  unfold follow
  rw [if_pos ((event.kept_iff _).mp kept)]

theorem follow_of_not_kept {trace : Trace} {event : Event}
    (dropped : ¬event.kept trace.level = true) : trace.follow event = trace := by
  unfold follow
  rw [if_neg (mt (event.kept_iff _).mpr dropped)]

/-- All events that the level asks for are added, in the file or on the console. -/
theorem followAll_eq (trace : Trace) (events : List Event) :
    trace.followAll events =
      if trace.closed then
        { trace with shown := (events.filter (Event.kept trace.level)).reverse ++ trace.shown }
      else
        { trace with
          recorded := (events.filter (Event.kept trace.level)).reverse ++ trace.recorded } := by
  induction events generalizing trace with
  | nil => split <;> rfl
  | cons event events ih =>
    obtain ⟨level, closed, recorded, shown⟩ := trace
    change followAll (follow _ event) events = _
    rw [ih]
    by_cases kept : event.kept level = true
    · rw [follow_of_kept kept, List.filter_cons_of_pos kept, List.reverse_cons]
      cases closed <;> simp
    · rw [follow_of_not_kept kept, List.filter_cons_of_neg kept]

/-- At the highest level everything is followed. -/
theorem followAll_start (events : List Event) :
    (start 3).followAll events = ⟨3, false, events.reverse, []⟩ := by
  have all : events.filter (Event.kept 3) = events :=
    List.filter_eq_self.mpr fun event _ => by cases event <;> rfl
  rw [followAll_eq]
  change mk 3 false ((events.filter (Event.kept 3)).reverse ++ []) [] = _
  rw [all, List.append_nil]

theorem follow_level (trace : Trace) (event : Event) :
    (trace.follow event).level = trace.level ∧ (trace.follow event).closed = trace.closed := by
  unfold follow
  split
  · split <;> exact ⟨rfl, rfl⟩
  · exact ⟨rfl, rfl⟩

theorem followAll_level (trace : Trace) (events : List Event) :
    (trace.followAll events).level = trace.level ∧
      (trace.followAll events).closed = trace.closed := by
  rw [followAll_eq]
  split <;> exact ⟨rfl, rfl⟩

/-- Two traces of one session, the first at `level`, the second with everything. -/
def Selecting (level : Nat) (trace whole : Trace) : Prop :=
  trace.level = level ∧ whole.level = 3 ∧ trace.closed = whole.closed ∧ trace.Selects level whole

theorem selecting_follows (level : Nat) : Follows (Selecting level) := by
  rintro ⟨level, closed, recorded, shown⟩ ⟨all, _, recorded', shown'⟩ event
    ⟨rfl, rfl, rfl, ⟨inFile, onConsole⟩⟩
  have everything : event.kept 3 = true := by cases event <;> rfl
  have followed : follow ⟨3, closed, recorded', shown'⟩ event = _ := follow_of_kept everything
  rw [followed]
  by_cases kept : event.kept level = true
  · have longer : ∀ {part all : List Event}, part = all.filter (Event.kept level) →
        event :: part = (event :: all).filter (Event.kept level) :=
      fun same => by rw [List.filter_cons_of_pos kept, ← same]
    rw [follow_of_kept kept]
    cases closed with
    | true => exact ⟨rfl, rfl, rfl, inFile, longer onConsole⟩
    | false => exact ⟨rfl, rfl, rfl, longer inFile, onConsole⟩
  · have unchanged : ∀ {part all : List Event}, part = all.filter (Event.kept level) →
        part = (event :: all).filter (Event.kept level) :=
      fun same => by rw [List.filter_cons_of_neg kept, ← same]
    rw [follow_of_not_kept kept]
    cases closed with
    | true => exact ⟨rfl, rfl, rfl, inFile, unchanged onConsole⟩
    | false => exact ⟨rfl, rfl, rfl, unchanged inFile, onConsole⟩

/-- Nothing is shown on the console before the trace is closed, so an event comes after all
others. -/
theorem events_follow {trace : Trace} {event : Event} (kept : event.kept trace.level = true)
    (unclosed : trace.closed = false → trace.shown = []) :
    (trace.follow event).events = trace.events ++ [event] := by
  obtain ⟨level, closed, recorded, shown⟩ := trace
  rw [follow_of_kept kept]
  cases closed with
  | true => simp [events]
  | false =>
    obtain rfl := unclosed rfl
    simp [events]

/-- Two traces at one level, of a session and of the same without any closing. -/
def Dividing (trace whole : Trace) : Prop :=
  trace.level = whole.level ∧ (trace.closed = false → trace.shown = []) ∧ whole.closed = false ∧
    trace.Divides whole

theorem dividing_follows : Follows Dividing := by
  rintro trace whole event ⟨sameLevel, unclosed, isOpen, ⟨all, empty⟩⟩
  by_cases kept : event.kept trace.level = true
  · have keptToo := sameLevel ▸ kept
    have longer : (trace.follow event).events = (whole.follow event).events := by
      rw [events_follow kept unclosed, events_follow keptToo fun _ => empty, all]
    rw [follow_of_kept kept, follow_of_kept keptToo, isOpen] at longer ⊢
    refine ⟨?_, ?_, rfl, longer, empty⟩
    · split <;> exact sameLevel
    · split
      · exact fun impossible => absurd (‹trace.closed = true›.symm.trans impossible) (by decide)
      · exact unclosed
  · rw [follow_of_not_kept kept, follow_of_not_kept (sameLevel ▸ kept)]
    exact ⟨sameLevel, unclosed, isOpen, all, empty⟩

/-- A trace with these events in its file, which has ended. -/
def Closed (recorded : List Event) (trace _ : Trace) : Prop :=
  trace.closed = true ∧ trace.recorded = recorded

theorem closed_follows (recorded : List Event) : Follows (Closed recorded) := by
  rintro ⟨level, _, _, shown⟩ _ event ⟨rfl, rfl⟩
  by_cases kept : event.kept level = true
  · rw [follow_of_kept kept]
    exact ⟨rfl, rfl⟩
  · rw [follow_of_not_kept kept]
    exact ⟨rfl, rfl⟩

end Trace

/-- Neither the level at which a session is followed nor the end of its trace file changes what its
runs give, print or bind. A level chooses among the events there are, and closing the trace file
only sends later events elsewhere. -/
theorem tracing_does_not_interfere (depth level other : Nat) (steps : List Step) :
    List.Forall₂ (Session.MatchesAfter fun _ _ => True)
        ((Session.start level).perform depth steps) ((Session.start other).perform depth steps) ∧
      List.Forall₂ (Session.MatchesAfter (Trace.Selects level))
        ((Session.start level).perform depth steps) ((Session.start 3).perform depth steps) ∧
      List.Forall₂ (Session.MatchesAfter Trace.Divides)
        ((Session.start level).perform depth steps)
        ((Session.start level).perform depth (steps.filter Step.runs)) ∧
      ∀ session : Session, ∀ run ∈ session.close.perform depth steps,
        run.2.state.trace.recorded = session.state.trace.recorded := by
  refine ⟨?_, ?_, ?_, fun session => ?_⟩
  · have begins : (Session.start level).Matches (fun _ _ => True) (Session.start other) :=
      ⟨rfl, rfl, trivial⟩
    exact begins.perform (fun _ _ _ _ => trivial) (fun _ _ _ => trivial) depth steps
  · have begins : (Session.start level).Matches (Trace.Selecting level) (Session.start 3) :=
      ⟨rfl, rfl, rfl, rfl, rfl, rfl, rfl⟩
    have ran := begins.perform (Trace.selecting_follows level)
      (fun _ _ ⟨here, there, _, same⟩ => ⟨here, there, rfl, same.recorded, same.shown⟩) depth steps
    exact ran.imp fun _ _ same => same.mono fun _ _ selecting => selecting.2.2.2
  · have begins : (Session.start level).Matches Trace.Dividing (Session.start level) :=
      ⟨rfl, rfl, rfl, fun _ => rfl, rfl, rfl, rfl⟩
    have ran := begins.perform_filter Trace.dividing_follows depth Step.runs (fun _ => rfl)
      (fun _ _ ⟨here, _, there, same⟩ =>
        ⟨here, fun impossible => (by cases impossible), there, same.events, same.shown⟩) steps
    exact ran.imp fun _ _ same => same.mono fun _ _ dividing => dividing.2.2.2
  · have begins : session.close.Matches (Trace.Closed session.state.trace.recorded) session.close :=
      ⟨rfl, rfl, rfl, rfl⟩
    have ran := begins.perform (Trace.closed_follows _) (fun _ _ same => ⟨rfl, same.2⟩) depth steps
    intro run member
    exact (List.forall₂_same.mp ran run member).2.trace.2

end Monkey

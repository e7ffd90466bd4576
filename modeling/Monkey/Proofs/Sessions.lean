import Monkey.Proofs.Joining
import Monkey.Proofs.Simulation
import Monkey.Proofs.Visits

/-!
A session and one program. What the programs of a session do one after the other, the text that is
made up of all of them does at once, as long as no program but the last stops before its end.
-/

namespace Monkey

open Evaluation

/-! Statements one after the other. -/

namespace Statement

variable {calling : Calling} {scope : Nat} {state middle later : State} {value : Value}
variable {statement : Statement} {statements rest : List Statement}

/-- The state that statements lead to one after the other. There is none where one of them stops
those after it: by an error, by calls nested too deeply, or as it gives a value back. -/
def runThrough? (calling : Calling) (scope : Nat) : List Statement → State → Option State
  | [], state => some state
  | statement :: rest, state =>
    match statement.evaluate calling scope state with
    | .ok (.returned _) _ | .error _ _ => none
    | .ok _ later => runThrough? calling scope rest later

theorem runThrough?_cons
    (through : runThrough? calling scope (statement :: rest) state = some later) :
    ∃ value middle, statement.evaluate calling scope state = .ok value middle ∧
      (∀ inner, value ≠ .returned inner) ∧ runThrough? calling scope rest middle = some later := by
  unfold runThrough? at through
  cases outcome : statement.evaluate calling scope state with
  | error stop middle =>
    rw [outcome] at through
    cases through
  | ok value middle =>
    rw [outcome] at through
    cases value with
    | returned => cases through
    | _ => exact ⟨_, middle, rfl, nofun, through⟩

theorem evaluateAll_cons (first : statement.evaluate calling scope state = .ok value middle)
    (kept : ∀ inner, value ≠ .returned inner) (last : Value) (rest : List Statement) :
    evaluateAll calling scope last (statement :: rest) state =
      evaluateAll calling scope value rest middle := by
  change (statement.evaluate calling scope >>= _) state = _
  rw [bind_of_ok first]
  cases value with
  | returned inner => exact absurd rfl (kept inner)
  | _ => rfl

theorem exists_evaluateAll (through : runThrough? calling scope statements state = some later)
    (last : Value) :
    ∃ value, evaluateAll calling scope last statements state = .ok value later := by
  induction statements generalizing state last with
  | nil =>
    obtain rfl := Option.some.inj through
    exact ⟨last, rfl⟩
  | cons statement rest ih =>
    obtain ⟨value, middle, first, kept, more⟩ := runThrough?_cons through
    rw [evaluateAll_cons first kept]
    exact ih more value

/-- Where statements run through, what comes after them runs as if it began there. -/
theorem evaluateAll_append (through : runThrough? calling scope statements state = some later)
    {more : List Statement} (some : more ≠ []) (last last' : Value) :
    evaluateAll calling scope last (statements ++ more) state =
      evaluateAll calling scope last' more later := by
  induction statements generalizing state last with
  | nil =>
    obtain rfl := Option.some.inj through
    obtain ⟨statement, more, rfl⟩ := List.exists_cons_of_ne_nil some
    rfl
  | cons statement rest ih =>
    obtain ⟨value, middle, first, kept, others⟩ := runThrough?_cons through
    rw [List.cons_append, evaluateAll_cons first kept]
    exact ih others value

theorem runThrough?_append (through : runThrough? calling scope statements state = some middle)
    (more : runThrough? calling scope rest middle = some later) :
    runThrough? calling scope (statements ++ rest) state = some later := by
  induction statements generalizing state with
  | nil =>
    obtain rfl := Option.some.inj through
    exact more
  | cons statement others ih =>
    obtain ⟨value, middle, first, kept, others⟩ := runThrough?_cons through
    rw [List.cons_append]
    unfold runThrough?
    rw [first]
    cases value with
    | returned inner => exact absurd rfl (kept inner)
    | _ => exact ih others

end Statement

/-! Sessions. -/

/-- Whether a text is a program. -/
def isProgram (source : String) : Bool := (parse source).accepted.isOk

theorem accepted_of_isProgram {source : String} (readable : isProgram source = true) :
    (parse source).accepted = .ok (parse source).program := by
  unfold isProgram at readable
  cases accepted : (parse source).accepted with
  | ok program => rw [(accepted_eq_ok.mp accepted).2.2]
  | error rejection =>
    rw [accepted] at readable
    cases readable

namespace Session

variable {depth : Nat} {session : Session} {text : String} {texts : List String}
variable {program : Program}

/-- Runs a text in a session. One that is no program is passed over. -/
def enter (depth : Nat) (session : Session) (source : String) : Option Ending × Session :=
  match (parse source).accepted with
  | .ok program =>
    let (ending, session) := session.run depth (.program program)
    (some ending, session)
  | .error _ => (none, session)

/-- Runs texts one after the other and tells how the programs among them end. -/
def enterAll (depth : Nat) (session : Session) : List String → List Ending × Session
  | [] => ([], session)
  | text :: rest =>
    let (ending, session) := session.enter depth text
    let (endings, session) := enterAll depth session rest
    (ending.toList ++ endings, session)

/-- Whether all texts are programs of which no statement stops those after it. -/
def runsThrough (depth : Nat) (session : Session) : List String → Bool
  | [] => true
  | text :: rest =>
    isProgram text && (Statement.runThrough? (applyWithin depth) root
        (parse text).program.statements session.state).isSome &&
      runsThrough depth (session.enter depth text).2 rest

theorem enter_of_accepted (accepted : (parse text).accepted = .ok program) :
    session.enter depth text =
      (some (session.run depth (.program program)).1,
        (session.run depth (.program program)).2) := by
  unfold enter
  rw [accepted]

theorem enter_of_not_isProgram (rejected : isProgram text = false) :
    session.enter depth text = (none, session) := by
  unfold isProgram at rejected
  unfold enter
  cases accepted : (parse text).accepted with
  | ok program =>
    rw [accepted] at rejected
    cases rejected
  | error rejection => rfl

/-- Texts that are no programs make no difference. -/
theorem enterAll_filter : session.enterAll depth (texts.filter isProgram) =
    session.enterAll depth texts := by
  induction texts generalizing session with
  | nil => rfl
  | cons text rest ih =>
    by_cases accepted : isProgram text = true
    · rw [List.filter_cons_of_pos accepted]
      simp only [enterAll, ih]
    · rw [List.filter_cons_of_neg accepted, ih]
      simp only [enterAll, enter_of_not_isProgram (Bool.eq_false_of_not_eq_true accepted)]
      rfl

theorem enterAll_append {others : List String} : session.enterAll depth (texts ++ others) =
    ((session.enterAll depth texts).1 ++ ((session.enterAll depth texts).2.enterAll depth others).1,
      ((session.enterAll depth texts).2.enterAll depth others).2) := by
  induction texts generalizing session with
  | nil => rfl
  | cons text rest ih => simp only [List.cons_append, enterAll, ih, List.append_assoc]

theorem run_of_evaluateAll {value : Value} {later : State}
    (outcome : Statement.evaluateAll (applyWithin depth) root .null program.statements
      session.state = .ok value later) :
    session.run depth (.program program) = (.value value.unwrapped, ⟨later⟩) := by
  have whole : Node.evaluate depth root (.program program) session.state =
      .ok value.unwrapped later := by
    change (Statement.evaluateAll (applyWithin depth) root .null program.statements >>= _)
      session.state = _
    rw [bind_of_ok outcome]
    rfl
  unfold run
  rw [finish_of_ok whole]

theorem run_of_cut_short {stop : Stop} {later : State}
    (outcome : Statement.evaluateAll (applyWithin depth) root .null program.statements
      session.state = .error stop later) :
    session.run depth (.program program) = (stop.ending, ⟨later⟩) := by
  have whole : Node.evaluate depth root (.program program) session.state = .error stop later :=
    bind_of_error outcome
  unfold run
  rw [finish_of_error whole]

/-- The session comes to the state that the statements lead to. -/
theorem run_of_runThrough? {later : State} (through : Statement.runThrough? (applyWithin depth) root
    program.statements session.state = some later) :
    (session.run depth (.program program)).2 = ⟨later⟩ := by
  obtain ⟨value, outcome⟩ := Statement.exists_evaluateAll through .null
  rw [run_of_evaluateAll outcome]

/-- After statements that run through, others run as in the session that is left. -/
theorem run_append {statements more : List Statement} {later : State}
    (through : Statement.runThrough? (applyWithin depth) root statements session.state = some later)
    (some : more ≠ []) : session.run depth (.program ⟨statements ++ more⟩) =
      run depth ⟨later⟩ (.program ⟨more⟩) := by
  have joined := Statement.evaluateAll_append through some .null .null
  have whole : Node.evaluate depth root (.program ⟨statements ++ more⟩) session.state =
      Node.evaluate depth root (.program ⟨more⟩) later := by
    change EStateM.bind (Statement.evaluateAll _ _ _ (statements ++ more)) _ session.state =
      EStateM.bind (Statement.evaluateAll _ _ _ more) _ later
    unfold EStateM.bind
    rw [joined]
  unfold run Evaluation.finish
  rw [whole]

/-- Programs that run through are the statements of all of them, one after the other. -/
theorem exists_of_runsThrough (through : session.runsThrough depth texts = true) :
    ∃ programs later,
      List.Forall₂ (fun text program => (parse text).accepted = .ok program) texts programs ∧
      Statement.runThrough? (applyWithin depth) root (programs.flatMap Program.statements)
        session.state = some later ∧
      (session.enterAll depth texts).2 = ⟨later⟩ := by
  induction texts generalizing session with
  | nil => exact ⟨[], session.state, .nil, rfl, rfl⟩
  | cons text rest ih =>
    simp only [runsThrough, Bool.and_eq_true, Option.isSome_iff_exists] at through
    obtain ⟨⟨readable, middle, first⟩, more⟩ := through
    have accepted := accepted_of_isProgram readable
    have reached : (session.enter depth text).2 = ⟨middle⟩ := by
      rw [enter_of_accepted accepted]
      exact run_of_runThrough? first
    obtain ⟨programs, later, rows, others, ended⟩ := ih more
    rw [reached] at others ended
    refine ⟨(parse text).program :: programs, later, .cons accepted rows, ?_, ?_⟩
    · rw [List.flatMap_cons]
      exact Statement.runThrough?_append first others
    · simp only [enterAll, reached, ended]

/-- The value of a name in the scope that the programs of a session share. -/
def binding? (session : Session) (name : String) : Option Value :=
  (session.state.store.scope? root).bind fun scope => scope.bindings.lookup name

/-- Two sessions that have bound the same, up to the places of functions in a text, and have printed
and traced the same. -/
structure Alike (session other : Session) : Prop where
  bindings : ∀ name, Option.Rel (Value.Alike Eq) (session.binding? name) (other.binding? name)
  printed : session.state.printed = other.state.printed
  traced : session.state.traced = other.state.traced
  shown : session.state.shown = other.state.shown

theorem biUnique_eq : Relator.BiUnique (Eq : Nat → Nat → Prop) :=
  ⟨fun _ _ _ first second => first.trans second.symm,
    fun _ _ _ first second => first.symm.trans second⟩

/-- Programs that agree, run in sessions that are alike. -/
theorem run_alike (depth : Nat) {session other : Session}
    (same : session.state.Alike Eq other.state) {program program' : Program}
    (agree : program.agrees program' = true) :
    (session.run depth (.program program)).1.Alike Eq (other.run depth (.program program')).1 ∧
      (session.run depth (.program program)).2.state.Alike Eq
        (other.run depth (.program program')).2.state :=
  (Program.together biUnique_eq depth rfl agree).finish same

theorem alike_of_states {session other : Session} (same : session.state.Alike Eq other.state) :
    session.Alike other where
  bindings name := by
    have roots := same.store.scope root root rfl
    unfold binding?
    generalize session.state.store.scope? root = scope, other.state.store.scope? root = scope' at *
    cases roots with
    | none => exact .none
    | some scopes => exact scopes.bindings name
  printed := same.printed_eq
  traced := same.traced_eq
  shown := same.shown_eq

/-- Running programs one after the other is running the text of all of them at once, if each but the
last ends in a semicolon and runs through. The last result is the same, and so is everything that
was bound, printed and traced. Texts that are no programs may stand between them in the session. -/
theorem session_is_one_program (depth level : Nat) (texts earlier : List String) (last : String)
    (programs : texts.filter isProgram = earlier ++ [last])
    (ends : ∀ text ∈ earlier, EndsInSemicolon text)
    (through : (Session.start level).runsThrough depth earlier = true)
    (some : (parse last).program.statements ≠ []) :
    ∃ endings ending session ending' session',
      (Session.start level).enterAll depth texts = (endings ++ [ending], session) ∧
      runText depth level (String.join (earlier ++ [last])) = .ok (ending', session') ∧
      ending.Alike Eq ending' ∧ session.Alike session' := by
  obtain ⟨trees, later, rows, reached, ended⟩ := exists_of_runsThrough through
  have readable : isProgram last = true :=
    List.of_mem_filter (programs ▸ List.mem_append_right earlier (List.mem_singleton_self last))
  have accepted := accepted_of_isProgram readable
  obtain ⟨tree, accepted', agree⟩ := exists_accepted_join ends rows accepted
  -- In the session the last program runs where the earlier ones have led.
  have session : (Session.start level).enterAll depth texts =
      (((Session.start level).enterAll depth earlier).1 ++
          [(run depth ⟨later⟩ (.program (parse last).program)).1],
        (run depth ⟨later⟩ (.program (parse last).program)).2) := by
    rw [← enterAll_filter, programs, enterAll_append, ended]
    simp only [enterAll, enter_of_accepted accepted]
    rfl
  have whole := runText_of_accepted accepted' depth level
  have started := Session.start_alike biUnique_eq (fun _ => rfl) level
  obtain ⟨endings, states⟩ := run_alike depth started agree
  rw [run_append reached some] at endings states
  exact ⟨_, _, _, _, _, session, whole, endings, alike_of_states states⟩

/-- Functions look their names up when they are called: a later program may bind what an earlier one
refers to, and bind it anew, with a text between them that is no program. -/
theorem session_with_rebinding :
    (Session.start 3).runsThrough callDepth
        ["let f = fn() \x7b a \x7d;", "let a = 1; f();", "let a = 2;"] = true ∧
    ∃ endings ending session ending' session',
      (Session.start 3).enterAll callDepth
          ["let f = fn() \x7b a \x7d;", "let a", "let a = 1; f();", "let a = 2;", "f()"] =
        (endings ++ [ending], session) ∧
      runText callDepth 3 (String.join
          (["let f = fn() \x7b a \x7d;", "let a = 1; f();", "let a = 2;"] ++ ["f()"])) =
        .ok (ending', session') ∧
      ending.Alike Eq ending' ∧ session.Alike session' := by
  have programs : ["let f = fn() \x7b a \x7d;", "let a", "let a = 1; f();", "let a = 2;",
      "f()"].filter isProgram =
      ["let f = fn() \x7b a \x7d;", "let a = 1; f();", "let a = 2;"] ++ ["f()"] := by cbv
  have ends : ∀ text ∈ ["let f = fn() \x7b a \x7d;", "let a = 1; f();", "let a = 2;"],
      EndsInSemicolon text := by
    unfold EndsInSemicolon
    simp only [List.forall_mem_cons]
    exact ⟨by cbv, by cbv, by cbv, fun _ member => absurd member List.not_mem_nil⟩
  have through : (Session.start 3).runsThrough callDepth
      ["let f = fn() \x7b a \x7d;", "let a = 1; f();", "let a = 2;"] = true := by cbv
  have some : (parse "f()").program.statements.isEmpty = false := by cbv
  exact ⟨through, session_is_one_program callDepth 3 _ _ _ programs ends through
    (List.isEmpty_eq_false_iff.mp some)⟩

end Session

end Monkey

import Monkey.Proofs.Effects
import Monkey.Proofs.Errors
import Monkey.Proofs.Respelling
import Monkey.Proofs.Safety
import Monkey.Proofs.Scopes
import Monkey.Proofs.Sessions
import Monkey.Proofs.Tracing

/-!
The shell and the session. Whatever lines a shell is given, it is in step with a session that runs
the programs among them and nothing else: its commands, blank lines and lines with problems leave no
mark on what is bound, and what it writes tells how the programs end.
-/

namespace Monkey

open Evaluation Text

/-! Problems are told in one line each. -/

/-- The text has no line feed in it. -/
def OneLine (text : String) : Prop := '\n' ∉ text.toList

instance (text : String) : Decidable (OneLine text) :=
  inferInstanceAs (Decidable ('\n' ∉ text.toList))

theorem OneLine.append {first second : String} (line : OneLine first) (line' : OneLine second) :
    OneLine (first ++ second) := by
  intro newline
  rw [String.toList_append] at newline
  exact (List.mem_append.mp newline).elim line line'

theorem TokenKind.name_oneLine (kind : TokenKind) : OneLine kind.name := by
  cases kind <;> decide

theorem Position.text_oneLine (place : Position) : OneLine place.text := by
  have digits (number : Nat) : OneLine (toString number) := by
    unfold OneLine
    rw [Nat.toString_eq_repr, Nat.toList_repr]
    intro member
    exact absurd (Nat.isDigit_of_mem_toDigits (by decide) (by decide) member) (by decide)
  have colon : OneLine ":" := by decide
  exact ((digits _).append colon).append (digits _)

theorem Lexeme.Spelled.isDigit_of_mem {lexeme : Lexeme} {rest : List Char}
    (spelled : lexeme.Spelled rest) (number : lexeme.kind = .int) :
    ∀ c ∈ lexeme.literal, isDigit c = true := by
  cases spelled with
  | number _ all => exact all
  | word => exact absurd number (TokenKind.lookup_keywords_ne (by decide) _)
  | symbol named => exact absurd number (TokenKind.ne_of_name named (by decide))
  | _ => cases number

theorem number_oneLine {source : String} {token : Token} (member : token ∈ tokenize source)
    (number : token.kind = .int) : OneLine token.literal := by
  have inside : token ∈ tokensIn source := mem_tokensIn member (by rw [number]; decide)
  obtain ⟨lexeme, rest, spelled, same⟩ := occurs_of_mem_tokensIn inside
  obtain ⟨kind, literal⟩ := Prod.mk.inj same
  unfold OneLine
  rw [literal, String.toList_ofList]
  intro newline
  exact absurd (spelled.isDigit_of_mem (kind.symm.trans number) _ newline) (by decide)

theorem Problem.message_oneLine (problem : Problem)
    (line : ∀ digits place, problem = .integerTooLarge digits place → OneLine digits) :
    OneLine problem.message := by
  have opening : OneLine "expected next token to be " ∧ OneLine ", got " ∧
      OneLine " instead at " := by decide +kernel
  have opening' : OneLine "no parse function for token kind " ∧ OneLine " at " := by decide +kernel
  have opening'' : OneLine "could not parse " ∧ OneLine " as integer at " := by decide +kernel
  cases problem with
  | unexpected expected other place =>
    exact ((((opening.1.append expected.name_oneLine).append opening.2.1).append
      other.name_oneLine).append opening.2.2).append place.text_oneLine
  | noExpression other place =>
    exact ((opening'.1.append other.name_oneLine).append opening'.2).append place.text_oneLine
  | integerTooLarge digits place =>
    exact ((opening''.1.append (line digits place rfl)).append opening''.2).append
      place.text_oneLine

/-- Each problem of a text is told in one line. -/
theorem problem_oneLine {source : String} {problem : Problem}
    (found : problem ∈ (parse source).problems) : OneLine problem.message := by
  refine problem.message_oneLine fun digits place same => ?_
  have ours : problem.ofInteger = true := by rw [same]; rfl
  obtain ⟨-, excess, -⟩ := parse_accounts source
  have listed := List.mem_filter.mpr ⟨found, ours⟩
  rw [excess, same] at listed
  obtain ⟨token, among, told⟩ := List.mem_map.mp listed
  obtain ⟨member, excessive⟩ := List.mem_filter.mp among
  simp only [Token.excessive, Bool.and_eq_true, decide_eq_true_eq] at excessive
  obtain ⟨rfl, -⟩ := Problem.integerTooLarge.inj told
  exact number_oneLine member excessive.1.1

/-! What a run adds to what was printed and traced before it. -/

namespace Trace

/-- Nothing that is followed is shown on the console. -/
def Quiet (trace : Trace) : Prop := trace.level = 0 ∨ trace.closed = false

theorem followAll_shown (trace : Trace) (events : List Event) :
    ∃ newer, (trace.followAll events).shown = newer ++ trace.shown ∧
      (trace.Quiet → newer = []) := by
  rw [followAll_eq]
  cases closed : trace.closed with
  | false => exact ⟨[], rfl, fun _ => rfl⟩
  | true =>
    refine ⟨_, rfl, fun quiet => ?_⟩
    have level : trace.level = 0 := quiet.resolve_right (by simp [closed])
    have nothing : events.filter (Event.kept 0) = [] :=
      List.filter_eq_nil_iff.mpr fun _ _ => Bool.false_ne_true
    rw [level, nothing, List.reverse_nil]

end Trace

namespace Session

theorem exists_effect (depth : Nat) (session : Session) (node : Node) : ∃ lines events,
    (session.run depth node).2.state.output = lines ++ session.state.output ∧
      (session.run depth node).2.state.trace = session.state.trace.followAll events := by
  obtain ⟨effect, comes⟩ := node.logs depth root session.state.store
  refine ⟨effect.lines, effect.events, ?_⟩
  unfold run
  rw [finish_of_effect comes]
  exact ⟨rfl, rfl⟩

/-- What a run has printed and shown stands after what was there before it. -/
theorem added_by_run (depth : Nat) (session : Session) (node : Node) :
    let later := (session.run depth node).2.state
    let added := later.since session.state
    later.printed = session.state.printed ++ added.printed ∧
      later.shown = session.state.shown ++ added.shown ∧
      (session.state.trace.Quiet → added.shown = "") := by
  obtain ⟨lines, events, output, trace⟩ := session.exists_effect depth node
  obtain ⟨newer, shown, silent⟩ := session.state.trace.followAll_shown events
  rw [← trace] at shown
  dsimp only
  unfold State.printed State.shown State.since Trace.since
  dsimp only
  rw [output, shown]
  simp only [List.length_append, Nat.add_sub_cancel, List.take_left, List.reverse_append,
    List.map_append, Text.lines_append, true_and]
  intro quiet
  rw [silent quiet]
  rfl

end Session

/-! Programs that are given up. -/

namespace Statement

variable {calling : Calling} {scope : Nat} {state later : State} {stop : Stop}

/-- Where statements are cut short, it is in one of them: those before it have run through. -/
theorem exists_cut_short {statements : List Statement} {last : Value}
    (cut : evaluateAll calling scope last statements state = .error stop later) :
    ∃ done failing rest middle, statements = done ++ failing :: rest ∧
      runThrough? calling scope done state = some middle ∧
      failing.evaluate calling scope middle = .error stop later := by
  induction statements generalizing state last with
  | nil => cases cut
  | cons statement rest ih =>
    cases outcome : statement.evaluate calling scope state with
    | error stop' later' =>
      have whole : evaluateAll calling scope last (statement :: rest) state =
          .error stop' later' := bind_of_error outcome
      obtain ⟨rfl, rfl⟩ := EStateM.Result.error.inj (whole.symm.trans cut)
      exact ⟨[], statement, rest, state, rfl, rfl, outcome⟩
    | ok value middle =>
      by_cases back : ∃ inner, value = .returned inner
      · obtain ⟨inner, rfl⟩ := back
        have whole : evaluateAll calling scope last (statement :: rest) state =
            .ok (.returned inner) middle := by
          change (statement.evaluate calling scope >>= _) state = _
          rw [bind_of_ok outcome]
          rfl
        cases whole.symm.trans cut
      · have kept : ∀ inner, value ≠ .returned inner := fun inner same => back ⟨inner, same⟩
        rw [evaluateAll_cons outcome kept] at cut
        obtain ⟨done, failing, others, between, rfl, through, failed⟩ := ih cut
        refine ⟨statement :: done, failing, others, between, rfl, ?_, failed⟩
        unfold runThrough?
        rw [outcome]
        cases value with
        | returned inner => exact absurd rfl (kept inner)
        | _ => exact through

end Statement

namespace Session

/-- What a session keeps of a program that is given up because its calls nest too deeply. The
statements before the one that failed have run, and what is bound after them stays, but for names
that the failing statement binds itself. Whatever part of the program failed, the session is left in
the state it was in there. -/
structure KeepsBindings (depth : Nat) (session later : Session) (program : Program) : Prop where
  earlier : ∃ done failing rest middle, program.statements = done ++ failing :: rest ∧
    Statement.runThrough? (applyWithin depth) root done session.state = some middle ∧
    failing.evaluate (applyWithin depth) root middle = .error .depthExceeded later.state ∧
    ∀ name ∉ failing.assigned, later.binding? name = (Session.mk middle).binding? name
  reached : ∀ task state, .ends task .depthExceeded state ∈
    (Node.program program).visits depth root session.state → later.state = state

/-- The session has its root scope. -/
def Rooted (session : Session) : Prop := ∃ scope, session.state.store.scope? root = some scope

theorem frame_run (depth : Nat) (session : Session) (node : Node) :
    session.state.store.Frame root node.assigned (session.run depth node).2.state.store := by
  have left := (node.stays depth root ⟨session.state, []⟩).1
  rw [← (node.forgets depth root).finish ⟨session.state, []⟩] at left
  exact left

theorem Rooted.run {session : Session} (rooted : session.Rooted) (depth : Nat) (node : Node) :
    (session.run depth node).2.Rooted := by
  obtain ⟨scope, found⟩ := rooted
  obtain ⟨later, kept, -⟩ := (session.frame_run depth node).own scope found
  exact ⟨later, kept⟩

theorem binding?_run {session : Session} (rooted : session.Rooted) (depth : Nat) (node : Node)
    {name : String} (free : name ∉ node.assigned) :
    (session.run depth node).2.binding? name = session.binding? name := by
  obtain ⟨scope, found⟩ := rooted
  obtain ⟨later, kept, -, same⟩ := (session.frame_run depth node).own scope found
  unfold binding?
  rw [found, kept]
  exact same name free

theorem evaluateAll_of_exceeded {depth : Nat} {session : Session} {program : Program}
    (exceeded : (session.run depth (.program program)).1 = .depthExceeded) :
    Statement.evaluateAll (applyWithin depth) root .null program.statements session.state =
      .error .depthExceeded (session.run depth (.program program)).2.state := by
  cases outcome : Statement.evaluateAll (applyWithin depth) root .null program.statements
      session.state with
  | ok value later =>
    rw [run_of_evaluateAll outcome] at exceeded
    cases exceeded
  | error stop later =>
    rw [run_of_cut_short outcome] at exceeded ⊢
    cases stop <;> first | rfl | cases exceeded

theorem keeps_bindings {depth : Nat} {session : Session} {program : Program}
    (rooted : session.Rooted)
    (exceeded : (session.run depth (.program program)).1 = .depthExceeded) :
    session.KeepsBindings depth (session.run depth (.program program)).2 program where
  earlier := by
    obtain ⟨done, failing, rest, middle, split, through, failed⟩ :=
      Statement.exists_cut_short (evaluateAll_of_exceeded exceeded)
    refine ⟨done, failing, rest, middle, split, through, failed, fun name free => ?_⟩
    have reached : (session.run depth (.program ⟨done⟩)).2 = ⟨middle⟩ := run_of_runThrough? through
    have rooted' : (Session.mk middle).Rooted := reached ▸ rooted.run depth (.program ⟨done⟩)
    have kept := binding?_run rooted' depth (.statement failing) free
    have ended : run depth ⟨middle⟩ (.statement failing) =
        (.depthExceeded, (session.run depth (.program program)).2) := by
      have failed' : Node.evaluate depth root (.statement failing) middle = _ := failed
      unfold run
      rw [finish_of_error failed']
      rfl
    rwa [ended] at kept
  reached task state seen := by
    obtain ⟨before, after, split⟩ := List.append_of_mem seen
    have ended := (ends_where_cut_short depth root (.program program) session.state state before
      after task .depthExceeded split).2
    unfold run
    rw [ended]

end Session

/-! The shell. -/

namespace Shell

/-- A line without the blanks around it. -/
def word (line : String) : String := String.ofList (trim line.toList)

/-- Whether a line leaves the shell. -/
def leaves (line : String) : Bool := word line = "exit" || word line = "EOF"

/-- Whether a line is neither blank nor a command. -/
def isSource (line : String) : Bool := word line ≠ "" && !leaves line

/-- Whether a line is a program that is to be run. -/
def runs (line : String) : Bool := isSource line && isProgram line

/-- The shell after these lines. It takes more of them even after one that leaves it. -/
def after (depth : Nat) (shell : Shell) : List String → Except Rejection Shell
  | [] => .ok shell
  | line :: rest =>
    match shell.enter depth line with
    | .error rejection => .error rejection
    | .ok (_, shell) => shell.after depth rest

/-- What is told last about a program that has run. -/
def Announces (program : Program) : Ending → String → Prop
  | .depthExceeded, last => last = red "ERROR: maximum recursion depth exceeded" ++ "\n"
  | .value value, last =>
    if endsInBinding program then last = ""
    else if value.isError then last = red value.inspect ++ "\n"
    else last = value.inspect ++ "\n"
  | .unknownNode, _ => False

/-- How a shell takes a program where `session` has run those before: it writes what that session
prints in running it, then what is followed of it on the console, and then how it ended. -/
structure Runs (depth : Nat) (silent : Prop) (session : Session) (shell : Shell) (program : Program)
    (output : String) (later : Shell) : Prop where
  output : ∃ printed shown last, output = printed ++ shown ++ last ∧
    (session.run depth (.program program)).2.state.printed = session.state.printed ++ printed ∧
    later.session.state.shown = shell.session.state.shown ++ shown ∧ (silent → shown = "") ∧
    Announces program (session.run depth (.program program)).1 last
  exceeded : (session.run depth (.program program)).1 = .depthExceeded →
    session.KeepsBindings depth (session.run depth (.program program)).2 program

/-- How a shell takes a line where `session` has run the programs before it. -/
inductive Takes (depth : Nat) (silent : Prop) (session : Session) (shell : Shell) (line : String) :
    Reply → Shell → Prop
  | blank (blank : word line = "") : Takes depth silent session shell line ⟨"", false⟩ shell
  | exit {later : Shell} (exit : word line = "exit")
      (kept : later.session.state.store = shell.session.state.store) :
      Takes depth silent session shell line ⟨"", true⟩ later
  | ending {later : Shell} (ending : word line = "EOF")
      (kept : later.session.state.store = shell.session.state.store) :
      Takes depth silent session shell line ⟨"\n", true⟩ later
  | problems {found : List Problem} (source : isSource line = true)
      (rejected : (parse line).accepted = .error (.problems found)) (some : found ≠ [])
      (oneLine : ∀ problem ∈ found, OneLine problem.message) :
      Takes depth silent session shell line
        ⟨String.join (found.map fun problem => red ("\t" ++ problem.message) ++ "\n"), false⟩ shell
  | program {program : Program} {output : String} {later : Shell} (source : isSource line = true)
      (accepted : (parse line).accepted = .ok program)
      (runs : Runs depth silent session shell program output later) :
      Takes depth silent session shell line ⟨output, false⟩ later

/-- The shell is in step with a session; it may have been left before. -/
structure InStep (level : Nat) (left : Bool) (shell : Shell) (session : Session) : Prop where
  same : shell.session.Matches
    (fun trace _ => trace.level = level ∧ (left = false → trace.closed = false)) session
  sound : session.state.store.Holds Value.Sound
  rooted : session.Rooted

section
variable {depth level : Nat} {left : Bool} {shell : Shell} {session : Session} {line : String}

theorem Command.ofLine_of_blank (blank : word line = "") : ofLine line = .blank := if_pos blank

theorem Command.ofLine_of_exit (exit : word line = "exit") : ofLine line = .exit := by
  have some : word line ≠ "" := by rw [exit]; decide
  exact (if_neg some).trans (if_pos exit)

theorem Command.ofLine_of_ending (ending : word line = "EOF") : ofLine line = .ending := by
  have some : word line ≠ "" := by rw [ending]; decide
  have other : word line ≠ "exit" := by rw [ending]; decide
  exact (if_neg some).trans ((if_neg other).trans (if_pos ending))

theorem Command.ofLine_of_isSource (source : isSource line = true) :
    ofLine line = .program line := by
  simp only [isSource, leaves, Bool.and_eq_true, decide_eq_true_eq, Bool.not_eq_true',
    Bool.or_eq_false_iff, decide_eq_false_iff_not] at source
  exact (if_neg source.1).trans ((if_neg source.2.1).trans (if_neg source.2.2))

/-- A line that is not run leaves the session as it is. -/
theorem passed_over (other : runs line = false) :
    (session.enterAll depth ([line].filter runs)).2 = session := by
  rw [List.filter_cons_of_neg (by rw [other]; exact Bool.false_ne_true)]
  rfl

theorem announces_summary (program : Program) {ending : Ending} (sound : ending.Sound) :
    Announces program ending (summary program ending) := by
  cases ending with
  | value value =>
    simp only [Announces, summary, resultLine]
    split_ifs <;> rfl
  | depthExceeded => rfl
  | unknownNode => exact sound

namespace InStep

/-- Where nothing was to be followed or the shell was never left, the console stays silent. -/
theorem quiet (inStep : InStep level left shell session) (silent : level = 0 ∨ left = false) :
    shell.session.state.trace.Quiet :=
  silent.imp inStep.same.trace.1.trans inStep.same.trace.2

theorem close (inStep : InStep level left shell session) :
    InStep level true ⟨shell.session.close⟩ session where
  same := ⟨inStep.same.store, inStep.same.output, inStep.same.trace.1, nofun⟩
  sound := inStep.sound
  rooted := inStep.rooted

theorem run (inStep : InStep level left shell session) {program : Program}
    (accepted : (parse line).accepted = .ok program) :
    (shell.session.run depth (.program program)).1 = (session.run depth (.program program)).1 ∧
      (session.run depth (.program program)).1.Sound ∧
      InStep level left ⟨(shell.session.run depth (.program program)).2⟩
        (session.run depth (.program program)).2 := by
  obtain ⟨-, -, rfl⟩ := accepted_eq_ok.mp accepted
  have follows : Trace.Follows fun trace _ =>
      trace.level = level ∧ (left = false → trace.closed = false) := by
    intro trace other event here
    obtain ⟨same, same'⟩ := trace.follow_level event
    rwa [same, same']
  obtain ⟨ending, same⟩ := inStep.same.run follows depth (.program (parse line).program)
  have safe := (Program.safe depth Session.root (parse_wellFormed line)).finish inStep.sound
  exact ⟨ending, safe.1, same, safe.2, inStep.rooted.run depth _⟩

theorem runs (inStep : InStep level left shell session) {program : Program}
    (accepted : (parse line).accepted = .ok program) :
    let result := shell.session.run depth (.program program)
    let added := result.2.state.since shell.session.state
    Runs depth (level = 0 ∨ left = false) session shell program
      (added.printed ++ added.shown ++ summary program result.1) ⟨result.2⟩ := by
  obtain ⟨ending, sound, later⟩ := inStep.run accepted
  obtain ⟨printed, shown, silent⟩ :=
    Session.added_by_run depth shell.session (.program program)
  have before : shell.session.state.printed = session.state.printed :=
    congrArg (fun output : List String => lines output.reverse) inStep.same.output
  have after : (shell.session.run depth (.program program)).2.state.printed =
      (session.run depth (.program program)).2.state.printed :=
    congrArg (fun output : List String => lines output.reverse) later.same.output
  have whole : (session.run depth (.program program)).2.state.printed =
      session.state.printed ++ ((shell.session.run depth (.program program)).2.state.since
        shell.session.state).printed := by
    rw [← before, ← after]
    exact printed
  have told : Announces program (session.run depth (.program program)).1
      (summary program (shell.session.run depth (.program program)).1) := by
    rw [ending]
    exact announces_summary program sound
  exact ⟨⟨_, _, _, rfl, whole, shown, silent ∘ inStep.quiet, told⟩,
    Session.keeps_bindings inStep.rooted⟩

theorem takes (inStep : InStep level left shell session) (short : ¬ Overlong line) :
    ∃ reply later, shell.enter depth line = .ok (reply, later) ∧
      Takes depth (level = 0 ∨ left = false) session shell line reply later ∧
      InStep level (left || leaves line) later
        (session.enterAll depth ([line].filter Shell.runs)).2 := by
  by_cases blank : word line = ""
  · have stays : leaves line = false := by simp [leaves, blank]
    have other : Shell.runs line = false := by simp [Shell.runs, isSource, blank]
    have entered : shell.enter depth line = .ok (⟨"", false⟩, shell) := by
      unfold enter
      rw [Command.ofLine_of_blank blank]
    rw [stays, Bool.or_false, passed_over other]
    exact ⟨_, _, entered, .blank blank, inStep⟩
  by_cases exit : word line = "exit"
  · have goes : leaves line = true := by simp [leaves, exit]
    have other : Shell.runs line = false := by simp [Shell.runs, isSource, goes]
    have entered : shell.enter depth line = .ok (⟨"", true⟩, ⟨shell.session.close⟩) := by
      unfold enter
      rw [Command.ofLine_of_exit exit]
    rw [goes, Bool.or_true, passed_over other]
    exact ⟨_, _, entered, .exit exit rfl, inStep.close⟩
  by_cases ending : word line = "EOF"
  · have goes : leaves line = true := by simp [leaves, ending]
    have other : Shell.runs line = false := by simp [Shell.runs, isSource, goes]
    have entered : shell.enter depth line = .ok (⟨"\n", true⟩, ⟨shell.session.close⟩) := by
      unfold enter
      rw [Command.ofLine_of_ending ending]
    rw [goes, Bool.or_true, passed_over other]
    exact ⟨_, _, entered, .ending ending rfl, inStep.close⟩
  have stays : leaves line = false := by simp [leaves, exit, ending]
  have source : isSource line = true := by simp [isSource, blank, stays]
  have command : Command.ofLine line = .program line := Command.ofLine_of_isSource source
  rw [stays, Bool.or_false]
  cases accepted : (parse line).accepted with
  | ok program =>
    have readable : isProgram line = true := by
      unfold isProgram
      rw [accepted]
      rfl
    have chosen : Shell.runs line = true := by simp [Shell.runs, source, readable]
    have entered : ∃ output, shell.enter depth line =
        .ok (⟨output, false⟩, ⟨(shell.session.run depth (.program program)).2⟩) ∧
        Runs depth (level = 0 ∨ left = false) session shell program output
          ⟨(shell.session.run depth (.program program)).2⟩ := by
      refine ⟨_, ?_, inStep.runs accepted⟩
      unfold enter
      rw [command]
      dsimp only
      rw [accepted]
    obtain ⟨output, entered, runs⟩ := entered
    rw [List.filter_cons_of_pos chosen, List.filter_nil]
    simp only [Session.enterAll, Session.enter_of_accepted accepted]
    exact ⟨_, _, entered, .program source accepted runs, (inStep.run accepted).2.2⟩
  | error rejection =>
    have unreadable : isProgram line = false := by
      unfold isProgram
      rw [accepted]
      rfl
    have other : Shell.runs line = false := by simp [Shell.runs, unreadable]
    rw [passed_over other]
    cases rejection with
    | refused => exact absurd ((parse_accounts line).1.mp (accepted_eq_refused.mp accepted)) short
    | problems found =>
      obtain ⟨-, some, rfl⟩ := accepted_eq_problems.mp accepted
      have entered : shell.enter depth line =
          .ok (⟨String.join ((parse line).problems.map problemLine), false⟩, shell) := by
        unfold enter
        rw [command]
        dsimp only
        rw [accepted]
      exact ⟨_, _, entered, .problems source accepted some fun _ => problem_oneLine, inStep⟩

/-- The shell stays in step with the session that runs the programs among its lines. -/
theorem after (inStep : InStep level left shell session) {lines : List String}
    (short : ∀ line ∈ lines, ¬ Overlong line) :
    ∃ later, shell.after depth lines = .ok later ∧
      InStep level (left || lines.any leaves) later
        (session.enterAll depth (lines.filter Shell.runs)).2 := by
  induction lines generalizing left shell session with
  | nil => exact ⟨shell, rfl, (Bool.or_false left).symm ▸ inStep⟩
  | cons line rest ih =>
    obtain ⟨first, others⟩ := List.forall_mem_cons.mp short
    obtain ⟨reply, next, entered, -, stillInStep⟩ := inStep.takes first
    obtain ⟨later, reached, inStepThere⟩ := ih stillInStep others
    refine ⟨later, ?_, ?_⟩
    · unfold Shell.after
      rw [entered]
      exact reached
    · rw [← List.singleton_append, List.filter_append, Session.enterAll_append]
      rwa [List.any_append, List.any_cons, List.any_nil, Bool.or_false, ← Bool.or_assoc]

end InStep
end

end Shell

end Monkey

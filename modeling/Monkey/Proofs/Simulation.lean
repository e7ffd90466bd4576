import Monkey.Proofs.Alike
import Monkey.Proofs.Tracing

/-!
Two runs side by side. They run trees that agree, each in its own scope, and at every step they do
the same: what they come to is alike, and so is all that they print, bind and follow on the way. The
scopes that one run opens correspond to those that the other opens. What the two runs keep on the
way is a relation of their states, of which little is asked; being alike is one.
-/

namespace Monkey

variable {scopes : Nat → Nat → Prop}

/-! States that are alike. -/

inductive Event.Alike (scopes : Nat → Nat → Prop) : Event → Event → Prop
  | call {function function' : Value} {arguments arguments' : List Value}
      (callees : function.Alike scopes function')
      (rows : List.Forall₂ (Value.Alike scopes) arguments arguments') :
      Alike scopes (.call function arguments) (.call function' arguments')
  | builtinCall (builtin : Builtin) {arguments arguments' : List Value}
      (rows : List.Forall₂ (Value.Alike scopes) arguments arguments') :
      Alike scopes (.builtinCall builtin arguments) (.builtinCall builtin arguments')
  | binding (name : String) {value value' : Value} (values : value.Alike scopes value') :
      Alike scopes (.binding name value) (.binding name value')
  | condition {value value' : Value} (values : value.Alike scopes value') :
      Alike scopes (.condition value) (.condition value')

namespace Event

variable {event other : Event}

theorem list_eq {arguments arguments' : List Value}
    (rows : List.Forall₂ (Value.Alike scopes) arguments arguments') :
    text.list arguments = text.list arguments' := by
  have shown : arguments.map Value.inspect = arguments'.map Value.inspect := by
    induction rows with
    | nil => rfl
    | cons first _ ih => rw [List.map_cons, List.map_cons, first.inspect_eq, ih]
  unfold text.list
  rw [shown]

theorem Alike.text_eq (same : event.Alike scopes other) : event.text = other.text := by
  unfold text
  cases same with
  | call callees rows =>
    dsimp only
    rw [callees.inspect_eq, list_eq rows]
  | builtinCall builtin rows =>
    dsimp only
    rw [list_eq rows]
  | binding name values =>
    dsimp only
    rw [values.inspect_eq]
  | condition values =>
    dsimp only
    rw [values.inspect_eq, values.isTruthy_eq]

theorem Alike.level_eq (same : event.Alike scopes other) : event.level = other.level := by
  cases same <;> rfl

theorem texts_eq {events others : List Event} (rows : List.Forall₂ (Alike scopes) events others) :
    events.map text = others.map text := by
  induction rows with
  | nil => rfl
  | cons first _ ih => rw [List.map_cons, List.map_cons, first.text_eq, ih]

end Event

structure Trace.Alike (scopes : Nat → Nat → Prop) (trace other : Trace) : Prop where
  level : trace.level = other.level
  closed : trace.closed = other.closed
  recorded : List.Forall₂ (Event.Alike scopes) trace.recorded other.recorded
  shown : List.Forall₂ (Event.Alike scopes) trace.shown other.shown

theorem Trace.Alike.follow {trace other : Trace} (same : trace.Alike scopes other)
    {event event' : Event} (events : event.Alike scopes event') :
    (trace.follow event).Alike scopes (other.follow event') := by
  unfold Trace.follow
  rw [events.level_eq, same.level, same.closed]
  by_cases asked : event'.level ≤ other.level
  · rw [if_pos asked, if_pos asked]
    cases other.closed with
    | true => exact ⟨rfl, rfl, same.recorded, .cons events same.shown⟩
    | false => exact ⟨rfl, rfl, .cons events same.recorded, same.shown⟩
  · rw [if_neg asked, if_neg asked]
    exact same

structure State.Alike (scopes : Nat → Nat → Prop) (state other : State) : Prop where
  store : state.store.Alike scopes other.store
  output : state.output = other.output
  trace : state.trace.Alike scopes other.trace

namespace State.Alike

variable {state other : State}

theorem printed_eq (same : state.Alike scopes other) : state.printed = other.printed := by
  unfold State.printed
  rw [same.output]

theorem traced_eq (same : state.Alike scopes other) : state.traced = other.traced := by
  unfold State.traced
  rw [List.map_reverse, List.map_reverse, Event.texts_eq same.trace.recorded]

theorem shown_eq (same : state.Alike scopes other) : state.shown = other.shown := by
  unfold State.shown
  rw [List.map_reverse, List.map_reverse, Event.texts_eq same.trace.shown]

end State.Alike

/-- A relation of states that two runs keep when both take the same step. It tells which scopes
correspond, and in these both runs find the same. -/
structure State.Accord (scopes : Nat → Nat → Prop) (states : State → State → Prop) : Prop where
  find? : ∀ {state state'}, states state state' → ∀ {scope scope'}, scopes scope scope' →
    ∀ name, Option.Rel (Value.Alike scopes) (state.store.find? scope name)
      (state'.store.find? scope' name)
  follow : ∀ {state state'}, states state state' → ∀ {event event'}, event.Alike scopes event' →
    states { state with trace := state.trace.follow event }
      { state' with trace := state'.trace.follow event' }
  print : ∀ {state state'}, states state state' → ∀ line,
    states { state with output := line :: state.output }
      { state' with output := line :: state'.output }
  bind : ∀ {state state'}, states state state' → ∀ {scope scope'}, scopes scope scope' →
    ∀ name {value value'}, value.Alike scopes value' →
    states { state with store := state.store.bind scope name value }
      { state' with store := state'.store.bind scope' name value' }
  opened : ∀ {state state'}, states state state' → ∀ {parent parent'}, scopes parent parent' →
    scopes state.store.size state'.store.size ∧
    states { state with store := state.store.opened (some parent) }
      { state' with store := state'.store.opened (some parent') }

/-- States that are alike stay so. -/
theorem State.Alike.accord (alone : Relator.BiUnique scopes) :
    State.Accord scopes (State.Alike scopes) where
  find? states _ _ corresponds name := states.store.find? corresponds name
  follow states _ _ events := ⟨states.store, states.output, states.trace.follow events⟩
  print states line := ⟨states.store, congrArg (line :: ·) states.output, states.trace⟩
  bind states _ _ corresponds name _ _ values :=
    ⟨states.store.bind alone corresponds name values, states.output, states.trace⟩
  opened states _ _ parents :=
    ⟨states.store.fresh 0, states.store.opened alone (.some parents), states.output, states.trace⟩

namespace State.Accord

variable {states : State → State → Prop} (accord : State.Accord scopes states)
include accord

theorem bindAll {state state' : State} (same : states state state') {scope scope' : Nat}
    (corresponds : scopes scope scope') (names : List String) {values values' : List Value}
    (rows : List.Forall₂ (Value.Alike scopes) values values') :
    states { state with store := state.store.bindAll scope (names.zip values) }
      { state' with store := state'.store.bindAll scope' (names.zip values') } := by
  induction rows generalizing names state state' with
  | nil => rwa [List.zip_nil_right]
  | @cons value value' _ _ first _ ih =>
    cases names with
    | nil => exact same
    | cons name names => exact ih (accord.bind same corresponds name first) names

end State.Accord

theorem Entry.insert_alike {entry other : Entry Value} (same : entry.Alike scopes other)
    {entries others : List (Entry Value)}
    (rows : List.Forall₂ (Entry.Alike scopes) entries others) :
    List.Forall₂ (Entry.Alike scopes) (insert entry entries) (insert other others) := by
  induction rows with
  | nil => exact .cons same .nil
  | @cons first first' rest rest' firsts more ih =>
    unfold insert
    rw [firsts.hashKey, same.hashKey]
    by_cases filed : first'.hashKey = other.hashKey
    · rw [if_pos filed, if_pos filed]
      exact .cons same more
    · rw [if_neg filed, if_neg filed]
      exact .cons firsts ih

/-! Evaluations that go together. -/

namespace Evaluation

variable {states : State → State → Prop}
variable {α β : Type} {alike : α → α → Prop} {alike' : β → β → Prop}

/-- Two results that come to the same, in states that are related. -/
inductive Matched (states : State → State → Prop) (alike : α → α → Prop) :
    EStateM.Result Stop State α → EStateM.Result Stop State α → Prop
  | ok {value value' : α} {later later' : State} (values : alike value value')
      (related : states later later') : Matched states alike (.ok value later) (.ok value' later')
  | error (stop : Stop) {later later' : State} (related : states later later') :
      Matched states alike (.error stop later) (.error stop later')

/-- From states that are related, two evaluations come to the same. -/
def Together (states : State → State → Prop) (alike : α → α → Prop)
    (evaluation evaluation' : Evaluation α) : Prop :=
  ∀ state state', states state state' →
    Matched states alike (evaluation state) (evaluation' state')

namespace Together

theorem pure {value value' : α} (values : alike value value') :
    Together states alike (Pure.pure value) (Pure.pure value') :=
  fun _ _ same => .ok values same

theorem throw (stop : Stop) : Together states alike (MonadExcept.throw stop : Evaluation α)
    (MonadExcept.throw stop) :=
  fun _ _ same => .error stop same

theorem bind {first first' : Evaluation α} {next next' : α → Evaluation β}
    (start : Together states alike first first')
    (others : ∀ value value', alike value value' →
      Together states alike' (next value) (next' value')) :
    Together states alike' (first >>= next) (first' >>= next') := by
  intro state state' same
  have begun := start state state' same
  change Matched states alike' (EStateM.bind first next state) (EStateM.bind first' next' state')
  unfold EStateM.bind
  generalize first state = outcome, first' state' = outcome' at begun
  cases begun with
  | ok values same => exact others _ _ values _ _ same
  | error stop same => exact .error stop same

/-- Both take the same branch. -/
theorem branch {asked : Prop} [Decidable asked] {yes no yes' no' : Evaluation α}
    (positive : Together states alike yes yes') (negative : Together states alike no no') :
    Together states alike (if asked then yes else no) (if asked then yes' else no') := by
  by_cases holds : asked
  · rwa [if_pos holds, if_pos holds]
  · rwa [if_neg holds, if_neg holds]

/-- Steps that only change the state. -/
theorem change {step step' : State → State}
    (keeps : ∀ state state', states state state' → states (step state) (step' state')) :
    Together states (fun _ _ => True) (modify step : Evaluation Unit) (modify step') :=
  fun state state' same => .ok trivial (keeps state state' same)

theorem fault (cause : Fault) :
    Together states alike (fault cause : Evaluation α) (Evaluation.fault cause) := .throw _

theorem settle {value value' : Value} (values : value.Alike scopes value') :
    Together states (Value.Alike scopes) (settle value) (settle value') := by
  have kept := values
  cases values with
  | error message => exact .throw _
  | _ => exact .pure kept

theorem answer {result result' : Except Fault Value} (meet : Value.Meet scopes result result') :
    Together states (Value.Alike scopes) (answer result) (answer result') := by
  cases meet with
  | ok values => exact .settle values
  | error cause => exact .fault cause

theorem get {next next' : State → Evaluation α}
    (others : ∀ state state', states state state' →
      Together states alike (next state) (next' state')) :
    Together states alike (MonadState.get >>= next) (MonadState.get >>= next') :=
  fun state state' same => others state state' same state state' same

variable (accord : State.Accord scopes states)
include accord

theorem follow {event event' : Event} (events : event.Alike scopes event') :
    Together states (fun _ _ => True) (follow event) (follow event') :=
  .change fun _ _ same => accord.follow same events

theorem print {line line' : String} (lines : line = line') :
    Together states (fun _ _ => True) (print line) (print line') :=
  lines ▸ .change fun _ _ same => accord.print same line

theorem resolve {scope scope' : Nat} (corresponds : scopes scope scope') (name : String) :
    Together states (Value.Alike scopes) (resolve scope name) (resolve scope' name) := by
  refine .get fun state state' same => ?_
  have found := accord.find? same corresponds name
  generalize state.store.find? scope name = value, state'.store.find? scope' name = value' at found
  cases found with
  | some values => exact .settle values
  | none =>
    cases Builtin.named? name with
    | some builtin => exact .pure (.builtin builtin)
    | none => exact .fault _

theorem printAll {values values' : List Value}
    (rows : List.Forall₂ (Value.Alike scopes) values values') :
    Together states (fun _ _ => True) (Builtin.printAll values) (Builtin.printAll values') := by
  induction rows with
  | nil => exact .pure trivial
  | cons first _ ih => exact .bind (.print accord first.inspect_eq) fun _ _ _ => ih

theorem apply (builtin : Builtin) {arguments arguments' : List Value}
    (rows : List.Forall₂ (Value.Alike scopes) arguments arguments') :
    Together states (Value.Alike scopes) (builtin.apply arguments) (builtin.apply arguments') := by
  cases builtin with
  | len => exact .answer (Builtin.meet_length rows)
  | push => exact .answer (Builtin.meet_pushed rows)
  | puts => exact .bind (.printAll accord rows) fun _ _ _ => .pure .null
  | first =>
    refine .answer (Builtin.meet_elements .first (fun elements => .getD_null ?_) rows)
    cases elements with
    | nil => exact .none
    | cons first _ => exact .some first
  | last =>
    refine .answer (Builtin.meet_elements .last (fun elements => .getD_null ?_) rows)
    rw [List.getLast?_eq_getElem?, List.getLast?_eq_getElem?, elements.length_eq]
    exact forall₂_getElem? elements _
  | rest =>
    refine .answer (Builtin.meet_elements .rest (fun elements => ?_) rows)
    cases elements with
    | nil => exact .null
    | cons _ rest => exact Value.Alike.array_iff.mpr rest

theorem assign {scope scope' : Nat} (corresponds : scopes scope scope') (name : String)
    {value value' : Value} (values : value.Alike scopes value') :
    Together states (fun _ _ => True) (Evaluation.bind scope name value)
      (Evaluation.bind scope' name value') :=
  .change fun _ _ same => accord.bind same corresponds name values

theorem enter {parent parent' : Nat} (parents : scopes parent parent')
    (names : List String) {values values' : List Value}
    (rows : List.Forall₂ (Value.Alike scopes) values values') :
    Together states scopes (enter (some parent) (names.zip values))
      (enter (some parent') (names.zip values')) := by
  intro state state' same
  obtain ⟨corresponds, opened⟩ := accord.opened same parents
  exact .ok corresponds (accord.bindAll opened corresponds names rows)

end Together
end Evaluation

open Evaluation

/-! Trees. -/

section
variable {states : State → State → Prop} (accord : State.Accord scopes states)
variable {calling calling' : Calling} {scope scope' : Nat} (corresponds : scopes scope scope')
variable (calls : ∀ callee callee' arguments arguments', callee.Alike scopes callee' →
  List.Forall₂ (Value.Alike scopes) arguments arguments' →
  Together states (Value.Alike scopes) (calling callee arguments) (calling' callee' arguments'))
include accord corresponds calls

set_option linter.unusedSectionVars false

mutual

theorem Expr.together : ∀ (tree : Expr) {other : Expr}, tree.agrees other = true →
    Together states (Value.Alike scopes) (tree.evaluate calling scope)
      (other.evaluate calling' scope')
  | .identifier name, other, same => by
    obtain ⟨name', rfl, named⟩ := Expr.agrees_identifier same
    unfold Expr.evaluate
    rw [Identifier.name_eq_of_agrees named]
    exact .resolve accord corresponds name'.name
  | .integer token value, other, same => by
    obtain ⟨token', rfl, -⟩ := Expr.agrees_integer same
    exact .pure (.integer value)
  | .boolean token value, other, same => by
    obtain ⟨token', rfl, -⟩ := Expr.agrees_boolean same
    exact .pure (.boolean value)
  | .string token value, other, same => by
    obtain ⟨token', rfl, -⟩ := Expr.agrees_string same
    exact .pure (.string value)
  | .unary token operator right, other, same => by
    obtain ⟨token', right', rfl, rights⟩ := Expr.agrees_unary same
    exact .bind (Expr.together right rights) fun _ _ rights =>
      .answer (Value.meet_unary operator rights)
  | .binary token left operator right, other, same => by
    obtain ⟨token', left', right', rfl, lefts, rights⟩ := Expr.agrees_binary same
    exact .bind (Expr.together left lefts) fun _ _ lefts =>
      .bind (Expr.together right rights) fun _ _ rights =>
      .answer (Value.meet_binary operator lefts rights)
  | .conditional token condition yes no, other, same => by
    obtain ⟨token', condition', yes', no', rfl, conditions, yess, nos⟩ :=
      Expr.agrees_conditional same
    refine .bind (Expr.together condition conditions) fun _ _ values =>
      .bind (.follow accord (.condition values)) fun _ _ _ => ?_
    rw [values.isTruthy_eq]
    exact .branch (Block.together yes yess) (Block.togetherAlternative no nos)
  | .function token parameters body, other, same => by
    obtain ⟨token', parameters', body', rfl, -, names, bodies⟩ := Expr.agrees_function same
    exact .pure (.function names bodies corresponds)
  | .call token callee arguments, other, same => by
    obtain ⟨token', callee', arguments', rfl, callees, rows⟩ := Expr.agrees_call same
    exact .bind (Expr.together callee callees) fun _ _ callees =>
      .bind (Expr.togetherAll arguments rows) fun _ _ rows => calls _ _ _ _ callees rows
  | .array token elements, other, same => by
    obtain ⟨token', elements', rfl, rows⟩ := Expr.agrees_array same
    exact .bind (Expr.togetherAll elements rows) fun _ _ rows =>
      .pure (Value.Alike.array_iff.mpr rows)
  | .hash token pairs, other, same => by
    obtain ⟨token', pairs', rfl, rows⟩ := Expr.agrees_hash same
    exact .bind (Expr.togetherPairs .nil pairs rows) fun _ _ rows =>
      .pure (Value.Alike.hash_iff.mpr rows)
  | .index token left position, other, same => by
    obtain ⟨token', left', position', rfl, lefts, positions⟩ := Expr.agrees_index same
    exact .bind (Expr.together left lefts) fun _ _ lefts =>
      .bind (Expr.together position positions) fun _ _ positions =>
      .answer (Value.meet_index lefts positions)
  | .slice token left lower upper, other, same => by
    obtain ⟨token', left', lower', upper', rfl, lefts, lowers, uppers⟩ := Expr.agrees_slice same
    exact .bind (Expr.together left lefts) fun _ _ lefts =>
      .bind (Expr.togetherBound lower lowers) fun _ _ lowers =>
      .bind (Expr.togetherBound upper uppers) fun _ _ uppers =>
      .answer (Value.meet_slice lefts lowers uppers)
  | .unknown, other, same => by
    obtain rfl := Expr.agrees_unknown same
    exact .throw _
termination_by structural tree => tree

theorem Expr.togetherBound : ∀ (bound : Option Expr) {other : Option Expr},
    Expr.valuesAgree bound other = true →
    Together states (Option.Rel (Value.Alike scopes)) (Expr.evaluateBound calling scope bound)
      (Expr.evaluateBound calling' scope' other)
  | none, other, same => by
    obtain rfl := Expr.valuesAgree_none same
    exact .pure .none
  | some bound, other, same => by
    obtain ⟨bound', rfl, bounds⟩ := Expr.valuesAgree_some same
    exact .bind (Expr.together bound bounds) fun _ _ values => .pure (.some values)
termination_by structural tree => tree

theorem Expr.togetherAll : ∀ (list : List Expr) {others : List Expr},
    Expr.allAgree list others = true →
    Together states (List.Forall₂ (Value.Alike scopes)) (Expr.evaluateAll calling scope list)
      (Expr.evaluateAll calling' scope' others)
  | [], others, same => by
    obtain rfl := Expr.allAgree_nil same
    exact .pure .nil
  | expr :: rest, others, same => by
    obtain ⟨expr', rest', rfl, first, more⟩ := Expr.allAgree_cons same
    exact .bind (Expr.together expr first) fun _ _ values =>
      .bind (Expr.togetherAll rest more) fun _ _ rows => .pure (.cons values rows)
termination_by structural tree => tree

theorem Expr.togetherPairs {entries entries' : List (Entry Value)}
    (filed : List.Forall₂ (Entry.Alike scopes) entries entries') :
    ∀ (list : List (Expr × Expr)) {others : List (Expr × Expr)},
    Expr.pairsAgree list others = true →
    Together states (List.Forall₂ (Entry.Alike scopes))
      (Expr.evaluatePairs calling scope entries list)
      (Expr.evaluatePairs calling' scope' entries' others)
  | [], others, same => by
    obtain rfl := Expr.pairsAgree_nil same
    exact .pure filed
  | (key, value) :: rest, others, same => by
    obtain ⟨key', value', rest', rfl, keys, values, more⟩ := Expr.pairsAgree_cons same
    refine .bind (Expr.together key keys) fun key key' keys => ?_
    rw [keys.hashKey?_eq, keys.kind_eq]
    cases key'.hashKey? with
    | none => exact .fault _
    | some hashKey =>
      refine .bind (Expr.together value values) fun value value' values => ?_
      have same : Entry.Alike scopes ⟨hashKey, key, value⟩ ⟨hashKey, key', value'⟩ :=
        ⟨rfl, keys, values⟩
      exact Expr.togetherPairs (Entry.insert_alike same filed) rest more
termination_by structural tree => tree

theorem Statement.together : ∀ (tree : Statement) {other : Statement}, tree.agrees other = true →
    Together states (Value.Alike scopes) (tree.evaluate calling scope)
      (other.evaluate calling' scope')
  | .binding token name value, other, same => by
    obtain ⟨token', name', value', rfl, -, names, values⟩ := Statement.agrees_binding same
    unfold Statement.evaluate
    rw [Identifier.name_eq_of_agrees names]
    exact .bind (Expr.togetherOrNull value values) fun _ _ values =>
      .bind (.assign accord corresponds _ values) fun _ _ _ =>
      .bind (.follow accord (.binding _ values)) fun _ _ _ => .pure .null
  | .giveBack token value, other, same => by
    obtain ⟨token', value', rfl, -, values⟩ := Statement.agrees_giveBack same
    exact .bind (Expr.togetherOrNull value values) fun _ _ values => .pure (.returned values)
  | .expression token value, other, same => by
    obtain ⟨token', value', rfl, values⟩ := Statement.agrees_expression same
    exact Expr.togetherOrNull value values
  | .block body, other, same => by
    obtain ⟨body', rfl, bodies⟩ := Statement.agrees_block same
    exact Block.together body bodies
termination_by structural tree => tree

theorem Expr.togetherOrNull : ∀ (value : Option Expr) {other : Option Expr},
    Expr.valuesAgree value other = true →
    Together states (Value.Alike scopes) (Expr.evaluateOrNull calling scope value)
      (Expr.evaluateOrNull calling' scope' other)
  | none, other, same => by
    obtain rfl := Expr.valuesAgree_none same
    exact .pure .null
  | some value, other, same => by
    obtain ⟨value', rfl, values⟩ := Expr.valuesAgree_some same
    exact Expr.together value values
termination_by structural tree => tree

theorem Statement.togetherAll {last last' : Value} (lasts : last.Alike scopes last') :
    ∀ (list : List Statement) {others : List Statement}, Statement.allAgree list others = true →
    Together states (Value.Alike scopes) (Statement.evaluateAll calling scope last list)
      (Statement.evaluateAll calling' scope' last' others)
  | [], others, same => by
    obtain rfl := Statement.allAgree_nil same
    exact .pure lasts
  | statement :: rest, others, same => by
    obtain ⟨statement', rest', rfl, first, more⟩ := Statement.allAgree_cons same
    refine .bind (Statement.together statement first) fun value value' values => ?_
    have kept := values
    cases values with
    | returned content => exact .pure (.returned content)
    | _ => exact Statement.togetherAll kept rest more
termination_by structural tree => tree

theorem Block.together : ∀ (block : Block) {other : Block}, block.agrees other = true →
    Together states (Value.Alike scopes) (block.evaluate calling scope)
      (other.evaluate calling' scope')
  | ⟨_, statements⟩, ⟨_, _⟩, same =>
    Statement.togetherAll .null statements (Block.allAgree_of_agrees same)
termination_by structural tree => tree

theorem Block.togetherAlternative : ∀ (alternative : Option Block) {other : Option Block},
    Block.alternativesAgree alternative other = true →
    Together states (Value.Alike scopes) (Block.evaluateAlternative calling scope alternative)
      (Block.evaluateAlternative calling' scope' other)
  | none, other, same => by
    obtain rfl := Block.alternativesAgree_none same
    exact .pure .null
  | some block, other, same => by
    obtain ⟨block', rfl, blocks⟩ := Block.alternativesAgree_some same
    exact Block.together block blocks
termination_by structural tree => tree

end

end

namespace State.Accord

variable {states : State → State → Prop} (accord : State.Accord scopes states)
include accord

/-- Calls of functions that are alike, with arguments that are alike. -/
theorem applyWithin_together (depth : Nat) {callee callee' : Value}
    {arguments arguments' : List Value} (callees : callee.Alike scopes callee')
    (rows : List.Forall₂ (Value.Alike scopes) arguments arguments') :
    Together states (Value.Alike scopes) (applyWithin depth callee arguments)
      (applyWithin depth callee' arguments') := by
  induction depth generalizing callee callee' arguments arguments' with
  | zero =>
    cases callees with
    | function names _ _ =>
      unfold applyWithin
      dsimp only
      rw [rows.length_eq, Identifier.length_eq_of_allAgree names]
      exact .branch (.fault _) (.throw _)
    | builtin builtin =>
      exact .bind (.follow accord (.builtinCall builtin rows)) fun _ _ _ =>
        .apply accord builtin rows
    | _ => exact .fault _
  | succ depth ih =>
    cases callees with
    | @function _ _ body _ _ _ names bodies corresponds =>
      unfold applyWithin
      dsimp only
      rw [rows.length_eq, Identifier.length_eq_of_allAgree names,
        Identifier.names_eq_of_allAgree names]
      refine .branch (.fault _) ?_
      exact .bind (.follow accord (.call (.function names bodies corresponds) rows)) fun _ _ _ =>
        .bind (.enter accord corresponds _ rows) fun _ _ inners =>
        .bind (Block.together accord inners (fun _ _ _ _ => ih) body bodies) fun _ _ values =>
        .settle values.unwrapped
    | builtin builtin =>
      exact .bind (.follow accord (.builtinCall builtin rows)) fun _ _ _ =>
        .apply accord builtin rows
    | _ => exact .fault _

/-- Programs that agree. -/
theorem program_together (depth : Nat) {scope scope' : Nat} (corresponds : scopes scope scope')
    {program program' : Program} (same : program.agrees program' = true) :
    Together states (Value.Alike scopes) (program.evaluate depth scope)
      (program'.evaluate depth scope') :=
  .bind (Statement.togetherAll accord corresponds
    (fun _ _ _ _ callees rows => accord.applyWithin_together depth callees rows) .null _ same)
    fun _ _ values => .pure values.unwrapped

end State.Accord

section
variable (alone : Relator.BiUnique scopes)
include alone

/-- From states that are alike, calls of functions that are alike come to the same. -/
theorem applyWithin_together (depth : Nat) {callee callee' : Value}
    {arguments arguments' : List Value} (callees : callee.Alike scopes callee')
    (rows : List.Forall₂ (Value.Alike scopes) arguments arguments') :
    Together (State.Alike scopes) (Value.Alike scopes) (applyWithin depth callee arguments)
      (applyWithin depth callee' arguments') :=
  (State.Alike.accord alone).applyWithin_together depth callees rows

/-- Programs that agree, run from states that are alike, come to the same. -/
theorem Program.together (depth : Nat) {scope scope' : Nat} (corresponds : scopes scope scope')
    {program program' : Program} (same : program.agrees program' = true) :
    Together (State.Alike scopes) (Value.Alike scopes) (program.evaluate depth scope)
      (program'.evaluate depth scope') :=
  (State.Alike.accord alone).program_together depth corresponds same

end

inductive Ending.Alike (scopes : Nat → Nat → Prop) : Ending → Ending → Prop
  | value {value value' : Value} (values : value.Alike scopes value') :
      Alike scopes (.value value) (.value value')
  | depthExceeded : Alike scopes .depthExceeded .depthExceeded
  | unknownNode : Alike scopes .unknownNode .unknownNode

/-- Evaluations that go together end alike. -/
theorem Evaluation.Together.finish {states : State → State → Prop}
    {evaluation evaluation' : Evaluation Value}
    (together : Together states (Value.Alike scopes) evaluation evaluation')
    {state state' : State} (same : states state state') :
    (evaluation.finish state).1.Alike scopes (evaluation'.finish state').1 ∧
      states (evaluation.finish state).2 (evaluation'.finish state').2 := by
  have matched := together state state' same
  unfold Evaluation.finish
  generalize evaluation state = outcome, evaluation' state' = outcome' at matched
  cases matched with
  | ok values later => exact ⟨.value values, later⟩
  | error stop later =>
    cases stop with
    | error message => exact ⟨.value (.error message), later⟩
    | depthExceeded => exact ⟨.depthExceeded, later⟩
    | unknownNode => exact ⟨.unknownNode, later⟩

/-- Evaluations that go together have effects that match: they end in the same way, and what they
leave is related. -/
theorem Evaluation.Together.effects_matched {α : Type} {states : State → State → Prop}
    {alike : α → α → Prop} {evaluation evaluation' : Evaluation α}
    (together : Together states alike evaluation evaluation') {store store' : Store}
    (begun : states ⟨store, [], .start 3⟩ ⟨store', [], .start 3⟩) {effect effect' : Effect α}
    (comes : ∀ output trace, evaluation ⟨store, output, trace⟩ = effect.result output trace)
    (comes' : ∀ output trace, evaluation' ⟨store', output, trace⟩ = effect'.result output trace) :
    ((∃ value value', effect.outcome = .ok value ∧ effect'.outcome = .ok value' ∧
        alike value value') ∨
      ∃ stop, effect.outcome = .error stop ∧ effect'.outcome = .error stop) ∧
    states ⟨effect.store, effect.lines, ⟨3, false, effect.events.reverse, []⟩⟩
      ⟨effect'.store, effect'.lines, ⟨3, false, effect'.events.reverse, []⟩⟩ := by
  have matched := together _ _ begun
  rw [comes, comes'] at matched
  obtain ⟨outcome, later, lines, events⟩ := effect
  obtain ⟨outcome', later', lines', events'⟩ := effect'
  unfold Effect.result at matched
  simp only [Trace.followAll_start, List.append_nil] at matched
  cases outcome with
  | ok value =>
    cases outcome' with
    | error stop => cases matched
    | ok value' =>
      cases matched with
      | ok values states => exact ⟨.inl ⟨value, value', rfl, rfl, values⟩, states⟩
  | error stop =>
    cases outcome' with
    | ok value' => cases matched
    | error stop' =>
      cases matched with
      | error _ states => exact ⟨.inr ⟨stop, rfl, rfl⟩, states⟩

/-- Sessions that have just begun are alike. -/
theorem Session.start_alike (alone : Relator.BiUnique scopes) (fresh : ∀ count, scopes count count)
    (level : Nat) : (Session.start level).state.Alike scopes (Session.start level).state where
  store := by
    have empty : Store.empty.Alike scopes Store.empty := by
      refine ⟨fun _ _ _ => .none, fun count => ?_⟩
      exact fresh (Store.empty.size + count)
    exact empty.opened alone .none
  output := rfl
  trace := ⟨rfl, rfl, .nil, .nil⟩

end Monkey

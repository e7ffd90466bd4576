import Monkey.Proofs.Chains

/-!
Scopes over time. A step opens scopes and binds names, and that is all it does to the store: no
scope is taken away or put inside another one, and no name is freed. So what referred to a scope
once still does so at every later moment, however the evaluations in between have ended.
-/

namespace Monkey

open Value

namespace Store

/-- All scopes of one store are in a later one, inside the same scope as before, and what they bound
is still bound there, if to something else. -/
def Grows (before after : Store) : Prop :=
  ∀ number scope, before.scope? number = some scope → ∃ later, after.scope? number = some later ∧
    later.parent = scope.parent ∧
    ∀ name, (scope.bindings.lookup name).isSome = true →
      (later.bindings.lookup name).isSome = true

variable {before middle after store : Store}

namespace Grows

theorem refl (store : Store) : store.Grows store :=
  fun _ scope found => ⟨scope, found, rfl, fun _ => id⟩

theorem trans (first : before.Grows middle) (second : middle.Grows after) :
    before.Grows after := by
  intro number scope found
  obtain ⟨between, found, parent, still⟩ := first number scope found
  obtain ⟨later, found, parent', still'⟩ := second number between found
  exact ⟨later, found, parent'.trans parent, fun name bound => still' name (still name bound)⟩

theorem size_le (grows : before.Grows after) : before.size ≤ after.size := by
  refine size_le_of_scope? fun number scope found => ?_
  obtain ⟨later, found, -⟩ := grows number scope found
  exact ⟨later, found⟩

end Grows

theorem Extends.grows (extend : before.Extends after) : before.Grows after :=
  fun number scope found => ⟨scope, extend number scope found, rfl, fun _ => id⟩

theorem grows_bind (store : Store) (number : Nat) (name : String) (value : Value) :
    store.Grows (store.bind number name value) := by
  intro other scope found
  by_cases same : other = number
  · refine ⟨scope.bind name value, by rw [scope?_bind, if_pos same, found]; rfl, rfl, ?_⟩
    intro free bound
    unfold Scope.bind
    rw [Scope.lookup_assign]
    split
    · rfl
    · exact bound
  · exact ⟨scope, by rw [scope?_bind, if_neg same, found], rfl, fun _ => id⟩

end Store

/-- The scope that a visit begins with. -/
def Visit.scope? : Visit → Option Nat
  | begins task _ => task.scope?
  | ends _ _ _ => none

/-- From the start to each visit, to all later ones and up to now the store has grown. -/
def Watch.Ordered (start : Store) (watch : Watch) : Prop :=
  (watch.state.store :: (watch.visits.map (·.state.store) ++ [start])).Pairwise
    fun later earlier => earlier.Grows later

namespace Watch.Ordered

variable {start : Store} {watch : Watch}

theorem step (ordered : watch.Ordered start) {state : State}
    (grows : watch.state.store.Grows state.store) : Ordered start ⟨state, watch.visits⟩ := by
  obtain ⟨now, before⟩ := List.pairwise_cons.mp ordered
  exact List.pairwise_cons.mpr ⟨fun earlier member => (now earlier member).trans grows, before⟩

theorem note (ordered : watch.Ordered start) {visit : Visit} (same : visit.state = watch.state) :
    (watch.note visit).Ordered start := by
  unfold Ordered Watch.note
  rw [List.map_cons, List.cons_append, same]
  refine List.pairwise_cons.mpr ⟨List.forall_mem_cons.mpr ⟨.refl _, ?_⟩, ordered⟩
  exact (List.pairwise_cons.mp ordered).1

end Watch.Ordered

namespace Rule

/-- The store grows, and tasks begin in scopes that are there. -/
def growing (start : Store) : Rule where
  fits _ := True
  kept watch := watch.Ordered start ∧
    ∀ visit ∈ watch.visits, ∀ scope ∈ visit.scope?, scope < visit.state.store.size
  lasts watch later := watch.state.store.Grows later.state.store
  good value watch := value.RefersBelow watch.state.store.size
  stands scope watch := scope < watch.state.store.size

variable {start : Store} {watch : Watch}

theorem growing_step {state : State} (kept : (growing start).kept watch)
    (grows : watch.state.store.Grows state.store) :
    (growing start).Steps watch ⟨state, watch.visits⟩ :=
  ⟨grows, kept.1.step grows, kept.2⟩

theorem growing_note {visit : Visit} (kept : (growing start).kept watch)
    (same : visit.state = watch.state)
    (standing : ∀ scope ∈ visit.scope?, scope < watch.state.store.size) :
    (growing start).Steps watch (watch.note visit) := by
  refine ⟨.refl _, kept.1.note same, List.forall_mem_cons.mpr ⟨?_, kept.2⟩⟩
  rw [same]
  exact standing

theorem growing_stable (start : Store) : (growing start).Stable where
  refl watch := .refl watch.state.store
  trans := Store.Grows.trans
  good_lasts good grows := good.mono grows.size_le
  mild _ := RefersBelow.mild _
  literal _ _ := trivial
  returned _ _ := trivial
  length _ same := RefersBelow.of_length same _
  function _ stands := stands
  opens stands := ⟨fun _ _ => trivial, stands⟩
  stands_lasts stands grows := Nat.lt_of_lt_of_le stands grows.size_le
  quiet _ _ kept := growing_step kept (.refl _)
  assign {value watch} scope name kept _ :=
    growing_step kept (watch.state.store.grows_bind scope name value)
  enter {bindings parent watch} kept _ _ := by
    have extend := watch.state.store.extends_enter (some parent) bindings
    refine ⟨growing_step kept extend.grows, ?_⟩
    change watch.state.store.size < (watch.state.entered parent bindings).store.size
    rw [watch.state.size_entered]
    exact Nat.lt_succ_self _
  begins _ holds _ standing := growing_note holds.1 rfl standing
  ends _ holds _ _ := growing_note holds.1 rfl nofun
  cuts _ _ holds _ := growing_note holds.1 rfl nofun

end Rule

/-- What there is at a moment: the state, the scope of a task that begins and the values at hand. -/
structure Moment where
  state : State
  scope? : Option Nat
  values : List Value

namespace Moment

/-- All that is at hand refers to one of the first scopes. -/
structure Within (moment : Moment) (size : Nat) : Prop where
  scope : ∀ scope ∈ moment.scope?, scope < size
  values : ∀ value ∈ moment.values, value.Within size

theorem Within.mono {moment : Moment} {size larger : Nat} (within : moment.Within size)
    (more : size ≤ larger) : moment.Within larger where
  scope scope member := Nat.lt_of_lt_of_le (within.scope scope member) more
  values value member := (within.values value member).mono fun _ refers => refers.mono more

/-- Whatever is referred to is there. -/
structure Sound (moment : Moment) : Prop where
  intact : moment.state.store.Intact
  within : moment.Within moment.state.store.size

/-- The store of an earlier moment has grown into that of a later one. -/
def Follows (later earlier : Moment) : Prop := earlier.state.store.Grows later.state.store

/-- Two rows of moments, the latest first, of which the later one goes on from where the earlier one
has come to. -/
theorem pairwise_overlap {later earlier : List Moment} {now : Moment}
    (first : (later ++ [now]).Pairwise Follows) (second : (now :: earlier).Pairwise Follows) :
    (later ++ now :: earlier).Pairwise Follows := by
  obtain ⟨inside, -, reached⟩ := List.pairwise_append.mp first
  obtain ⟨before, -⟩ := List.pairwise_cons.mp second
  refine List.pairwise_append.mpr ⟨inside, second, fun moment member past among => ?_⟩
  have grows : moment.Follows now := reached moment member now (List.mem_singleton_self now)
  rcases List.mem_cons.mp among with rfl | among
  · exact grows
  · exact (before past among).trans grows

end Moment

def Visit.moment (visit : Visit) : Moment := ⟨visit.state, visit.scope?, visit.values⟩

/-- What an evaluation leads to. -/
def Node.outcome (depth scope : Nat) (node : Node) (state : State) : Moment :=
  let ended := (node.evaluate depth scope).finish state
  ⟨ended.2, none, ended.1.values⟩

/-- The visits of an evaluation, the latest first, with its outcome before them. -/
theorem Node.moments_sound (depth : Nat) {scope : Nat} (node : Node) {now : Moment}
    (sound : now.Sound) (opened : scope < now.state.store.size) :
    let moments := node.outcome depth scope now.state ::
      ((node.visits depth scope now.state).map Visit.moment).reverse
    (∀ moment ∈ moments, moment.Sound) ∧ (moments ++ [now]).Pairwise Moment.Follows := by
  have begun : (Rule.growing now.state.store).Holds ⟨now.state, []⟩ := by
    refine ⟨⟨?_, fun _ member => absurd member List.not_mem_nil⟩, sound.intact.bound⟩
    exact List.pairwise_pair.mpr (.refl _)
  obtain ⟨final, -, ⟨⟨ordered, standing⟩, -⟩, visits, left, -⟩ := node.exists_final
    (Rule.growing_stable now.state.store) depth scope now.state (fun _ _ => trivial) begun opened
  obtain ⟨⟨intact, result⟩, passed⟩ := node.intact depth sound.intact opened
  intro moments
  have listed : moments = node.outcome depth scope now.state :: final.visits.map Visit.moment := by
    unfold moments
    rw [visits, List.map_reverse, List.reverse_reverse]
  constructor
  · rw [listed]
    refine List.forall_mem_cons.mpr ⟨⟨intact, nofun, result⟩, fun moment member => ?_⟩
    obtain ⟨visit, among, rfl⟩ := List.mem_map.mp member
    have here := passed visit (visits ▸ List.mem_reverse.mpr among)
    exact ⟨here.store, standing visit among, here.values⟩
  · have stores : (moments ++ [now]).map (·.state.store) =
        final.state.store :: (final.visits.map (·.state.store) ++ [now.state.store]) := by
      rw [listed, ← left]
      simp [Node.outcome, Visit.moment]
    unfold Watch.Ordered at ordered
    rw [← stores] at ordered
    exact (List.pairwise_map (f := fun moment : Moment => moment.state.store)).mp ordered

/-- What an interpreter goes through, the latest moment first. It begins with no scope, may open
root scopes and end its trace file, and evaluates in any scope that is there, however that ends. An
evaluation may also be given up wherever it has come to. -/
inductive History : List Moment → Prop
  | fresh (level : Nat) : History [⟨.fresh level, none, []⟩]
  | rooted {now : Moment} {past : List Moment} (history : History (now :: past)) :
      History (⟨now.state.openRoot.2, some now.state.openRoot.1, []⟩ :: now :: past)
  | closed {now : Moment} {past : List Moment} (history : History (now :: past)) :
      History (⟨{ now.state with trace := now.state.trace.close }, none, []⟩ :: now :: past)
  | evaluated {now : Moment} {past : List Moment} {scope : Nat} (history : History (now :: past))
      (opened : scope < now.state.store.size) (depth : Nat) (node : Node) :
      History (node.outcome depth scope now.state ::
        ((node.visits depth scope now.state).map Visit.moment).reverse ++ now :: past)
  | givenUp {now : Moment} {past : List Moment} {scope depth : Nat} {node : Node}
      {visits : List Visit} (history : History (now :: past))
      (opened : scope < now.state.store.size)
      (begun : visits <+: node.visits depth scope now.state) :
      History ((visits.map Visit.moment).reverse ++ now :: past)

namespace History

variable {moments past : List Moment} {now : Moment}

/-- One more moment. -/
theorem cons_sound (sound : ∀ moment ∈ now :: past, moment.Sound)
    (ordered : (now :: past).Pairwise Moment.Follows) {later : Moment} (fine : later.Sound)
    (follows : later.Follows now) :
    (∀ moment ∈ later :: now :: past, moment.Sound) ∧
      (later :: now :: past).Pairwise Moment.Follows := by
  have both : ([later] ++ [now]).Pairwise Moment.Follows := List.pairwise_pair.mpr follows
  exact ⟨List.forall_mem_cons.mpr ⟨fine, sound⟩, Moment.pairwise_overlap both ordered⟩

/-- By induction on the history. -/
theorem sound (history : History moments) :
    (∀ moment ∈ moments, moment.Sound) ∧ moments.Pairwise Moment.Follows := by
  induction history with
  | fresh level =>
    have nested : Store.empty.Nested := fun _ _ _ found => nomatch found
    have nothing : Moment.Within ⟨.fresh level, none, []⟩ 0 :=
      ⟨nofun, fun _ member => absurd member List.not_mem_nil⟩
    exact ⟨List.forall_mem_singleton.mpr ⟨⟨nested, .empty⟩, nothing⟩, List.pairwise_singleton _ _⟩
  | @rooted now past _ ih =>
    obtain ⟨sound, ordered⟩ := ih
    have intact := (sound now List.mem_cons_self).intact.rooted
    have within : Moment.Within ⟨now.state.openRoot.2, some now.state.openRoot.1, []⟩
        (now.state.store.opened none).size := by
      refine ⟨fun scope same => ?_, fun _ member => absurd member List.not_mem_nil⟩
      obtain rfl := Option.some.inj same
      rw [Store.size_opened]
      exact Nat.lt_succ_self _
    exact cons_sound sound ordered ⟨intact, within⟩ (now.state.store.extends_opened none).grows
  | @closed now past _ ih =>
    obtain ⟨sound, ordered⟩ := ih
    have within : Moment.Within ⟨{ now.state with trace := now.state.trace.close }, none, []⟩
        now.state.store.size := ⟨nofun, fun _ member => absurd member List.not_mem_nil⟩
    exact cons_sound sound ordered ⟨(sound now List.mem_cons_self).intact, within⟩ (.refl _)
  | evaluated _ opened depth node ih =>
    obtain ⟨sound, ordered⟩ := ih
    obtain ⟨fine, follow⟩ := node.moments_sound depth (sound _ List.mem_cons_self) opened
    exact ⟨List.forall_mem_append.mpr ⟨fine, sound⟩, Moment.pairwise_overlap follow ordered⟩
  | @givenUp now past scope depth node visits _ opened begun ih =>
    obtain ⟨sound, ordered⟩ := ih
    obtain ⟨fine, follow⟩ := node.moments_sound depth (sound now List.mem_cons_self) opened
    -- What was given up is the earlier part of the whole evaluation.
    have reached := (List.reverse_suffix.mpr (begun.map Visit.moment)).trans
      (List.suffix_cons (node.outcome depth scope now.state) _)
    refine ⟨List.forall_mem_append.mpr ⟨fun moment member => ?_, sound⟩, ?_⟩
    · exact fine moment (reached.subset member)
    · exact Moment.pairwise_overlap (follow.sublist (reached.sublist.append_right _)) ordered

end History

/-- A session goes on from where it is. -/
theorem Session.exists_moments (depth : Nat) (steps : List Step) {session : Session}
    {now : Moment} {past : List Moment} (history : History (now :: past))
    (here : now.state = session.state) (opened : root < session.state.store.size) :
    ∃ moments, History moments ∧
      (∀ visit ∈ session.history depth steps, visit.moment ∈ moments) ∧
      (∀ run ∈ session.perform depth steps, ⟨run.2.state, none, run.1.values⟩ ∈ moments) ∧
      now :: past <:+ moments := by
  induction steps generalizing session now past with
  | nil => exact ⟨_, history, nofun, nofun, List.suffix_rfl⟩
  | cons step rest ih =>
    cases step with
    | close =>
      have further := history.closed
      rw [here] at further
      obtain ⟨moments, whole, visited, ran, suffix⟩ := ih further rfl opened
      exact ⟨moments, whole, visited, ran, (List.suffix_cons _ _).trans suffix⟩
    | run node =>
      have further := history.evaluated (here ▸ opened) depth node
      obtain ⟨grown, -⟩ := List.pairwise_cons.mp further.sound.2
      have more := (grown now (List.mem_append_right _ List.mem_cons_self)).size_le
      rw [here] at further more
      obtain ⟨moments, whole, visited, ran, suffix⟩ :=
        ih further rfl (Nat.lt_of_lt_of_le opened more)
      refine ⟨moments, whole, fun visit member => ?_, fun run member => ?_,
        (List.suffix_append (_ :: _) (now :: past)).trans suffix⟩
      · rcases List.mem_append.mp member with member | member
        · have here := List.mem_reverse.mpr (List.mem_map_of_mem (f := Visit.moment) member)
          exact suffix.subset (List.mem_append_left _ (List.mem_cons_of_mem _ here))
        · exact visited visit member
      · rcases List.mem_cons.mp member with rfl | member
        · exact suffix.subset List.mem_cons_self
        · exact ran run member

/-- What a session goes through is part of a history. At every moment of a history, however the
evaluations end, the scopes are a forest: each is inside one that was opened before it, if inside
any, so the scopes around it come to an end, and looking a name up gives what the nearest one binds
it to, or nothing where none does. All scopes that functions refer to are there, in what is bound, in
what is at hand and in what was at hand before, and so in all that an evaluation under way holds. No
scope ever gets inside another one than it was opened in, and no bound name becomes unbound. -/
theorem scopes_form_a_forest :
    (∀ depth level steps, ∃ moments, History moments ∧
      (∀ visit ∈ (Session.start level).history depth steps, visit.moment ∈ moments) ∧
      ∀ run ∈ (Session.start level).perform depth steps,
        ⟨run.2.state, none, run.1.values⟩ ∈ moments) ∧
    ∀ moments, History moments →
      (∀ moment ∈ moments, moment.state.store.Forest ∧
        moment.state.store.Holds (Value.Within moment.state.store.size) ∧
        moment.Within moment.state.store.size) ∧
      moments.Pairwise fun later earlier =>
        earlier.state.store.Grows later.state.store ∧ earlier.Within later.state.store.size := by
  constructor
  · intro depth level steps
    have begun : History [⟨(Session.start level).state, some Session.root, []⟩,
      ⟨.fresh level, none, []⟩] := .rooted (.fresh level)
    obtain ⟨moments, whole, visited, ran, -⟩ :=
      Session.exists_moments depth steps begun rfl Nat.one_pos
    exact ⟨moments, whole, visited, ran⟩
  · intro moments history
    obtain ⟨sound, ordered⟩ := history.sound
    refine ⟨fun moment member => ?_, ordered.imp_of_mem fun _ member follows => ?_⟩
    · have sound := sound moment member
      exact ⟨sound.intact.nested.forest, sound.intact.bound, sound.within⟩
    · exact ⟨follows, (sound _ member).within.mono follows.size_le⟩

/-- A function that calls itself without end. The evaluation is given up in the second call, whose
scope stays and is inside the root scope as that of the first one is. -/
theorem endless_calls_form_a_forest :
    let node := Node.program (parse "let f = fn(x) \x7b f(x) \x7d; f(1)").program
    let state := (Session.start 0).state
    let outcome := node.outcome 2 Session.root state
    let moments := outcome :: ((node.visits 2 Session.root state).map Visit.moment).reverse ++
      [⟨state, some Session.root, []⟩, ⟨.fresh 0, none, []⟩]
    History moments ∧
    ((∀ moment ∈ moments, moment.state.store.Forest ∧
        moment.state.store.Holds (Value.Within moment.state.store.size) ∧
        moment.Within moment.state.store.size) ∧
      moments.Pairwise fun later earlier =>
        earlier.state.store.Grows later.state.store ∧ earlier.Within later.state.store.size) ∧
    ((node.evaluate 2 Session.root).finish state).1 = .depthExceeded ∧
    (outcome.state.store.scope? 2).bind Scope.parent = some 0 := by
  intro node state outcome moments
  have history : History moments := .evaluated (.rooted (.fresh 0)) Nat.one_pos 2 node
  exact ⟨history, scopes_form_a_forest.2 moments history, by cbv, by cbv⟩

end Monkey

import Monkey.Proofs.Keys
import Monkey.Proofs.Rules

/-!
The range of integers. The numbers in program texts fit into 64 bits, and what is computed with
integers is wrapped around. Lengths are not; they fit as long as texts and arrays are shorter than
2^63. So all integers that come up in a session are of 64 bits, and as keys no two are taken for
one.
-/

namespace Monkey

open Value

namespace Value

/-- An integer is in the range of the language. -/
def Ranged : Value → Prop
  | integer value => Integer.InRange value
  | _ => True

/-- The length of a text or an array is in the range of the language. -/
def Sized : Value → Prop
  | string text => text.utf8ByteSize < 0x8000000000000000
  | array elements => elements.length < 0x8000000000000000
  | _ => True

end Value

namespace Visit

def Sized (visit : Visit) : Prop := ∀ value ∈ visit.values, value.Sized

/-- All integers at hand or bound are in the range of the language. -/
structure Ranged (visit : Visit) : Prop where
  values : ∀ value ∈ visit.values, value.Each Value.Ranged
  store : visit.state.store.Holds (Each Value.Ranged)

end Visit

def Watch.Sized (watch : Watch) : Prop := ∀ visit ∈ watch.visits, visit.Sized

/-- Integers are in the range of the language, if so far no text and no array was too long for its
length to be. -/
def Rule.range : Rule where
  fits := Integer.InRange
  kept watch := watch.Sized → ∀ visit ∈ watch.visits, visit.Ranged
  lasts watch later := watch.visits ⊆ later.visits
  good
    | .integer value, watch => watch.Sized → Integer.InRange value
    | .function _ body _, _ => ∀ pair ∈ body.integers, Integer.InRange pair.2
    | _, _ => True
  stands _ _ := True

namespace Rule

variable {watch : Watch} {value : Value}

theorem ranged_of_fine (sized : watch.Sized) (fine : range.Fine value watch) :
    value.Each Ranged := by
  refine Each.mono fine fun part good => ?_
  cases part with
  | integer value => exact good sized
  | _ => trivial

/-- What is good at one moment is so at all others, once nothing too long came up. -/
theorem range_fine_of_sized (sized : watch.Sized) (fine : range.Fine value watch) (other : Watch) :
    range.Fine value other := by
  refine Each.mono fine fun part good => ?_
  cases part with
  | integer value => exact fun _ => good sized
  | function parameters body scope => exact good
  | _ => trivial

theorem range_note {visit : Visit} (holds : range.Holds watch) (same : visit.state = watch.state)
    (fine : ∀ value ∈ visit.values, range.Fine value watch) :
    range.Steps watch (watch.note visit) := by
  refine ⟨List.subset_cons_self _ _, fun sized => ?_⟩
  have earlier : watch.Sized := fun visit member => sized visit (List.mem_cons_of_mem _ member)
  refine List.forall_mem_cons.mpr ⟨⟨fun value member => ?_, ?_⟩, holds.1 earlier⟩
  · exact ranged_of_fine earlier (fine value member)
  · rw [same]
    exact fun scope opened binding member =>
      ranged_of_fine earlier (holds.2 scope opened binding member)

theorem range_of_length {arguments : List Value} {state : State}
    (noted : Visit.begins (.application (.builtin .len) arguments) state ∈ watch.visits)
    (same : Builtin.length arguments = .ok value) : range.good value watch := by
  have given (sized : watch.Sized) : ∀ argument ∈ arguments, argument.Sized :=
    fun argument member => sized _ noted argument (List.mem_cons_of_mem _ member)
  obtain ⟨text, rfl, rfl⟩ | ⟨elements, rfl, rfl⟩ := Builtin.exists_of_length same
  · intro sized
    have short : text.utf8ByteSize < 0x8000000000000000 := given sized _ List.mem_cons_self
    constructor <;> omega
  · intro sized
    have short : elements.length < 0x8000000000000000 := given sized _ List.mem_cons_self
    constructor <;> omega

theorem range_stable : range.Stable where
  refl _ := List.Subset.refl _
  trans := List.Subset.trans
  good_lasts {value _ _} good lasts := by
    cases value with
    | integer value => exact fun sized => good fun visit member => sized visit (lasts member)
    | function parameters body scope => exact good
    | _ => trivial
  stands_lasts _ _ := trivial
  mild _ := {
    integer := fun fits _ => fits
    boolean := fun _ => trivial
    string := fun _ => trivial
    null := trivial
    array := fun _ => trivial
    hash := fun _ => trivial
    builtin := fun _ => trivial }
  literal _ fits _ := fits
  returned _ _ := trivial
  length := range_of_length
  function fits _ := fits
  opens fits := ⟨fits, trivial⟩
  quiet _ _ kept := ⟨List.Subset.refl _, kept⟩
  assign _ _ kept _ := ⟨List.Subset.refl _, kept⟩
  enter kept _ _ := ⟨⟨List.Subset.refl _, kept⟩, trivial⟩
  begins _ holds fine _ := range_note holds rfl fine
  ends _ holds _ fine := range_note holds rfl (List.forall_mem_singleton.mpr fine)
  cuts _ _ holds _ := by
    refine range_note holds rfl fun value member => ?_
    obtain ⟨message, rfl⟩ := Visit.exists_error member
    exact each_of_atom rfl trivial

end Rule

/-- The numbers that are read from a text fit, whatever problems it has. -/
theorem parse_fits (source : String) : Rule.range.Admits (integers (parse source).program) := by
  intro pair member
  obtain ⟨token, fits, rfl⟩ := List.mem_map.mp ((parse_accounts source).2.2.subset member)
  have fits : token.fitting = true := (List.mem_filter.mp fits).2
  simp only [Token.fitting, Bool.and_eq_true, decide_eq_true_eq] at fits
  have small : token.number ≤ 0x7fffffffffffffff := fits.2
  constructor
  · exact Int.le_trans (by decide) (Int.natCast_nonneg token.number)
  · exact Int.lt_of_le_of_lt (Int.ofNat_le.mpr small) (by decide)

/-- A value without others in it that is no text. -/
def Value.isSmall (value : Value) : Bool := value.isAtom && value.kind != .string

def Ending.isSmall : Ending → Bool
  | .value result => result.isSmall
  | _ => true

theorem Value.sized_of_isSmall {part value : Value} (small : value.isSmall = true)
    (inside : part.Part value) : part.Sized := by
  cases inside with
  | whole =>
    cases part with
    | string _ | array _ => cases small
    | _ => trivial
  | _ => cases small

def Store.bindsSmall (store : Store) : Bool :=
  store.scopes.toList.all (·.bindings.all (·.2.isSmall))

theorem Store.isSmall_of_bindsSmall {store : Store} (small : store.bindsSmall = true)
    {scope : Scope} {name : String} {value : Value} (opened : scope ∈ store.scopes)
    (member : (name, value) ∈ scope.bindings) : value.isSmall = true :=
  List.all_eq_true.mp (List.all_eq_true.mp small scope (Array.mem_toList_iff.mpr opened)) _ member

namespace Session

variable {depth : Nat} {session : Session} {steps : List Step}

/-- What comes up in a single run, and what it leaves bound. -/
theorem ranged_run (source : String)
    (bound : ∀ watch, session.state.store.Holds (Rule.range.Fine · watch))
    (sized : ∀ visit ∈ session.history depth [.run (.program (parse source).program)],
      visit.Sized) :
    (∀ value, session.Shows depth [.run (.program (parse source).program)] value →
      value.Each Ranged) ∧ ∀ watch, (session.run depth (.program
        (parse source).program)).2.state.store.Holds (Rule.range.Fine · watch) := by
  obtain ⟨final, -, holds, visits, state, result⟩ := Node.exists_conforming
    Rule.range_stable depth (.program (parse source).program) session (parse_fits source)
    ⟨fun _ _ member => absurd member List.not_mem_nil, bound _⟩ trivial
  have history : session.history depth [.run (.program (parse source).program)] =
      final.visits.reverse := by rw [← visits]; exact List.append_nil _
  rw [history] at sized
  have sized : final.Sized := fun visit member => sized visit (List.mem_reverse.mpr member)
  have ranged := holds.1 sized
  have left (watch : Watch) : final.state.store.Holds (Rule.range.Fine · watch) :=
    fun scope opened binding member =>
      Rule.range_fine_of_sized sized (holds.2 scope opened binding member) watch
  refine ⟨fun value shows => ?_, fun watch => state ▸ left watch⟩
  cases shows with
  | atHand visited member =>
    rw [history] at visited
    exact (ranged _ (List.mem_reverse.mp visited)).values value member
  | bound visited opened member =>
    rw [history] at visited
    exact (ranged _ (List.mem_reverse.mp visited)).store _ opened _ member
  | result ran same =>
    obtain rfl := List.mem_singleton.mp ran
    cases value with
    | error message => exact each_of_atom rfl trivial
    | _ => exact Rule.ranged_of_fine sized (result _ same rfl)
  | left ran opened member =>
    obtain rfl := List.mem_singleton.mp ran
    rw [state] at opened
    exact Rule.ranged_of_fine sized (left final _ opened _ member)

/-- By induction on the steps. What one run leaves bound is good for all others without further
conditions, since nothing too long came up in it. -/
theorem ranged_of_shows (parsed : ∀ step ∈ steps, step.Parsed)
    (bound : ∀ watch, session.state.store.Holds (Rule.range.Fine · watch))
    (sized : ∀ visit ∈ session.history depth steps, visit.Sized) (value : Value)
    (shows : session.Shows depth steps value) : value.Each Ranged := by
  induction steps generalizing session with
  | nil => cases shows <;> exact absurd ‹_ ∈ []› List.not_mem_nil
  | cons step rest ih =>
    obtain ⟨first, others⟩ := List.forall_mem_cons.mp parsed
    cases step with
    | close => exact @ih session.close others bound sized shows.of_close
    | run node =>
      obtain ⟨source, rfl⟩ := first
      obtain ⟨here, further⟩ := List.forall_mem_append.mp sized
      rw [← List.append_nil ((Node.program (parse source).program).visits ..)] at here
      obtain ⟨ranged, left⟩ := ranged_run source bound here
      rcases shows.of_run with shows | shows
      · exact ranged value shows
      · exact ih others left further shows

/-- As long as all texts and arrays that come up in a session are shorter than 2^63, all integers
that come up are in the range of the language, and two of them are one key only if they are equal.
It does not matter whether the programs were read without problems. -/
theorem integers_stay_in_range (depth level : Nat) (steps : List Step)
    (parsed : ∀ step ∈ steps, step.Parsed)
    (sized : ∀ value, (start level).ComesUp depth steps value → value.Sized) :
    (∀ number, (start level).ComesUp depth steps (.integer number) → Integer.InRange number) ∧
      ∀ first second, (start level).ComesUp depth steps (.integer first) →
        (start level).ComesUp depth steps (.integer second) →
          (Value.integer first).hashKey? = (Value.integer second).hashKey? → first = second := by
  have short : ∀ visit ∈ (start level).history depth steps, visit.Sized :=
    fun visit visited value member => sized value ⟨value, .atHand visited member, .whole⟩
  have inRange (number : Int) (comes : (start level).ComesUp depth steps (.integer number)) :
      Integer.InRange number := by
    obtain ⟨value, shows, part⟩ := comes
    exact ranged_of_shows parsed (fun _ => Store.Holds.empty.opened none) short value shows _ part
  refine ⟨inRange, fun first second here there same => ?_⟩
  obtain ⟨low, high⟩ := inRange first here
  obtain ⟨low', high'⟩ := inRange second there
  exact HashKey.eq_of_ofInteger low high low' high' (Option.some.inj same)

/-- A session that adds to the greatest integer. -/
def overflow : List Step :=
  [.run (.program (parse "let most = 9223372036854775807; most + 1").program)]

/-- No text and no array comes up in it. -/
theorem overflow_stays_in_range : (∀ step ∈ overflow, step.Parsed) ∧
    (∀ value, (start 0).ComesUp callDepth overflow value → value.Sized) ∧
    (∀ number, (start 0).ComesUp callDepth overflow (.integer number) →
      Integer.InRange number) := by
  have parsed : ∀ step ∈ overflow, step.Parsed := List.forall_mem_singleton.mpr ⟨_, rfl⟩
  have visits : ((start 0).history callDepth overflow).all (fun visit =>
      visit.values.all isSmall && visit.state.store.bindsSmall) = true := by cbv
  have runs : ((start 0).perform callDepth overflow).all (fun run =>
      run.1.isSmall && run.2.state.store.bindsSmall) = true := by cbv
  simp only [List.all_eq_true, Bool.and_eq_true] at visits runs
  have sized : ∀ value, (start 0).ComesUp callDepth overflow value → value.Sized := by
    rintro part ⟨value, shows, inside⟩
    cases shows with
    | atHand visited member => exact sized_of_isSmall ((visits _ visited).1 _ member) inside
    | bound visited opened member =>
      exact sized_of_isSmall (Store.isSmall_of_bindsSmall (visits _ visited).2 opened member) inside
    | @result run ran same =>
      have small := (runs _ ran).1
      rw [same] at small
      exact sized_of_isSmall small inside
    | left ran opened member =>
      exact sized_of_isSmall (Store.isSmall_of_bindsSmall (runs _ ran).2 opened member) inside
  exact ⟨parsed, sized, (integers_stay_in_range callDepth 0 overflow parsed sized).1⟩

end Session

end Monkey

import Monkey.Proofs.References

/-!
Scopes around scopes. Where each scope is inside an earlier one, the scopes around it come to an
end, and looking a name up goes along them to the first that binds it.
-/

namespace Monkey.Store

/-- A scope is right around another one. -/
def Encloses (store : Store) (outer inner : Nat) : Prop :=
  ∃ scope, store.scope? inner = some scope ∧ scope.parent = some outer

/-- What a scope itself binds a name to. -/
def bound? (store : Store) (number : Nat) (name : String) : Option Value :=
  (store.scope? number).bind fun scope => scope.bindings.lookup name

/-- A scope, the one around it, and so on up to one that is inside no other. -/
inductive Chain (store : Store) : Nat → List Nat → Prop
  | outermost {number : Nat} {scope : Scope} (found : store.scope? number = some scope)
      (alone : scope.parent = none) : Chain store number [number]
  | inside {number outer : Nat} {scope : Scope} {around : List Nat}
      (found : store.scope? number = some scope) (parent : scope.parent = some outer)
      (further : Chain store outer around) : Chain store number (number :: around)

/-- How looking a name up goes from scope to scope, in whatever order they were opened. Where the
scopes around one never end, it comes to nothing. -/
inductive Gets (store : Store) (name : String) : Nat → Option Value → Prop
  | here {number : Nat} {scope : Scope} {value : Value} (found : store.scope? number = some scope)
      (binds : scope.bindings.lookup name = some value) : Gets store name number (some value)
  | nowhere {number : Nat} {scope : Scope} (found : store.scope? number = some scope)
      (unbound : scope.bindings.lookup name = none) (alone : scope.parent = none) :
      Gets store name number none
  | further {number outer : Nat} {scope : Scope} {result : Option Value}
      (found : store.scope? number = some scope) (unbound : scope.bindings.lookup name = none)
      (parent : scope.parent = some outer) (gets : Gets store name outer result) :
      Gets store name number result

variable {store : Store} {number : Nat} {around : List Nat} {name : String}

theorem bound?_eq {scope : Scope} (found : store.scope? number = some scope) :
    store.bound? number name = scope.bindings.lookup name := by
  unfold bound?
  rw [found]
  rfl

/-! In any store. -/

theorem Chain.unique (chain : store.Chain number around) {other : List Nat}
    (chain' : store.Chain number other) : other = around := by
  induction chain generalizing other with
  | outermost found alone =>
    cases chain' with
    | outermost => rfl
    | inside found' parent' =>
      obtain rfl := Option.some.inj (found.symm.trans found')
      cases alone.symm.trans parent'
  | inside found parent _ ih =>
    cases chain' with
    | outermost found' alone' =>
      obtain rfl := Option.some.inj (found.symm.trans found')
      cases parent.symm.trans alone'
    | inside found' parent' further' =>
      obtain rfl := Option.some.inj (found.symm.trans found')
      obtain rfl := Option.some.inj (parent.symm.trans parent')
      rw [ih further']

/-- Looking up ends where the chain does, with the first binding that is on it. -/
theorem Chain.gets (chain : store.Chain number around) (name : String) :
    store.Gets name number (around.findSome? fun scope => store.bound? scope name) := by
  induction chain with
  | @outermost _ scope found alone =>
    rw [List.findSome?_singleton, bound?_eq found]
    cases binds : scope.bindings.lookup name with
    | some value => exact .here found binds
    | none => exact .nowhere found binds alone
  | @inside _ _ scope _ found parent _ ih =>
    rw [List.findSome?_cons, bound?_eq found]
    cases binds : scope.bindings.lookup name with
    | some value => exact .here found binds
    | none => exact .further found binds parent ih

theorem Gets.unique {result other : Option Value} (gets : store.Gets name number result)
    (gets' : store.Gets name number other) : result = other := by
  induction gets with
  | here found binds =>
    cases gets' with
    | here found' binds' =>
      obtain rfl := Option.some.inj (found.symm.trans found')
      exact binds.symm.trans binds'
    | nowhere found' unbound' | further found' unbound' =>
      obtain rfl := Option.some.inj (found.symm.trans found')
      cases binds.symm.trans unbound'
  | nowhere found unbound alone =>
    cases gets' with
    | here found' binds' =>
      obtain rfl := Option.some.inj (found.symm.trans found')
      cases unbound.symm.trans binds'
    | nowhere => rfl
    | further found' _ parent' =>
      obtain rfl := Option.some.inj (found.symm.trans found')
      cases alone.symm.trans parent'
  | further found unbound parent _ ih =>
    cases gets' with
    | here found' binds' =>
      obtain rfl := Option.some.inj (found.symm.trans found')
      cases unbound.symm.trans binds'
    | nowhere found' _ alone' =>
      obtain rfl := Option.some.inj (found.symm.trans found')
      cases parent.symm.trans alone'
    | further found' _ parent' further' =>
      obtain rfl := Option.some.inj (found.symm.trans found')
      obtain rfl := Option.some.inj (parent.symm.trans parent')
      exact ih further'

/-! In a store where each scope is inside an earlier one. -/

namespace Nested

variable (nested : store.Nested)
include nested

theorem wellFounded : WellFounded store.Encloses := by
  refine Subrelation.wf (fun {outer inner} encloses => ?_) Nat.lt_wfRel.wf
  obtain ⟨scope, found, parent⟩ := encloses
  exact nested inner scope outer found parent

/-- By induction on the number of the scope: the one around it has a smaller one. -/
theorem exists_chain (opened : number < store.size) : ∃ around, store.Chain number around := by
  induction number using Nat.strongRecOn with
  | ind number ih =>
    obtain ⟨scope, found⟩ : ∃ scope, store.scope? number = some scope :=
      ⟨_, Array.getElem?_eq_getElem opened⟩
    cases parent : scope.parent with
    | none => exact ⟨_, .outermost found parent⟩
    | some outer =>
      have earlier := nested number scope outer found parent
      obtain ⟨around, chain⟩ := ih outer earlier (Nat.lt_trans earlier opened)
      exact ⟨_, .inside found parent chain⟩

theorem le_of_mem (chain : store.Chain number around) : ∀ scope ∈ around, scope ≤ number := by
  induction chain with
  | outermost => exact List.forall_mem_singleton.mpr (Nat.le_refl _)
  | inside found parent _ ih =>
    have earlier := nested _ _ _ found parent
    exact List.forall_mem_cons.mpr
      ⟨Nat.le_refl _, fun scope member => Nat.le_trans (ih scope member) (Nat.le_of_lt earlier)⟩

theorem outwards (chain : store.Chain number around) :
    around.Pairwise fun inner outer => outer < inner := by
  induction chain with
  | outermost => exact List.pairwise_singleton _ _
  | inside found parent further ih =>
    have earlier := nested _ _ _ found parent
    exact List.pairwise_cons.mpr
      ⟨fun scope member => Nat.lt_of_le_of_lt (nested.le_of_mem further scope member) earlier, ih⟩

theorem find?_eq (chain : store.Chain number around) (name : String) :
    store.find? number name = around.findSome? fun scope => store.bound? scope name := by
  induction chain with
  | @outermost number scope found alone =>
    rw [List.findSome?_singleton, bound?_eq found, Store.find?, found]
    dsimp only
    rw [alone]
    cases scope.bindings.lookup name <;> rfl
  | @inside number outer scope around found parent _ ih =>
    have earlier := nested _ _ _ found parent
    rw [List.findSome?_cons, bound?_eq found, Store.find?, found]
    dsimp only
    rw [parent]
    dsimp only
    rw [if_pos earlier, ih]
    cases scope.bindings.lookup name <;> rfl

end Nested

/-- The scopes around one, and what looking names up from it comes to. -/
structure Outlook (store : Store) (number : Nat) (around : List Nat) : Prop where
  chain : store.Chain number around
  unique : ∀ other, store.Chain number other → other = around
  /-- Further out are older scopes, so none comes twice. -/
  outwards : around.Pairwise fun inner outer => outer < inner
  gets_iff : ∀ name result, store.Gets name number result ↔ result = store.find? number name
  nearest : ∀ name,
    store.find? number name = around.findSome? fun scope => store.bound? scope name
  unbound_iff : ∀ name,
    store.find? number name = none ↔ ∀ scope ∈ around, store.bound? scope name = none

/-- Every scope is inside an earlier one, if inside any, and looking up from it comes to an end. -/
structure Forest (store : Store) : Prop where
  nested : store.Nested
  wellFounded : WellFounded store.Encloses
  outlook : ∀ number < store.size, ∃ around, store.Outlook number around

theorem Nested.forest (nested : store.Nested) : store.Forest where
  nested := nested
  wellFounded := nested.wellFounded
  outlook number opened := by
    obtain ⟨around, chain⟩ := nested.exists_chain opened
    have nearest := nested.find?_eq chain
    refine ⟨around, chain, fun _ => chain.unique, nested.outwards chain, ?_, nearest, ?_⟩
    · intro name result
      have gets := chain.gets name
      rw [← nearest name] at gets
      exact ⟨fun gets' => gets'.unique gets, fun same => same ▸ gets⟩
    · intro name
      rw [nearest name, List.findSome?_eq_none_iff]

end Monkey.Store

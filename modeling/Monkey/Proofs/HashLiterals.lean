import Monkey.Proofs.Keys
import Monkey.Proofs.Visits
import Monkey.Value.Agreement

/-!
What a hash literal builds. Its pairs are evaluated and filed one after the other. The hash has one
entry for each key that came up, in the order in which the keys first did, and the entry for a key
is that of the last pair with it; so what is found under a key is the value of that pair.
-/

namespace Monkey

namespace Entry

variable {α : Type}

/-- Filing an entry leaves the keys as they are, or puts a new one after them. -/
theorem hashKeys_insert (entry : Entry α) (entries : List (Entry α)) :
    (insert entry entries).map hashKey =
      if entry.hashKey ∈ entries.map hashKey then entries.map hashKey
      else entries.map hashKey ++ [entry.hashKey] := by
  induction entries with
  | nil => rfl
  | cons first rest ih =>
    unfold insert
    by_cases known : first.hashKey = entry.hashKey
    · simp [known]
    · have other : ¬ entry.hashKey = first.hashKey := fun same => known same.symm
      simp only [known, if_false, List.map_cons, ih, List.mem_cons, other, false_or]
      split <;> rfl

/-- Where every key has one entry, an entry is what is found under its key. -/
theorem find?_of_mem {entry : Entry α} {entries : List (Entry α)}
    (distinct : (entries.map hashKey).Nodup) (member : entry ∈ entries) :
    find? entries entry.hashKey = some entry := by
  induction entries with
  | nil => exact absurd member List.not_mem_nil
  | cons first rest ih =>
    obtain ⟨fresh, distinct⟩ := List.nodup_cons.mp distinct
    unfold find?
    rcases List.mem_cons.mp member with rfl | member
    · exact List.find?_cons_of_pos (by simp)
    · have other : first.hashKey ≠ entry.hashKey :=
        fun same => fresh (same ▸ List.mem_map_of_mem member)
      rw [List.find?_cons_of_neg (by simpa using other)]
      exact ih distinct member

end Entry

namespace Value

/-- The keys of some pairs that are filed, in the order of the pairs. -/
def filedKeys (pairs : List (Value × Value)) : List HashKey :=
  pairs.filterMap fun pair => pair.1.hashKey?

/-- The last of some pairs that is filed under a key. -/
def lastFiled? (pairs : List (Value × Value)) (wanted : HashKey) : Option (Value × Value) :=
  (pairs.filter fun pair => pair.1.hashKey? = some wanted).getLast?

/-- The entries are those of the pairs: one for each of their keys, where it first comes up, with
the key and the value of the last pair that has it. -/
structure KeepsLast (pairs : List (Value × Value)) (entries : List (Entry Value)) : Prop where
  keys : entries.map Entry.hashKey = (filedKeys pairs).eraseDups
  distinct : (entries.map Entry.hashKey).Nodup
  found : ∀ wanted, Entry.find? entries wanted =
    (lastFiled? pairs wanted).map fun pair => ⟨wanted, pair.1, pair.2⟩

variable {pairs : List (Value × Value)} {entries : List (Entry Value)}

theorem lastFiled?_concat (pairs : List (Value × Value)) (pair : Value × Value)
    (wanted : HashKey) : lastFiled? (pairs ++ [pair]) wanted =
      if pair.1.hashKey? = some wanted then some pair else lastFiled? pairs wanted := by
  unfold lastFiled?
  rw [List.filter_append, List.getLast?_append]
  by_cases same : pair.1.hashKey? = some wanted <;> simp [same]

theorem hashKey?_of_lastFiled? {pair : Value × Value} {wanted : HashKey}
    (last : lastFiled? pairs wanted = some pair) : pair.1.hashKey? = some wanted := by
  have member := List.mem_of_getLast? last
  simpa using (List.mem_filter.mp member).2

namespace KeepsLast

theorem nil : KeepsLast [] [] := ⟨rfl, List.nodup_nil, fun _ => rfl⟩

/-- Filing one more pair. -/
theorem file (keeps : KeepsLast pairs entries) (pair : Value × Value) :
    KeepsLast (pairs ++ [pair]) (ofPairs.file entries pair) := by
  cases hashed : pair.1.hashKey? with
  | none =>
    have same : ofPairs.file entries pair = entries := by
      unfold ofPairs.file
      rw [hashed]
    rw [same]
    refine ⟨?_, keeps.distinct, fun wanted => ?_⟩
    · simpa [filedKeys, hashed] using keeps.keys
    · rw [lastFiled?_concat, hashed, if_neg nofun]
      exact keeps.found wanted
  | some hashKey =>
    have same : ofPairs.file entries pair = Entry.insert ⟨hashKey, pair.1, pair.2⟩ entries := by
      unfold ofPairs.file
      rw [hashed]
    have listed : hashKey ∈ entries.map Entry.hashKey ↔ hashKey ∈ filedKeys pairs := by
      rw [keeps.keys, List.mem_eraseDups]
    rw [same]
    refine ⟨?_, ?_, fun wanted => ?_⟩
    · have keys : filedKeys (pairs ++ [pair]) = filedKeys pairs ++ [hashKey] := by
        simp [filedKeys, hashed]
      rw [Entry.hashKeys_insert, keys, List.eraseDups_append, ← keeps.keys]
      by_cases known : hashKey ∈ filedKeys pairs <;>
        simp [listed, known, List.removeAll, List.eraseDups_cons]
    · rw [Entry.hashKeys_insert]
      split
      · exact keeps.distinct
      · rename_i fresh
        exact List.nodup_append.mpr ⟨keeps.distinct, List.nodup_singleton _, by
          intro other member _ single
          obtain rfl := List.mem_singleton.mp single
          exact fun same => fresh (same ▸ member)⟩
    · rw [Entry.find?_insert, lastFiled?_concat, hashed, keeps.found wanted]
      by_cases asked : hashKey = wanted <;> simp [asked]

/-- All pairs filed one after the other. -/
theorem foldl (pairs : List (Value × Value)) : KeepsLast pairs (pairs.foldl ofPairs.file []) := by
  induction pairs using List.reverseRecOn with
  | nil => exact .nil
  | append_singleton pairs pair ih =>
    rw [List.foldl_append]
    exact ih.file pair

variable (keeps : KeepsLast pairs entries)
include keeps

theorem lastFiled?_of_mem {entry : Entry Value} (member : entry ∈ entries) :
    lastFiled? pairs entry.hashKey = some (entry.key, entry.value) := by
  have found := keeps.found entry.hashKey
  rw [Entry.find?_of_mem keeps.distinct member] at found
  obtain ⟨pair, last, same⟩ := Option.map_eq_some_iff.mp found.symm
  rw [last, ← same]

theorem index_eq {position : Value} {wanted : HashKey} (asked : position.hashKey? = some wanted) :
    (hash entries).index position = .ok (((lastFiled? pairs wanted).map Prod.snd).getD null) := by
  simp only [index, asked, keeps.found wanted, Option.map_map]
  rfl

end KeepsLast

/-- Values of different kinds have different keys. -/
theorem kind_of_hashKey? {value : Value} {hashKey : HashKey}
    (hashed : value.hashKey? = some hashKey) : hashKey.kind = value.kind := by
  cases value <;> cases hashed <;> rfl

/-- Under an integer or a truth value only equal keys are filed. -/
theorem Key.hashKey?_eq_iff_same {key position : Value} (keyed : key.Key)
    (positioned : position.Key) (plain : position.kind ≠ .string) :
    key.hashKey? = position.hashKey? ↔ key.same position = true := by
  rw [keyed.hashKey?_eq_iff positioned, keyed.equals_iff positioned]
  cases positioned with
  | string text => exact absurd rfl plain
  | _ => cases keyed <;> simp [Collides, same]

theorem lastFiled?_of_key {position : Value} {wanted : HashKey} (keyed : ∀ pair ∈ pairs, pair.1.Key)
    (positioned : position.Key) (plain : position.kind ≠ .string)
    (asked : position.hashKey? = some wanted) :
    lastFiled? pairs wanted = (pairs.filter fun pair => pair.1.same position).getLast? := by
  unfold lastFiled?
  congr 1
  refine List.filter_congr fun pair member => ?_
  have same := (keyed pair member).hashKey?_eq_iff_same positioned plain
  rw [asked] at same
  by_cases equal : pair.1.same position = true <;> simp [same, equal]

end Value

/-! Evaluation. -/

/-- From one state to another a row of pairs is evaluated to pairs of values, one after the other
and each key before its value. No value is an error, and all keys can be keys. -/
inductive Yields (calling : Calling) (scope : Nat) :
    State → List (Expr × Expr) → List (Value × Value) → State → Prop
  | nil (state : State) : Yields calling scope state [] [] state
  | cons {before afterKey afterValue after : State} {keyExpr valueExpr : Expr} {key value : Value}
      {rest : List (Expr × Expr)} {pairs : List (Value × Value)}
      (first : keyExpr.evaluate calling scope before = .ok key afterKey)
      (hashed : key.hashKey?.isSome = true)
      (second : valueExpr.evaluate calling scope afterKey = .ok value afterValue)
      (settled : value.isError = false)
      (others : Yields calling scope afterValue rest pairs after) :
      Yields calling scope before ((keyExpr, valueExpr) :: rest) ((key, value) :: pairs) after

section
variable {calling : Calling} {scope : Nat} {before after last : State}
variable {list : List (Expr × Expr)} {pairs : List (Value × Value)}

namespace Yields

/-- The entries of a literal are those of its pairs, filed one after the other. -/
theorem evaluatePairs (yields : Yields calling scope before list pairs after)
    (entries : List (Entry Value)) :
    Expr.evaluatePairs calling scope entries list before =
      .ok (pairs.foldl Value.ofPairs.file entries) after := by
  induction yields generalizing entries with
  | nil => rfl
  | @cons _ _ _ _ _ _ key value _ _ first hashed second _ _ ih =>
    obtain ⟨hashKey, found⟩ := Option.isSome_iff_exists.mp hashed
    have filed : Value.ofPairs.file entries (key, value) =
        Entry.insert ⟨hashKey, key, value⟩ entries := by
      unfold Value.ofPairs.file
      rw [found]
    unfold Expr.evaluatePairs
    rw [bind_of_ok first]
    simp only [found]
    rw [bind_of_ok second, ih, List.foldl_cons, filed]

theorem evaluate (yields : Yields calling scope before list pairs after) (opening : Token) :
    (Expr.hash opening list).evaluate calling scope before =
      .ok (.hash (pairs.foldl Value.ofPairs.file [])) after := by
  unfold Expr.evaluate
  rw [bind_of_ok (yields.evaluatePairs [])]
  rfl

theorem hashed (yields : Yields calling scope before list pairs after) :
    ∀ pair ∈ pairs, pair.1.hashKey?.isSome = true := by
  induction yields with
  | nil => exact fun _ member => absurd member List.not_mem_nil
  | cons _ hashed _ _ _ ih => exact List.forall_mem_cons.mpr ⟨hashed, ih⟩

theorem settled (yields : Yields calling scope before list pairs after) :
    ∀ pair ∈ pairs, pair.2.isError = false := by
  induction yields with
  | nil => exact fun _ member => absurd member List.not_mem_nil
  | cons _ _ _ settled _ ih => exact List.forall_mem_cons.mpr ⟨settled, ih⟩

/-- What the literal has under a key is not an error, so it is the value of an index. -/
theorem evaluate_index (yields : Yields calling scope before list pairs after)
    (opening bracket : Token) {positionExpr : Expr} {position : Value} {wanted : HashKey}
    (third : positionExpr.evaluate calling scope after = .ok position last)
    (asked : position.hashKey? = some wanted) :
    (Expr.index bracket (.hash opening list) positionExpr).evaluate calling scope before =
      .ok (((Value.lastFiled? pairs wanted).map Prod.snd).getD .null) last := by
  have found := (Value.KeepsLast.foldl pairs).index_eq asked
  unfold Expr.evaluate
  rw [bind_of_ok (yields.evaluate opening), bind_of_ok third, found]
  cases filed : Value.lastFiled? pairs wanted with
  | none => rfl
  | some pair =>
    have member := List.mem_of_mem_filter (List.mem_of_getLast? filed)
    have sound := yields.settled pair member
    obtain ⟨key, value⟩ := pair
    cases value <;> first
      | rfl
      | cases sound

end Yields

/-- A hash literal has one entry for each key that its pairs have, in the order in which the keys
first come up; the entry is that of the last pair with the key, and its value is what is found under
the key. Under an integer or a truth value that is the last pair whose key is equal to it. -/
theorem hash_literal_keeps_last_pairs (opening bracket : Token)
    (yields : Yields calling scope before list pairs after) :
    ∃ entries, (Expr.hash opening list).evaluate calling scope before = .ok (.hash entries) after ∧
      Value.KeepsLast pairs entries ∧
      (∀ entry ∈ entries, entry.key.hashKey? = some entry.hashKey ∧
        Value.lastFiled? pairs entry.hashKey = some (entry.key, entry.value)) ∧
      (∀ position wanted, position.hashKey? = some wanted →
        (Value.hash entries).index position =
          .ok (((Value.lastFiled? pairs wanted).map Prod.snd).getD .null)) ∧
      (∀ positionExpr position wanted last,
        positionExpr.evaluate calling scope after = .ok position last →
        position.hashKey? = some wanted →
          (Expr.index bracket (.hash opening list) positionExpr).evaluate calling scope before =
            .ok (((Value.lastFiled? pairs wanted).map Prod.snd).getD .null) last) ∧
      (∀ position wanted, (∀ pair ∈ pairs, pair.1.Key) → position.Key → position.kind ≠ .string →
        position.hashKey? = some wanted → Value.lastFiled? pairs wanted =
          (pairs.filter fun pair => pair.1.same position).getLast?) ∧
      ∀ pair ∈ pairs, ∀ position : Value, position.hashKey? = pair.1.hashKey? →
        position.kind = pair.1.kind := by
  have keeps := Value.KeepsLast.foldl pairs
  refine ⟨_, yields.evaluate opening, keeps, fun entry member => ?_,
    fun position wanted asked => keeps.index_eq asked, ?_, ?_, ?_⟩
  · have last := keeps.lastFiled?_of_mem member
    exact ⟨Value.hashKey?_of_lastFiled? last, last⟩
  · intro positionExpr position wanted last third asked
    exact yields.evaluate_index opening bracket third asked
  · intro position wanted keyed positioned plain asked
    exact Value.lastFiled?_of_key keyed positioned plain asked
  · intro pair member position same
    obtain ⟨hashKey, found⟩ := Option.isSome_iff_exists.mp (yields.hashed pair member)
    rw [← Value.kind_of_hashKey? found, Value.kind_of_hashKey? (same.trans found)]

end

/-- The pairs of `{1: "a", true: "b", 1: "c"}`. -/
def repeatedKey : List (Expr × Expr) :=
  [(.integer ⟨.int, "1", .start⟩ 1, .string ⟨.string, "a", .start⟩ "a"),
    (.boolean ⟨.trueKeyword, "true", .start⟩ true, .string ⟨.string, "b", .start⟩ "b"),
    (.integer ⟨.int, "1", .start⟩ 1, .string ⟨.string, "c", .start⟩ "c")]

/-- The key `1` stays first and has its later value; `true` is another key. -/
theorem repeated_key_keeps_place :
    Yields (applyWithin 0) 0 (State.fresh 0) repeatedKey
        [(.integer 1, .string "a"), (.boolean true, .string "b"), (.integer 1, .string "c")]
        (State.fresh 0) ∧
      ∃ entries, (Expr.hash ⟨.leftBrace, "\x7b", .start⟩ repeatedKey).evaluate (applyWithin 0) 0
          (State.fresh 0) = .ok (.hash entries) (State.fresh 0) ∧
        entries.map Entry.hashKey = [.ofInteger 1, .ofBoolean true] ∧
        Entry.find? entries (.ofInteger 1) =
          some ⟨.ofInteger 1, .integer 1, .string "c"⟩ := by
  have yields : Yields (applyWithin 0) 0 (State.fresh 0) repeatedKey
      [(.integer 1, .string "a"), (.boolean true, .string "b"), (.integer 1, .string "c")]
      (State.fresh 0) :=
    .cons rfl rfl rfl rfl (.cons rfl rfl rfl rfl (.cons rfl rfl rfl rfl (.nil _)))
  obtain ⟨entries, evaluated, keeps, -⟩ := hash_literal_keeps_last_pairs
    ⟨.leftBrace, "\x7b", .start⟩ ⟨.leftBracket, "[", .start⟩ yields
  refine ⟨yields, entries, evaluated, ?_, ?_⟩
  · rw [keeps.keys]
    decide
  · rw [keeps.found]
    rfl

end Monkey

import Monkey.Proofs.Canonical
import Monkey.Proofs.Layout
import Monkey.Proofs.Parts

/-!
Printed data is read back. Integers, truth values, arrays and hashes show as expressions, and these
have the values they were printed from. Only the least integer does not come back: its digits
without the sign are no number of the language.
-/

namespace Monkey

open Text

namespace Value

/-- Integers and truth values, and what arrays and hashes make of them. The entries of a hash are
filed under their own keys, each under another one; so the keys are integers and truth values. -/
inductive Data : Value → Prop
  | integer {value : Int} (fits : Integer.InRange value) : Data (.integer value)
  | boolean (value : Bool) : Data (.boolean value)
  | array {elements : List Value} (parts : ∀ element ∈ elements, Data element) :
      Data (.array elements)
  | hash {entries : List (Entry Value)} (keys : ∀ entry ∈ entries, Data entry.key)
      (values : ∀ entry ∈ entries, Data entry.value)
      (filed : ∀ entry ∈ entries, entry.key.hashKey? = some entry.hashKey)
      (distinct : entries.Pairwise fun entry other => entry.hashKey ≠ other.hashKey) :
      Data (.hash entries)

/-- The integer that no number of the language is the opposite of. -/
def least : Value := .integer (-0x8000000000000000)

end Value

open Value

/-! The tokens of a text. -/

/-- The text is read as these tokens, of which none has too many digits. If it shows the least
integer, one of them is no number of the language. -/
structure Lexed (text : String) (tokens : List Token) (excess : Prop) : Prop where
  shown : Shown Stops text tokens
  short : Short tokens
  excess : excess → ∃ token ∈ tokens, token.excessive = true

namespace Lexed

variable {text text' : String} {tokens tokens' : List Token} {excess excess' : Prop}

theorem short_sign {kind : TokenKind} (listed : kind ∈ delimiters) : Short [.sign kind] := by
  have other : TokenKind.int ∉ delimiters := by decide
  intro token member number
  obtain rfl := List.mem_singleton.mp member
  exact absurd (number ▸ listed) other

theorem empty : Lexed "" [] False := ⟨.empty, nofun, nofun⟩

theorem mono (lexed : Lexed text tokens excess) (weaken : excess' → excess) :
    Lexed text tokens excess' := ⟨lexed.shown, lexed.short, lexed.excess ∘ weaken⟩

theorem enclosed (lexed : Lexed text tokens excess) {opening closing : TokenKind}
    (opens : opening ∈ delimiters) (closes : closing ∈ delimiters) :
    Lexed (opening.name ++ text ++ closing.name) (.sign opening :: tokens ++ [.sign closing])
      excess where
  shown := (lexed.shown.enclosed opening closing opens closes).loosen
  short := ((short_sign opens).append lexed.short).append (short_sign closes)
  excess big := by
    obtain ⟨token, member, large⟩ := lexed.excess big
    exact ⟨token, List.mem_append_left _ (List.mem_cons_of_mem _ member), large⟩

/-- Two texts with a delimiter and a blank between them. -/
theorem joint (first : Lexed text tokens excess) (second : Lexed text' tokens' excess')
    {kind : TokenKind} (listed : kind ∈ delimiters) :
    Lexed (text ++ (kind.name ++ " ") ++ text') (tokens ++ .sign kind :: tokens')
      (excess ∨ excess') where
  shown := by
    have whole := (first.shown.delimited kind listed).loosen.blank.cons second.shown
    rwa [List.append_assoc, @String.append_assoc text] at whole
  short := (first.short.append ((short_sign listed).append second.short))
  excess big := by
    rcases big with big | big
    · obtain ⟨token, member, large⟩ := first.excess big
      exact ⟨token, List.mem_append_left _ member, large⟩
    · obtain ⟨token, member, large⟩ := second.excess big
      exact ⟨token, List.mem_append_right _ (List.mem_cons_of_mem _ member), large⟩

end Lexed

/-! Numbers. -/

/-- A number written out. -/
def Token.numeral (number : Nat) : Token := ⟨.int, toString number, .start⟩

theorem Token.number_numeral (number : Nat) :
    Nat.ofDigitChars 10 (numeral number).literal.toList 0 = number := by
  unfold numeral
  rw [Nat.toString_eq_repr, Nat.toList_repr]
  exact Nat.ofDigitChars_ten_toDigits

theorem isDigit_of_mem_toDigits {number : Nat} {c : Char} (member : c ∈ Nat.toDigits 10 number) :
    isDigit c = true := by
  have digit := Nat.isDigit_of_mem_toDigits (by decide) (by decide) member
  simpa [isDigit, Char.isDigit, Char.le_def] using digit

theorem Token.numeral_occurs (number : Nat) : (numeral number).Occurs := by
  have digits : (toString number).toList = Nat.toDigits 10 number := by
    rw [Nat.toString_eq_repr, Nat.toList_repr]
  refine ⟨.plain .int (toString number).toList, [], .number ?_ ?_ nofun, ?_⟩
  · rw [digits]
    exact Nat.toDigits_ne_nil
  · intro c member
    rw [digits] at member
    exact isDigit_of_mem_toDigits member
  · exact congrArg (Prod.mk _) String.ofList_toList.symm

theorem lexed_numeral {number : Nat} (fits : number ≤ maxInteger + 1) :
    Lexed (toString number) [.numeral number] (maxInteger < number) := by
  have few : (toString number).length ≤ maxDigits := by
    have small : number < 10 ^ 19 := Nat.lt_of_le_of_lt fits (by decide)
    rw [Nat.toString_eq_repr]
    exact Nat.le_trans ((Nat.length_repr_le_iff (by decide)).mpr small) (by decide)
  have other : TokenKind.int ∉ [.string, .assign, .equal] := by decide
  refine ⟨.word (Token.numeral_occurs number) other, ?_, fun big => ?_⟩
  · intro token member _
    obtain rfl := List.mem_singleton.mp member
    exact few
  · refine ⟨.numeral number, List.mem_singleton_self _, ?_⟩
    have number' : (Token.numeral number).number = number := Token.number_numeral number
    unfold Token.excessive
    rw [number']
    simpa [Token.numeral, big] using few

theorem lexed_negative {number : Nat} (fits : number ≤ maxInteger + 1) :
    Lexed ("-" ++ toString number) [.sign .minus, .numeral number] (maxInteger < number) := by
  have inner := lexed_numeral fits
  have sign : Shown Unequal (TokenKind.minus).name [.sign .minus] :=
    ⟨fun _ unequal => .sign (by decide) unequal, by decide⟩
  refine ⟨sign.cons inner.shown, ?_, fun big => ?_⟩
  · intro token member number
    rcases List.mem_cons.mp member with rfl | member
    · cases number
    · exact inner.short token member number
  · obtain ⟨token, member, large⟩ := inner.excess big
    exact ⟨token, List.mem_cons_of_mem _ member, large⟩

theorem derives_numeral {number : Nat} (fits : number ≤ maxInteger) (rest : List Token) :
    Derives (.expression .chain) (.numeral number :: rest) (.integer (.numeral number) number)
      rest := by
  have read := @Derives.integer (.numeral number) rest rfl
  rw [Token.number_numeral] at read
  exact read fits

/-! Truth values. -/

theorem lexed_word {token : Token} (alone : tokensIn token.literal = [token])
    (word : token.kind ∈ [.trueKeyword, .falseKeyword]) : Lexed token.literal [token] False where
  shown := by
    have occurs : token.Occurs := occurs_of_mem_tokensIn (alone ▸ List.mem_singleton_self token)
    refine .word occurs fun other => ?_
    simp only [List.mem_cons, List.not_mem_nil, or_false] at word
    rcases word with same | same <;> rw [same] at other <;> exact absurd other (by decide)
  short := by
    intro token' member number
    obtain rfl := List.mem_singleton.mp member
    rw [number] at word
    exact absurd word (by decide)
  excess := nofun

theorem exists_lexed_boolean (value : Bool) : ∃ token,
    Lexed (Value.boolean value).inspect [token] False ∧
      ∀ rest, Derives (.expression .chain) (token :: rest) (.boolean token value) rest := by
  cases value with
  | true =>
    exact ⟨_, @lexed_word ⟨.trueKeyword, "true", ⟨1, 1⟩⟩ (by cbv) (by decide), fun _ => .truth rfl⟩
  | false =>
    exact ⟨_, @lexed_word ⟨.falseKeyword, "false", ⟨1, 1⟩⟩ (by cbv) (by decide),
      fun _ => .falsehood rfl⟩

/-! Trees and their values. -/

open Evaluation

/-- All trees that agree with this one have this value wherever they are evaluated, and nothing else
comes of them. -/
def Expr.Gives (tree : Expr) (value : Value) : Prop :=
  ∀ other, tree.agrees other = true → ∀ calling scope state,
    other.evaluate calling scope state = .ok value state

def Expr.GiveAll (trees : List Expr) (values : List Value) : Prop :=
  ∀ others, Expr.allAgree trees others = true → ∀ calling scope state,
    Expr.evaluateAll calling scope others state = .ok values state

/-- The pairs give these entries after any others with other keys. -/
def Expr.GiveEntries (pairs : List (Expr × Expr)) (entries : List (Entry Value)) : Prop :=
  ∀ others, Expr.pairsAgree pairs others = true → ∀ calling scope done state,
    (∀ earlier ∈ done, ∀ entry ∈ entries, earlier.hashKey ≠ entry.hashKey) →
      Expr.evaluatePairs calling scope done others state = .ok (done ++ entries) state

namespace Expr

variable {token : Token} {tree key : Expr} {trees : List Expr} {pairs : List (Expr × Expr)}
variable {value : Value} {values : List Value} {entry : Entry Value} {entries : List (Entry Value)}

theorem gives_integer (token : Token) (value : Int) :
    (integer token value).Gives (.integer value) := by
  intro other same calling scope state
  obtain ⟨token', rfl, -⟩ := agrees_integer same
  rfl

theorem gives_boolean (token : Token) (value : Bool) :
    (boolean token value).Gives (.boolean value) := by
  intro other same calling scope state
  obtain ⟨token', rfl, -⟩ := agrees_boolean same
  rfl

theorem gives_negative {number : Nat} (gives : tree.Gives (.integer number))
    (fits : number ≤ maxInteger) :
    (unary token .minus tree).Gives (.integer (-number)) := by
  intro other same calling scope state
  obtain ⟨token', right', rfl, rights⟩ := agrees_unary same
  have inner := gives right' rights calling scope state
  have negated : Integer.negate number = -number := by
    unfold maxInteger at fits
    exact Integer.wrap_of_bounds (by omega) (by omega)
  change (right'.evaluate calling scope >>= fun right =>
    answer (Value.unary .minus right)) state = _
  rw [bind_of_ok inner, ← negated]
  rfl

theorem gives_array (give : GiveAll trees values) : (array token trees).Gives (.array values) := by
  intro other same calling scope state
  obtain ⟨token', trees', rfl, rows⟩ := agrees_array same
  have inner := give trees' rows calling scope state
  change (Expr.evaluateAll calling scope trees' >>= fun elements =>
    pure (Value.array elements)) state = _
  rw [bind_of_ok inner]
  rfl

theorem giveAll_nil : GiveAll [] [] := by
  intro others same calling scope state
  rw [allAgree_nil same]
  rfl

theorem giveAll_cons (first : tree.Gives value) (more : GiveAll trees values) :
    GiveAll (tree :: trees) (value :: values) := by
  intro others same calling scope state
  obtain ⟨tree', trees', rfl, head, rows⟩ := allAgree_cons same
  change (tree'.evaluate calling scope >>= fun value =>
    Expr.evaluateAll calling scope trees' >>= fun values => pure (value :: values)) state = _
  rw [bind_of_ok (first tree' head calling scope state),
    bind_of_ok (more trees' rows calling scope state)]
  rfl

theorem gives_hash (give : GiveEntries pairs entries) :
    (hash token pairs).Gives (.hash entries) := by
  intro other same calling scope state
  obtain ⟨token', pairs', rfl, rows⟩ := agrees_hash same
  have inner := give pairs' rows calling scope [] state nofun
  change (Expr.evaluatePairs calling scope [] pairs' >>= fun entries =>
    pure (Value.hash entries)) state = _
  rw [bind_of_ok inner]
  rfl

theorem giveEntries_nil : GiveEntries [] [] := by
  intro others same calling scope done state _
  rw [pairsAgree_nil same, List.append_nil]
  rfl

theorem giveEntries_cons (keys : key.Gives entry.key) (values : tree.Gives entry.value)
    (filed : entry.key.hashKey? = some entry.hashKey) (more : GiveEntries pairs entries)
    (distinct : ∀ later ∈ entries, entry.hashKey ≠ later.hashKey) :
    GiveEntries ((key, tree) :: pairs) (entry :: entries) := by
  intro others same calling scope done state fresh
  obtain ⟨key', tree', pairs', rfl, keySame, treeSame, rows⟩ := pairsAgree_cons same
  have filedLast : Entry.insert entry done = done ++ [entry] :=
    Entry.insert_of_fresh fun earlier member => fresh earlier member entry List.mem_cons_self
  -- No later entry takes the place of this one.
  have stillFresh : ∀ earlier ∈ done ++ [entry], ∀ later ∈ entries,
      earlier.hashKey ≠ later.hashKey := by
    intro earlier member later among
    rcases List.mem_append.mp member with member | member
    · exact fresh earlier member later (List.mem_cons_of_mem _ among)
    · obtain rfl := List.mem_singleton.mp member
      exact distinct later among
  have continued := more pairs' rows calling scope (done ++ [entry]) state stillFresh
  unfold Expr.evaluatePairs
  rw [bind_of_ok (keys key' keySame calling scope state), filed]
  dsimp only
  rw [bind_of_ok (values tree' treeSame calling scope state), filedLast, continued,
    List.append_assoc, List.singleton_append]

end Expr

/-! What the texts of data are read as. -/

/-- The text is a phrase with a tree that means this, whatever comes after it; but if it shows the
least integer, there is a number in it that is too large. -/
def Reads (phrase : Phrase) (text : String) (excess : Prop) (meaning : phrase.Tree → Prop) : Prop :=
  ∃ tokens, Lexed text tokens excess ∧ (¬ excess → ∃ tree : phrase.Tree,
    (∀ rest, Derives phrase (tokens ++ rest) tree rest) ∧ meaning tree)

namespace Reads

variable {phrase : Phrase} {meaning : phrase.Tree → Prop} {text text' text'' : String}
variable {excess excess' excess'' : Prop} {value : Value} {values : List Value}
variable {entry : Entry Value} {entries : List (Entry Value)}

theorem congr (reads : Reads phrase text excess meaning) (same : excess' ↔ excess) :
    Reads phrase text excess' meaning := by
  rwa [propext same]

theorem natural {number : Nat} (fits : number ≤ maxInteger) :
    Reads (.expression .equality) (toString number) False (Expr.Gives · (.integer number)) := by
  refine ⟨_, (lexed_numeral (Nat.le_succ_of_le fits)).mono False.elim, fun _ =>
    ⟨.integer (.numeral number) number, fun rest => ?_, Expr.gives_integer _ _⟩⟩
  exact (derives_numeral fits rest).loosen (Level.le_chain _)

theorem negative {number : Nat} (fits : number ≤ maxInteger + 1) :
    Reads (.expression .equality) ("-" ++ toString number) (maxInteger < number)
      (Expr.Gives · (.integer (-number))) := by
  refine ⟨_, lexed_negative fits, fun within => ?_⟩
  -- The sign is an operator of its own, so the number has to fit without it.
  have fits := Nat.le_of_not_lt within
  have inner := Expr.gives_integer (.numeral number) number
  have minus : Operator.ofText (Token.sign .minus).literal = .minus := by decide
  refine ⟨.unary (.sign .minus) .minus (.integer (.numeral number) number), fun rest => ?_,
    Expr.gives_negative inner fits⟩
  have read := @Derives.unary _ rest (.sign .minus) _ (.inr rfl)
    (.tighter (derives_numeral fits rest))
  exact (minus ▸ read).loosen (by decide)

theorem boolean (truth : Bool) :
    Reads (.expression .equality) (Value.boolean truth).inspect False
      (Expr.Gives · (.boolean truth)) := by
  obtain ⟨token, lexed, derives⟩ := exists_lexed_boolean truth
  exact ⟨[token], lexed, fun _ => ⟨.boolean token truth,
    fun rest => (derives rest).loosen (Level.le_chain _), Expr.gives_boolean _ _⟩⟩

theorem item (reads : Reads (.expression .equality) text excess (Expr.Gives · value)) :
    Reads .items text excess (Expr.GiveAll · [value]) := by
  obtain ⟨tokens, lexed, reads⟩ := reads
  refine ⟨tokens, lexed, fun within => ?_⟩
  obtain ⟨tree, derives, gives⟩ := reads within
  exact ⟨[tree], fun rest => .item (derives rest), Expr.giveAll_cons gives Expr.giveAll_nil⟩

theorem moreItems (first : Reads (.expression .equality) text excess (Expr.Gives · value))
    (more : Reads .items text' excess' (Expr.GiveAll · values)) :
    Reads .items (text ++ ", " ++ text') (excess ∨ excess') (Expr.GiveAll · (value :: values)) := by
  obtain ⟨tokens, lexed, reads⟩ := first
  obtain ⟨tokens', lexed', reads'⟩ := more
  refine ⟨_, lexed.joint lexed' (by decide : TokenKind.comma ∈ delimiters), fun within => ?_⟩
  obtain ⟨within, within'⟩ := not_or.mp within
  obtain ⟨tree, derives, gives⟩ := reads within
  obtain ⟨trees, derives', give⟩ := reads' within'
  refine ⟨tree :: trees, fun rest => ?_, Expr.giveAll_cons gives give⟩
  rw [List.append_assoc]
  exact .moreItems (derives _) rfl (derives' rest)

theorem noItems : Reads .row "" False (Expr.GiveAll · []) :=
  ⟨[], .empty, fun _ => ⟨[], fun _ => .noItems, Expr.giveAll_nil⟩⟩

theorem someItems (items : Reads .items text excess (Expr.GiveAll · values)) :
    Reads .row text excess (Expr.GiveAll · values) := by
  obtain ⟨tokens, lexed, reads⟩ := items
  refine ⟨tokens, lexed, fun within => ?_⟩
  obtain ⟨trees, derives, give⟩ := reads within
  exact ⟨trees, fun rest => .someItems (derives rest), give⟩

theorem array (row : Reads .row text excess (Expr.GiveAll · values)) :
    Reads (.expression .equality) ("[" ++ text ++ "]") excess (Expr.Gives · (.array values)) := by
  obtain ⟨tokens, lexed, reads⟩ := row
  refine ⟨_, lexed.enclosed (by decide : TokenKind.leftBracket ∈ delimiters)
    (by decide : TokenKind.rightBracket ∈ delimiters), fun within => ?_⟩
  obtain ⟨trees, derives, give⟩ := reads within
  refine ⟨.array (.sign .leftBracket) trees, fun rest => ?_, Expr.gives_array give⟩
  rw [List.append_assoc]
  exact (Derives.array rfl (derives _) rfl).loosen (Level.le_chain _)

theorem noPairs : Reads .pairs "" False (Expr.GiveEntries · []) :=
  ⟨[], .empty, fun _ => ⟨[], fun _ => .noPairs, Expr.giveEntries_nil⟩⟩

theorem pair (key : Reads (.expression .equality) text excess (Expr.Gives · entry.key))
    (value : Reads (.expression .equality) text' excess' (Expr.Gives · entry.value))
    (filed : entry.key.hashKey? = some entry.hashKey) :
    Reads .pairs (text ++ ": " ++ text') (excess ∨ excess') (Expr.GiveEntries · [entry]) := by
  obtain ⟨tokens, lexed, reads⟩ := key
  obtain ⟨tokens', lexed', reads'⟩ := value
  refine ⟨_, lexed.joint lexed' (by decide : TokenKind.colon ∈ delimiters), fun within => ?_⟩
  obtain ⟨within, within'⟩ := not_or.mp within
  obtain ⟨tree, derives, gives⟩ := reads within
  obtain ⟨tree', derives', gives'⟩ := reads' within'
  refine ⟨[(tree, tree')], fun rest => ?_,
    Expr.giveEntries_cons gives gives' filed Expr.giveEntries_nil nofun⟩
  rw [List.append_assoc]
  exact .pair (derives _) rfl (derives' rest)

theorem morePairs (key : Reads (.expression .equality) text excess (Expr.Gives · entry.key))
    (value : Reads (.expression .equality) text' excess' (Expr.Gives · entry.value))
    (filed : entry.key.hashKey? = some entry.hashKey)
    (more : Reads .pairs text'' excess'' (Expr.GiveEntries · entries))
    (distinct : ∀ later ∈ entries, entry.hashKey ≠ later.hashKey) :
    Reads .pairs (text ++ ": " ++ text' ++ ", " ++ text'') ((excess ∨ excess') ∨ excess'')
      (Expr.GiveEntries · (entry :: entries)) := by
  obtain ⟨tokens, lexed, reads⟩ := key
  obtain ⟨tokens', lexed', reads'⟩ := value
  obtain ⟨tokens'', lexed'', reads''⟩ := more
  have first := lexed.joint lexed' (by decide : TokenKind.colon ∈ delimiters)
  refine ⟨_, first.joint lexed'' (by decide : TokenKind.comma ∈ delimiters), fun within => ?_⟩
  obtain ⟨within, within''⟩ := not_or.mp within
  obtain ⟨within, within'⟩ := not_or.mp within
  obtain ⟨tree, derives, gives⟩ := reads within
  obtain ⟨tree', derives', gives'⟩ := reads' within'
  obtain ⟨pairs, derives'', give⟩ := reads'' within''
  refine ⟨(tree, tree') :: pairs, fun rest => ?_,
    Expr.giveEntries_cons gives gives' filed give distinct⟩
  simp only [List.append_assoc, List.cons_append]
  exact .morePairs (derives _) rfl (derives' _) rfl (derives'' rest)

theorem hash (pairs : Reads .pairs text excess (Expr.GiveEntries · entries)) :
    Reads (.expression .equality) ("\x7b" ++ text ++ "\x7d") excess
      (Expr.Gives · (.hash entries)) := by
  obtain ⟨tokens, lexed, reads⟩ := pairs
  refine ⟨_, lexed.enclosed (by decide : TokenKind.leftBrace ∈ delimiters)
    (by decide : TokenKind.rightBrace ∈ delimiters), fun within => ?_⟩
  obtain ⟨pairs, derives, give⟩ := reads within
  refine ⟨.hash (.sign .leftBrace) pairs, fun rest => ?_, Expr.gives_hash give⟩
  rw [List.append_assoc]
  exact (Derives.hash rfl (derives _) rfl).loosen (Level.le_chain _)

end Reads

namespace Value

theorem least_part_integer {number : Int} :
    Part least (.integer number) ↔ number = -0x8000000000000000 := by
  constructor
  · intro inside
    cases inside with
    | whole => rfl
  · rintro rfl
    exact .whole

theorem least_part_boolean {truth : Bool} : ¬ Part least (.boolean truth) := nofun

theorem least_part_array {elements : List Value} :
    Part least (.array elements) ↔ ∃ element ∈ elements, Part least element := by
  constructor
  · rintro (_ | ⟨member, inside⟩)
    exact ⟨_, member, inside⟩
  · rintro ⟨element, member, inside⟩
    exact .element member inside

theorem least_part_hash {entries : List (Entry Value)} : Part least (.hash entries) ↔
    ∃ entry ∈ entries, Part least entry.key ∨ Part least entry.value := by
  constructor
  · rintro (_ | _ | ⟨member, inside⟩ | ⟨member, inside⟩)
    · exact ⟨_, member, .inl inside⟩
    · exact ⟨_, member, .inr inside⟩
  · rintro ⟨entry, member, inside | inside⟩
    · exact .key member inside
    · exact .value member inside

/-- The value shows as an expression that has this value, unless the least integer is in it. -/
def ReadsBack (value : Value) : Prop :=
  Reads (.expression .equality) value.inspect (Part least value) (Expr.Gives · value)

theorem readsBack_integer {value : Int} (fits : Integer.InRange value) :
    (Value.integer value).ReadsBack := by
  obtain ⟨low, high⟩ := fits
  cases value with
  | ofNat number =>
    have high : (number : Int) < _ := high
    have small : number ≤ maxInteger := by
      unfold maxInteger
      omega
    have other : Int.ofNat number ≠ -0x8000000000000000 := nofun
    exact (Reads.natural small).congr (least_part_integer.trans (iff_false_intro other))
  | negSucc number =>
    have small : number + 1 ≤ maxInteger + 1 := by
      unfold maxInteger
      omega
    have edge : Int.negSucc number = -0x8000000000000000 ↔ maxInteger < number + 1 := by
      unfold maxInteger
      omega
    exact (Reads.negative small).congr (least_part_integer.trans edge)

theorem reads_items {values : List Value} (some : values ≠ [])
    (back : ∀ value ∈ values, value.ReadsBack) :
    Reads .items (joined ", " (inspectAll values)) (∃ value ∈ values, Part least value)
      (Expr.GiveAll · values) := by
  induction values with
  | nil => exact absurd rfl some
  | cons value values ih =>
    obtain ⟨first, others⟩ := List.forall_mem_cons.mp back
    by_cases alone : values = []
    · subst alone
      exact first.item.congr (by simp)
    · have rows : inspectAll values ≠ [] := by cases values <;> simp_all [inspectAll]
      rw [inspectAll, joined_cons rows]
      exact (first.moreItems (ih alone others)).congr (by simp)

theorem readsBack_array {elements : List Value} (back : ∀ element ∈ elements, element.ReadsBack) :
    (Value.array elements).ReadsBack := by
  by_cases none : elements = []
  · subst none
    exact Reads.noItems.array.congr (by simp [least_part_array])
  · exact (reads_items none back).someItems.array.congr least_part_array

theorem reads_pairs {entries : List (Entry Value)} (keys : ∀ entry ∈ entries, entry.key.ReadsBack)
    (values : ∀ entry ∈ entries, entry.value.ReadsBack)
    (filed : ∀ entry ∈ entries, entry.key.hashKey? = some entry.hashKey)
    (distinct : entries.Pairwise fun entry other => entry.hashKey ≠ other.hashKey) :
    Reads .pairs (joined ", " (inspectEntries entries))
      (∃ entry ∈ entries, Part least entry.key ∨ Part least entry.value)
      (Expr.GiveEntries · entries) := by
  induction entries with
  | nil => exact Reads.noPairs.congr (by simp)
  | cons entry entries ih =>
    obtain ⟨key, keys⟩ := List.forall_mem_cons.mp keys
    obtain ⟨value, values⟩ := List.forall_mem_cons.mp values
    obtain ⟨filedFirst, filed⟩ := List.forall_mem_cons.mp filed
    obtain ⟨other, distinct⟩ := List.pairwise_cons.mp distinct
    by_cases alone : entries = []
    · subst alone
      exact (Reads.pair key value filedFirst).congr (by simp)
    · have rows : inspectEntries entries ≠ [] := by cases entries <;> simp_all [inspectEntries]
      rw [inspectEntries, joined_cons rows]
      exact (Reads.morePairs key value filedFirst (ih keys values filed distinct) other).congr
        (by simp)

/-- All data reads back, by induction on how it is built. -/
theorem Data.readsBack {value : Value} (data : value.Data) : value.ReadsBack := by
  induction data with
  | integer fits => exact readsBack_integer fits
  | boolean truth => exact (Reads.boolean truth).congr (iff_false_intro least_part_boolean)
  | array _ back => exact readsBack_array back
  | hash _ _ filed distinct keys values =>
    exact (reads_pairs keys values filed distinct).hash.congr least_part_hash

theorem Data.ne_returned {value : Value} (data : value.Data) (inner : Value) :
    value ≠ .returned inner := by
  rintro rfl
  cases data

end Value

/-! Running what is printed. -/

namespace Lexed

variable {text : String} {tokens : List Token} {excess : Prop}

theorem unplaced_tokensIn (lexed : Lexed text tokens excess) :
    (tokensIn text).map Token.unplaced = tokens.map Token.unplaced :=
  (lexed.shown.spells [] .nil).unplaced_tokensIn

theorem not_overlong (lexed : Lexed text tokens excess) : ¬ Overlong text := by
  rintro ⟨token, member, long⟩
  simp only [Token.overlong, Bool.and_eq_true, decide_eq_true_eq] at long
  have inside := mem_tokensIn member (by rw [long.1]; decide)
  obtain ⟨other, among, same⟩ :=
    List.mem_map.mp (lexed.unplaced_tokensIn ▸ List.mem_map_of_mem inside)
  obtain ⟨kind, literal⟩ := Prod.mk.inj same
  exact Nat.not_lt.mpr (literal ▸ lexed.short other among (kind.trans long.1)) long.2

/-- A number that is too large is told. -/
theorem exists_problem (lexed : Lexed text tokens excess) (big : excess) :
    ∃ digits place, .integerTooLarge digits place ∈ (parse text).problems := by
  obtain ⟨token, among, large⟩ := lexed.excess big
  -- The tokens of the text are the shown ones but for their places, which no test reads.
  obtain ⟨other, inside, same⟩ :=
    List.mem_map.mp (lexed.unplaced_tokensIn.symm ▸ List.mem_map_of_mem among)
  obtain ⟨kind, literal⟩ := Prod.mk.inj same
  have large' : other.excessive = true := by
    unfold Token.excessive Token.number at large ⊢
    rwa [kind, literal]
  obtain ⟨-, excesses, -⟩ := parse_accounts text
  have told : .integerTooLarge other.literal other.position ∈
      (parse text).problems.filter Problem.ofInteger := by
    rw [excesses]
    exact List.mem_map_of_mem (List.mem_filter.mpr ⟨List.mem_of_mem_dropLast inside, large'⟩)
  exact ⟨_, _, (List.mem_filter.mp told).1⟩

end Lexed

theorem Value.ReadsBack.runs {value : Value} (back : value.ReadsBack)
    (kept : ∀ inner, value ≠ .returned inner) (free : ¬ Value.Part least value)
    (depth level : Nat) : runText depth level value.inspect = .ok (.value value, .start level) := by
  obtain ⟨tokens, lexed, reads⟩ := back
  obtain ⟨tree, derives, gives⟩ := reads free
  have derives := derives []
  rw [List.append_nil] at derives
  obtain ⟨token, tree', accepted, agrees⟩ :=
    exists_accepted_expression lexed.short derives lexed.unplaced_tokensIn.symm
  have first : (Statement.expression token (some tree')).evaluate (applyWithin depth) Session.root
      (Session.start level).state = .ok value (Session.start level).state :=
    gives tree' agrees _ _ _
  have all := Statement.evaluateAll_cons first kept .null []
  have bare : value.unwrapped = value := by
    cases value with
    | returned inner => exact absurd rfl (kept inner)
    | _ => rfl
  rw [runText_of_accepted accepted, Session.run_of_evaluateAll all, bare]

theorem Lexed.rejected {text : String} {tokens : List Token} {excess : Prop}
    (lexed : Lexed text tokens excess) (big : excess) (depth level : Nat) :
    ∃ found digits place, runText depth level text = .error (.problems found) ∧
      .integerTooLarge digits place ∈ found := by
  obtain ⟨digits, place, told⟩ := lexed.exists_problem big
  have read : (parse text).refused = false := by
    by_contra refused
    exact lexed.not_overlong ((parse_accounts text).1.mp (by simpa using refused))
  have rejected := accepted_eq_problems.mpr ⟨read, List.ne_nil_of_mem told, rfl⟩
  refine ⟨_, digits, place, ?_, told⟩
  unfold runText
  rw [rejected]
  rfl

/-- Data comes back from the text that shows it, hash entries with their keys and in their order,
and nothing else is left by running that text. If the least integer is in it, the text has a problem
instead: a number that is too large. -/
theorem printed_data_reads_back {value : Value} (data : value.Data) (depth level : Nat) :
    (¬ Value.Part least value →
      runText depth level value.inspect = .ok (.value value, .start level)) ∧
    (Value.Part least value → ∃ found digits place,
      runText depth level value.inspect = .error (.problems found) ∧
        .integerTooLarge digits place ∈ found) := by
  refine ⟨fun free => data.readsBack.runs data.ne_returned free depth level, fun inside => ?_⟩
  obtain ⟨tokens, lexed, -⟩ := data.readsBack
  exact lexed.rejected inside depth level

/-- A hash with a negative key, an array and a hash in it, and an array with the least integer. -/
theorem nested_hash_reads_back :
    (∃ value : Value, value.Data ∧
      value.inspect = "\x7btrue: [-1, 9223372036854775807], -5: \x7b\x7d\x7d" ∧
      ¬ Value.Part least value ∧ runText 0 0 value.inspect = .ok (.value value, .start 0)) ∧
    (Value.array [least]).Data ∧ Value.Part least (.array [least]) ∧
      ∃ found digits place, runText 0 0 (Value.array [least]).inspect = .error (.problems found) ∧
        .integerTooLarge digits place ∈ found := by
  constructor
  · have row : (Value.array [.integer (-1), .integer 9223372036854775807]).Data :=
      .array (List.forall_mem_cons.mpr ⟨.integer ⟨by decide, by decide⟩,
        List.forall_mem_singleton.mpr (.integer ⟨by decide, by decide⟩)⟩)
    have data : (Value.hash [⟨.ofBoolean true, .boolean true,
        .array [.integer (-1), .integer 9223372036854775807]⟩,
        ⟨.ofInteger (-5), .integer (-5), .hash []⟩]).Data :=
      .hash (List.forall_mem_cons.mpr ⟨.boolean true,
          List.forall_mem_singleton.mpr (.integer ⟨by decide, by decide⟩)⟩)
        (List.forall_mem_cons.mpr ⟨row,
          List.forall_mem_singleton.mpr (.hash nofun nofun nofun .nil)⟩)
        (List.forall_mem_cons.mpr ⟨rfl, List.forall_mem_singleton.mpr rfl⟩)
        (List.pairwise_pair.mpr (by decide))
    have free : ¬ Value.Part least (.hash [⟨.ofBoolean true, .boolean true,
        .array [.integer (-1), .integer 9223372036854775807]⟩,
        ⟨.ofInteger (-5), .integer (-5), .hash []⟩]) := by
      simp [least_part_hash, least_part_array, least_part_integer, least_part_boolean]
    exact ⟨_, data, by cbv, free, (printed_data_reads_back data 0 0).1 free⟩
  · have data : (Value.array [least]).Data :=
      .array (List.forall_mem_singleton.mpr (.integer ⟨by decide, by decide⟩))
    have inside : Value.Part least (.array [least]) :=
      .element (List.mem_singleton_self least) .whole
    exact ⟨data, inside, (printed_data_reads_back data 0 0).2 inside⟩

end Monkey

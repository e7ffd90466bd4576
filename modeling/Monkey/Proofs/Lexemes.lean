import Mathlib.Data.List.TakeWhile
import Monkey.Token.Scan

/-!
How a text falls apart into lexemes. Between the lexemes there are blanks and nothing else, so no
character is lost; and since each lexeme is as long as its first character allows, there is one way
to take a text apart.
-/

namespace Monkey

/-- The words that are no names. -/
def keywords : List (String × TokenKind) :=
  [("fn", .fnKeyword), ("let", .letKeyword), ("true", .trueKeyword), ("false", .falseKeyword),
    ("if", .ifKeyword), ("else", .elseKeyword), ("return", .returnKeyword)]

/-- A character that can stand in no token but a string. -/
structure Classless (c : Char) : Prop where
  solid : isBlank c = false
  unlettered : isLetter c = false
  undigited : isDigit c = false
  unquoted : c ≠ '"'
  unnamed : ∀ kind : TokenKind, kind.name ≠ String.ofList [c]

theorem TokenKind.ofWord_eq (word : String) :
    ofWord word = (keywords.lookup word).getD .ident := by
  have step (name : String) (kind : TokenKind) (others : List (String × TokenKind)) :
      (((name, kind) :: others).lookup word).getD .ident =
        if word = name then kind else (others.lookup word).getD .ident := by
    by_cases same : word = name
    · simp [same]
    · simp [same, List.lookup_cons, beq_false_of_ne same]
  unfold ofWord keywords
  simp only [step]
  rfl

/-- A word is a name or a keyword. -/
theorem TokenKind.lookup_keywords_mem (word : String) :
    (keywords.lookup word).getD .ident ∈ ident :: keywords.map Prod.snd := by
  rw [← ofWord_eq]
  unfold ofWord
  repeat' split
  all_goals decide

theorem TokenKind.lookup_keywords_ne {kind : TokenKind}
    (unlisted : kind ∉ ident :: keywords.map Prod.snd) (word : String) :
    (keywords.lookup word).getD .ident ≠ kind :=
  fun same => unlisted (same ▸ lookup_keywords_mem word)

theorem TokenKind.ne_of_name {kind other : TokenKind} {c : Char}
    (named : kind.name = String.ofList [c]) (long : other.name.length ≠ 1) : kind ≠ other := by
  rintro rfl
  rw [named, String.length_ofList] at long
  exact long rfl

/-- The characters that are tokens on their own are the names of their kinds. -/
theorem TokenKind.ofSymbol?_eq_some_iff {c : Char} {kind : TokenKind} :
    ofSymbol? c = some kind ↔ kind.name = String.ofList [c] := by
  constructor
  · intro listed
    unfold ofSymbol? at listed
    split at listed <;> cases listed <;> rfl
  · intro named
    have letters := congrArg String.toList named
    rw [String.toList_ofList] at letters
    cases kind <;> simp [name] at letters <;> subst letters <;> rfl

/-- A character that is a token on its own is in no other class. -/
theorem TokenKind.solid_of_ofSymbol? {c : Char} {kind : TokenKind} (listed : ofSymbol? c = some kind) :
    isBlank c = false ∧ isLetter c = false ∧ isDigit c = false ∧ c ≠ '"' := by
  unfold ofSymbol? at listed
  split at listed <;> cases listed <;> decide

theorem isLetter_of_isDigit {c : Char} (digit : isDigit c = true) : isLetter c = false := by
  simp only [isDigit, Bool.and_eq_true, decide_eq_true_eq] at digit
  have below {first : Char} (later : ¬first ≤ '9') : ¬first ≤ c :=
    fun low => later (Char.le_trans low digit.2)
  have small := below (show ¬ 'a' ≤ '9' by decide)
  have large := below (show ¬ 'A' ≤ '9' by decide)
  have bar : c ≠ '_' := by
    rintro rfl
    exact absurd digit.2 (by decide)
  simp [isLetter, small, large, bar]

theorem solid_of_isLetter_or_isDigit {c : Char} (classed : isLetter c = true ∨ isDigit c = true) :
    isBlank c = false := by
  by_contra blank
  simp only [isBlank, Bool.or_eq_true, decide_eq_true_eq, Bool.not_eq_false] at blank
  rcases blank with ((rfl | rfl) | rfl) | rfl <;> revert classed <;> decide

/-- A run of characters that pass a test ends before the first that does not. -/
theorem span_append {test : Char → Bool} {run : List Char} (rest : List Char)
    (all : ∀ c ∈ run, test c = true) (longest : ∀ c ∈ rest.head?, test c = false) :
    (run ++ rest).takeWhile test = run ∧ (run ++ rest).dropWhile test = rest := by
  rw [List.takeWhile_append_of_pos all, List.dropWhile_append_of_pos all]
  cases rest with
  | nil => simp
  | cons c rest => simp [longest c rfl]

theorem head?_dropWhile_eq_false (test : Char → Bool) (text : List Char) :
    ∀ c ∈ (text.dropWhile test).head?, test c = false := by
  intro c found
  have first := List.head?_dropWhile_not test text
  rw [Option.mem_def.mp found] at first
  simpa using first

namespace Lexeme

/-- How a lexeme is written that stands before the rest of a text. -/
inductive Spelled : Lexeme → List Char → Prop
  | word {letters rest : List Char} (some : letters ≠ [])
      (all : ∀ c ∈ letters, isLetter c = true) (longest : ∀ c ∈ rest.head?, isLetter c = false) :
      Spelled (plain ((keywords.lookup (String.ofList letters)).getD .ident) letters) rest
  | number {digits rest : List Char} (some : digits ≠ [])
      (all : ∀ c ∈ digits, isDigit c = true) (longest : ∀ c ∈ rest.head?, isDigit c = false) :
      Spelled (plain .int digits) rest
  | equal {rest : List Char} : Spelled (plain .equal ['=', '=']) rest
  | notEqual {rest : List Char} : Spelled (plain .notEqual ['!', '=']) rest
  /-- Kinds with a name of one character are written as it. -/
  | symbol {c : Char} {kind : TokenKind} {rest : List Char} (named : kind.name = String.ofList [c])
      (alone : c = '=' ∨ c = '!' → rest.head? ≠ some '=') : Spelled (plain kind [c]) rest
  | closed {content rest : List Char} (unquoted : '"' ∉ content) :
      Spelled ⟨.string, content, '"' :: content ++ ['"']⟩ rest
  /-- A string without its closing quote runs to the end of the text. -/
  | unclosed {content : List Char} (unquoted : '"' ∉ content) :
      Spelled ⟨.string, content, '"' :: content⟩ []
  | illegal {c : Char} {rest : List Char} (classless : Classless c) :
      Spelled (plain .illegal [c]) rest

/-- How a lexeme is written as far as its kind and its literal tell. -/
structure Shows (lexeme : Lexeme) (rest : List Char) : Prop where
  plain : lexeme.kind ≠ .string → lexeme.written = lexeme.literal
  quoted : lexeme.kind = .string → '"' ∉ lexeme.literal ∧
    (lexeme.written = '"' :: lexeme.literal ++ ['"'] ∨
      lexeme.written = '"' :: lexeme.literal ∧ rest = [])

theorem not_mem_takeWhile_ne (text : List Char) : '"' ∉ text.takeWhile (· ≠ '"') := by
  intro member
  simpa using List.mem_takeWhile_imp member

theorem spelled_splitString (text : List Char) :
    (splitString text).1.Spelled (splitString text).2 := by
  have quote := head?_dropWhile_eq_false (· ≠ '"') text
  unfold splitString
  split
  · exact .unclosed (not_mem_takeWhile_ne text)
  · rename_i found
    rw [found] at quote
    have same := quote _ rfl
    simp only [ne_eq, decide_not, Bool.not_eq_eq_eq_not, Bool.not_false, decide_eq_true_eq] at same
    subst same
    exact .closed (not_mem_takeWhile_ne text)

/-- A lexeme is split off as it has to be spelled. -/
theorem spelled_split {c : Char} (text : List Char) (solid : isBlank c = false) :
    (split c text).1.Spelled (split c text).2 := by
  unfold split
  split
  · exact .equal
  · exact .notEqual
  · exact spelled_splitString _
  · rename_i unquoted noEqual noNotEqual
    split
    · rename_i kind listed
      refine .symbol (TokenKind.ofSymbol?_eq_some_iff.mp listed) fun sign follows => ?_
      obtain ⟨rest, more⟩ := List.head?_eq_some_iff.mp follows
      rcases sign with sign | sign
      · exact noEqual rest sign more
      · exact noNotEqual rest sign more
    · rename_i unlisted
      by_cases letter : isLetter c = true
      · simp only [letter, if_true, TokenKind.ofWord_eq]
        refine .word (List.cons_ne_nil _ _) ?_ (head?_dropWhile_eq_false _ _)
        exact List.forall_mem_cons.mpr ⟨letter, fun _ => List.mem_takeWhile_imp⟩
      by_cases digit : isDigit c = true
      · simp only [letter, digit, if_true]
        refine .number (List.cons_ne_nil _ _) ?_ (head?_dropWhile_eq_false _ _)
        exact List.forall_mem_cons.mpr ⟨digit, fun _ => List.mem_takeWhile_imp⟩
      · simp only [letter, digit]
        refine .illegal ⟨solid, by simpa using letter, by simpa using digit, unquoted, ?_⟩
        intro kind named
        rw [TokenKind.ofSymbol?_eq_some_iff.mpr named] at unlisted
        cases unlisted

theorem split_of_symbol {c : Char} {text : List Char} {kind : TokenKind}
    (listed : TokenKind.ofSymbol? c = some kind)
    (alone : c = '=' ∨ c = '!' → text.head? ≠ some '=') :
    split c text = (plain kind [c], text) := by
  unfold split
  split
  · exact absurd rfl (alone (.inl rfl))
  · exact absurd rfl (alone (.inr rfl))
  · exact absurd rfl (TokenKind.solid_of_ofSymbol? listed).2.2.2
  · rw [listed]

theorem split_of_unlisted {c : Char} (text : List Char) (unquoted : c ≠ '"')
    (unlisted : TokenKind.ofSymbol? c = none) : split c text =
      if isLetter c = true then
        (plain ((keywords.lookup (String.ofList (c :: text.takeWhile isLetter))).getD .ident)
          (c :: text.takeWhile isLetter), text.dropWhile isLetter)
      else if isDigit c = true then
        (plain .int (c :: text.takeWhile isDigit), text.dropWhile isDigit)
      else (plain .illegal [c], text) := by
  unfold split
  split
  · cases unlisted
  · cases unlisted
  · exact absurd rfl unquoted
  · rw [unlisted]
    simp only [TokenKind.ofWord_eq]

theorem splitString_closed {content : List Char} (unquoted : '"' ∉ content) (rest : List Char) :
    splitString (content ++ ['"'] ++ rest) =
      (⟨.string, content, '"' :: content ++ ['"']⟩, rest) := by
  have all : ∀ c ∈ content, decide (c ≠ '"') = true := by
    intro c member
    simpa using fun same : c = '"' => unquoted (same ▸ member)
  obtain ⟨run, past⟩ := span_append ('"' :: rest) all (by simp)
  rw [List.append_assoc]
  unfold splitString
  simp only [List.cons_append, List.nil_append, run, past]

theorem splitString_unclosed {content : List Char} (unquoted : '"' ∉ content) :
    splitString (content ++ []) = (⟨.string, content, '"' :: content⟩, []) := by
  have all : ∀ c ∈ content, decide (c ≠ '"') = true := by
    intro c member
    simpa using fun same : c = '"' => unquoted (same ▸ member)
  obtain ⟨run, past⟩ := span_append [] all (by simp)
  unfold splitString
  simp only [run, past]

/-- No other lexeme could have been split off. -/
theorem split_eq_of_spelled {lexeme : Lexeme} {rest text : List Char} {c : Char}
    (spelled : lexeme.Spelled rest) (whole : lexeme.written ++ rest = c :: text) :
    split c text = (lexeme, rest) := by
  have unlisted (classed : isLetter c = true ∨ isDigit c = true) :
      c ≠ '"' ∧ TokenKind.ofSymbol? c = none := by
    constructor
    · rintro rfl
      revert classed
      decide
    · cases listed : TokenKind.ofSymbol? c with
      | none => rfl
      | some kind =>
        obtain ⟨-, unlettered, undigited, -⟩ := TokenKind.solid_of_ofSymbol? listed
        simp [unlettered, undigited] at classed
  cases spelled with
  | @word letters _ some all longest =>
    obtain ⟨first, letters, rfl⟩ := List.exists_cons_of_ne_nil some
    obtain ⟨rfl, rfl⟩ := List.cons.inj whole
    obtain ⟨letter, all⟩ := List.forall_mem_cons.mp all
    obtain ⟨unquoted, unlisted⟩ := unlisted (.inl letter)
    obtain ⟨run, past⟩ := span_append _ all longest
    rw [split_of_unlisted _ unquoted unlisted, if_pos letter, List.append_eq, run, past]
  | @number digits _ some all longest =>
    obtain ⟨first, digits, rfl⟩ := List.exists_cons_of_ne_nil some
    obtain ⟨rfl, rfl⟩ := List.cons.inj whole
    obtain ⟨digit, all⟩ := List.forall_mem_cons.mp all
    obtain ⟨unquoted, unlisted⟩ := unlisted (.inr digit)
    obtain ⟨run, past⟩ := span_append _ all longest
    rw [split_of_unlisted _ unquoted unlisted, if_neg (by simp [isLetter_of_isDigit digit]),
      if_pos digit, List.append_eq, run, past]
  | equal =>
    obtain ⟨rfl, rfl⟩ := List.cons.inj whole
    rfl
  | notEqual =>
    obtain ⟨rfl, rfl⟩ := List.cons.inj whole
    rfl
  | symbol named alone =>
    obtain ⟨rfl, rfl⟩ := List.cons.inj whole
    exact split_of_symbol (TokenKind.ofSymbol?_eq_some_iff.mpr named) alone
  | @closed content _ unquoted =>
    obtain ⟨rfl, rfl⟩ := List.cons.inj whole
    exact splitString_closed unquoted rest
  | @unclosed content unquoted =>
    obtain ⟨rfl, rfl⟩ := List.cons.inj whole
    exact splitString_unclosed unquoted
  | illegal classless =>
    obtain ⟨rfl, rfl⟩ := List.cons.inj whole
    obtain ⟨-, unlettered, undigited, unquoted, unnamed⟩ := classless
    have unlisted := Option.eq_none_iff_forall_ne_some.mpr fun kind listed =>
      unnamed kind (TokenKind.ofSymbol?_eq_some_iff.mp listed)
    rw [split_of_unlisted _ unquoted unlisted]
    simp [unlettered, undigited]

/-- A lexeme does not begin with a blank. -/
theorem Spelled.exists_cons {lexeme : Lexeme} {rest : List Char} (spelled : lexeme.Spelled rest) :
    ∃ c text, lexeme.written = c :: text ∧ isBlank c = false := by
  cases spelled with
  | @word letters _ some all =>
    obtain ⟨first, letters, rfl⟩ := List.exists_cons_of_ne_nil some
    exact ⟨first, letters, rfl, solid_of_isLetter_or_isDigit (.inl (all first List.mem_cons_self))⟩
  | @number digits _ some all =>
    obtain ⟨first, digits, rfl⟩ := List.exists_cons_of_ne_nil some
    exact ⟨first, digits, rfl, solid_of_isLetter_or_isDigit (.inr (all first List.mem_cons_self))⟩
  | equal | notEqual | closed | unclosed => exact ⟨_, _, rfl, by decide⟩
  | symbol named =>
    have listed := TokenKind.ofSymbol?_eq_some_iff.mpr named
    exact ⟨_, _, rfl, (TokenKind.solid_of_ofSymbol? listed).1⟩
  | illegal classless => exact ⟨_, _, rfl, classless.solid⟩

/-- What a lexeme reports tells how it is written. -/
theorem Spelled.shows {lexeme : Lexeme} {rest : List Char} (spelled : lexeme.Spelled rest) :
    lexeme.Shows rest := by
  cases spelled with
  | word =>
    exact ⟨fun _ => rfl, fun same => absurd same (TokenKind.lookup_keywords_ne (by decide) _)⟩
  | symbol named =>
    exact ⟨fun _ => rfl, fun same => absurd same (TokenKind.ne_of_name named (by decide))⟩
  | closed unquoted => exact ⟨fun other => absurd rfl other, fun _ => ⟨unquoted, .inl rfl⟩⟩
  | unclosed unquoted =>
    exact ⟨fun other => absurd rfl other, fun _ => ⟨unquoted, .inr ⟨rfl, rfl⟩⟩⟩
  | _ => exact ⟨fun _ => rfl, nofun⟩

/-- Lexemes of the same kind and literal begin alike. -/
theorem Shows.head?_eq {lexeme lexeme' : Lexeme} {rest rest' : List Char}
    (first : lexeme.Shows rest) (second : lexeme'.Shows rest') (kind : lexeme'.kind = lexeme.kind)
    (literal : lexeme'.literal = lexeme.literal) : lexeme'.written.head? = lexeme.written.head? := by
  by_cases quoted : lexeme.kind = .string
  · rcases (first.quoted quoted).2 with same | ⟨same, -⟩ <;>
      rcases (second.quoted (kind.trans quoted)).2 with same' | ⟨same', -⟩ <;> rw [same, same'] <;> rfl
  · rw [first.plain quoted, second.plain (kind ▸ quoted), literal]

/-- Lexemes of the same kind and literal are the same in the same place of a text: a string that is
not closed has nothing after it. -/
theorem Shows.eq_of_append_eq {lexeme lexeme' : Lexeme} {rest rest' : List Char}
    (first : lexeme.Shows rest) (second : lexeme'.Shows rest') (kind : lexeme'.kind = lexeme.kind)
    (literal : lexeme'.literal = lexeme.literal)
    (whole : lexeme'.written ++ rest' = lexeme.written ++ rest) :
    lexeme' = lexeme ∧ rest' = rest := by
  have same : lexeme'.written = lexeme.written := by
    by_cases quoted : lexeme.kind = .string
    · have size := congrArg List.length whole
      rcases (first.quoted quoted).2 with same | ⟨same, rfl⟩ <;>
        rcases (second.quoted (kind.trans quoted)).2 with same' | ⟨same', rfl⟩ <;>
        simp only [same, same', literal, List.length_append, List.length_cons, List.length_nil]
          at size ⊢ <;> omega
    · rw [first.plain quoted, second.plain (kind ▸ quoted), literal]
  obtain ⟨_, _, written⟩ := lexeme
  obtain ⟨_, _, written'⟩ := lexeme'
  obtain ⟨rfl, rfl, rfl⟩ : _ ∧ _ ∧ written' = written := ⟨kind, literal, same⟩
  exact ⟨rfl, List.append_cancel_left whole⟩

theorem Spelled.kind_ne_eof {lexeme : Lexeme} {rest : List Char} (spelled : lexeme.Spelled rest) :
    lexeme.kind ≠ .eof := by
  cases spelled with
  | word => exact TokenKind.lookup_keywords_ne (by decide) _
  | symbol named => exact TokenKind.ne_of_name named (by decide)
  | _ => exact nofun

/-- A character outside strings is of no class just where its lexeme is illegal. -/
theorem Spelled.classless_iff {lexeme : Lexeme} {rest : List Char} (spelled : lexeme.Spelled rest)
    (other : lexeme.kind ≠ .string) {c : Char} (member : c ∈ lexeme.written) :
    Classless c ↔ lexeme.kind = .illegal ∧ lexeme.written = [c] := by
  cases spelled with
  | word _ all =>
    refine iff_of_false (fun classless => ?_) fun illegal => ?_
    · exact absurd (all c member) (by simp [classless.unlettered])
    · exact TokenKind.lookup_keywords_ne (by decide) _ illegal.1
  | number _ all =>
    refine iff_of_false (fun classless => ?_) fun illegal => by cases illegal.1
    exact absurd (all c member) (by simp [classless.undigited])
  | equal =>
    obtain rfl : c = '=' := by simpa [plain] using member
    refine iff_of_false (fun classless => ?_) fun illegal => by cases illegal.1
    exact classless.unnamed .assign rfl
  | notEqual =>
    refine iff_of_false (fun classless => ?_) fun illegal => by cases illegal.1
    obtain rfl | rfl : c = '!' ∨ c = '=' := by simpa [plain] using member
    · exact classless.unnamed .bang rfl
    · exact classless.unnamed .assign rfl
  | symbol named =>
    obtain rfl := List.mem_singleton.mp member
    refine iff_of_false (fun classless => classless.unnamed _ named) fun illegal => ?_
    exact TokenKind.ne_of_name named (by decide) illegal.1
  | closed | unclosed => exact absurd rfl other
  | illegal classless =>
    obtain rfl := List.mem_singleton.mp member
    exact iff_of_true classless ⟨rfl, rfl⟩

end Lexeme

/-- A lexeme with the blanks before it. -/
structure Piece where
  blanks : List Char
  lexeme : Lexeme

namespace Piece

/-- All of the text that a piece takes up. -/
def text (piece : Piece) : List Char := piece.blanks ++ piece.lexeme.written

/-- The kind and the literal of the piece's token. -/
def reported (piece : Piece) : TokenKind × List Char := (piece.lexeme.kind, piece.lexeme.literal)

/-- The tokens of pieces that stand one after the other from a place on. -/
def tokens : Position → List Piece → List Token
  | _, [] => []
  | place, piece :: rest =>
    ⟨piece.lexeme.kind, String.ofList piece.lexeme.literal, place.after piece.blanks⟩ ::
      tokens (place.after piece.text) rest

end Piece

/-- A text is made up of pieces and the blanks after them, and a rule holds of every lexeme with the
text that follows it. -/
inductive Lays (rule : Lexeme → List Char → Prop) : List Char → List Piece → List Char → Prop
  | done {blanks : List Char} (blank : ∀ c ∈ blanks, isBlank c = true) : Lays rule blanks [] blanks
  | piece {blanks rest trailing : List Char} {lexeme : Lexeme} {pieces : List Piece}
      (blank : ∀ c ∈ blanks, isBlank c = true) (first : rule lexeme rest)
      (more : Lays rule rest pieces trailing) :
      Lays rule (blanks ++ (lexeme.written ++ rest)) (⟨blanks, lexeme⟩ :: pieces) trailing

namespace Lays

variable {rule : Lexeme → List Char → Prop} {text trailing : List Char} {pieces : List Piece}

/-- Nothing is lost. -/
theorem text_eq (lays : Lays rule text pieces trailing) :
    text = pieces.flatMap Piece.text ++ trailing := by
  induction lays with
  | done => rfl
  | piece _ _ _ ih =>
    rw [ih]
    simp [Piece.text]

theorem exists_rule (lays : Lays rule text pieces trailing) {piece : Piece}
    (member : piece ∈ pieces) : ∃ rest, rule piece.lexeme rest := by
  induction lays with
  | done => exact absurd member List.not_mem_nil
  | piece _ first _ ih =>
    rcases List.mem_cons.mp member with rfl | member
    · exact ⟨_, first⟩
    · exact ih member

end Lays

/-- Every text can be taken apart: by induction on its length, since every lexeme takes some of it. -/
theorem exists_lays (text : List Char) :
    ∃ pieces trailing, Lays Lexeme.Spelled text pieces trailing := by
  induction size : text.length using Nat.strong_induction_on generalizing text with
  | _ size ih =>
    have solid := head?_dropWhile_eq_false isBlank text
    have whole : text.takeWhile isBlank ++ text.dropWhile isBlank = text :=
      List.takeWhile_append_dropWhile
    have blank : ∀ c ∈ text.takeWhile isBlank, isBlank c = true := fun _ => List.mem_takeWhile_imp
    cases left : text.dropWhile isBlank with
    | nil =>
      rw [left, List.append_nil] at whole
      rw [← whole]
      exact ⟨[], _, .done blank⟩
    | cons c rest =>
      rw [left] at solid whole
      have spelled := Lexeme.spelled_split rest (solid c rfl)
      have shorter := Lexeme.length_split_le c rest
      have written := Lexeme.split_written c rest
      obtain ⟨pieces, trailing, lays⟩ := ih _ (by
        rw [← size, ← whole]
        simp only [List.length_append, List.length_cons]
        omega) (Lexeme.split c rest).2 rfl
      rw [← whole, ← written]
      exact ⟨_, trailing, .piece blank spelled lays⟩

namespace Cursor

/-- The blanks are skipped and one lexeme is read. -/
theorem next_eq {cursor : Cursor} {blanks rest : List Char} {lexeme : Lexeme}
    (ahead : cursor.ahead = blanks ++ (lexeme.written ++ rest))
    (blank : ∀ c ∈ blanks, isBlank c = true) (spelled : lexeme.Spelled rest) :
    cursor.next =
      (⟨lexeme.kind, String.ofList lexeme.literal, cursor.position.after blanks⟩,
        (cursor.pass blanks (lexeme.written ++ rest)).pass lexeme.written rest) := by
  obtain ⟨c, text, written, solid⟩ := spelled.exists_cons
  have longest : ∀ c ∈ (lexeme.written ++ rest).head?, isBlank c = false := by
    simpa [written] using solid
  obtain ⟨run, past⟩ := span_append _ blank longest
  have whole : lexeme.written ++ rest = c :: (text ++ rest) := by rw [written, List.cons_append]
  have skipped : cursor.skipBlanks = cursor.pass blanks (c :: (text ++ rest)) := by
    unfold skipBlanks
    rw [ahead, run, past, whole]
  unfold next readHere
  rw [skipped]
  simp only [pass, Lexeme.split_eq_of_spelled spelled whole]

theorem next_eq_ending {cursor : Cursor} (blank : ∀ c ∈ cursor.ahead, isBlank c = true) :
    cursor.next.1 = .ending (cursor.position.after cursor.ahead) := by
  obtain ⟨run, past⟩ := span_append [] blank (by simp)
  rw [List.append_nil] at run past
  unfold next skipBlanks readHere
  rw [run, past]
  rfl

/-- The tokens that are read are those of the pieces, each at its place. -/
theorem tokens_eq_of_lays {cursor : Cursor} {text trailing : List Char} {pieces : List Piece}
    (lays : Lays Lexeme.Spelled text pieces trailing) (ahead : cursor.ahead = text) :
    cursor.tokens = Piece.tokens cursor.position pieces ++
      [.ending (cursor.position.after text)] := by
  induction lays generalizing cursor with
  | done blank =>
    subst ahead
    rw [tokens, next_eq_ending blank]
    rfl
  | piece blank first _ ih =>
    rw [tokens, next_eq ahead blank first, if_neg first.kind_ne_eof, ih rfl]
    simp only [pass, Piece.tokens, Piece.text, Position.after_append, List.cons_append]

end Cursor

/-- The tokens of a text. -/
theorem tokenize_eq_of_lays {source : String} {trailing : List Char} {pieces : List Piece}
    (lays : Lays Lexeme.Spelled source.toList pieces trailing) :
    tokenize source = Piece.tokens .start pieces ++ [.ending (Position.start.after source.toList)] :=
  Cursor.tokens_eq_of_lays lays rfl

namespace Lays

variable {text trailing trailing' : List Char} {pieces pieces' : List Piece}

/-- The same tokens are found in a text in one way only. -/
theorem unique (lays : Lays Lexeme.Spelled text pieces trailing)
    (other : Lays Lexeme.Shows text pieces' trailing')
    (same : pieces'.map Piece.reported = pieces.map Piece.reported) :
    pieces' = pieces ∧ trailing' = trailing := by
  induction lays generalizing pieces' trailing' with
  | done =>
    obtain rfl := List.map_eq_nil_iff.mp same
    cases other with
    | done => exact ⟨rfl, rfl⟩
  | @piece blanks rest trailing lexeme pieces blank first _ ih =>
    obtain ⟨_, pieces', rfl, reported, others⟩ := List.map_eq_cons_iff.mp same
    generalize whole : blanks ++ (lexeme.written ++ rest) = text at other
    cases other with
    | @piece blanks' rest' _ lexeme' _ blank' first' more =>
      obtain ⟨kind, literal⟩ := Prod.mk.inj reported
      -- Neither lexeme begins with a blank, so the blanks before them are the same.
      obtain ⟨c, letters, written, solid⟩ := first.exists_cons
      have begins := first.shows.head?_eq first' kind literal
      rw [written, List.head?_cons] at begins
      obtain ⟨letters', written'⟩ := List.head?_eq_some_iff.mp begins
      obtain ⟨run, past⟩ := span_append _ blank
        (show ∀ c ∈ (lexeme.written ++ rest).head?, isBlank c = false by simpa [written] using solid)
      obtain ⟨run', past'⟩ := span_append _ blank'
        (show ∀ c ∈ (lexeme'.written ++ rest').head?, isBlank c = false by
          simpa [written'] using solid)
      rw [whole, run'] at run
      rw [whole, past'] at past
      obtain ⟨rfl, rfl⟩ := first.shows.eq_of_append_eq first' kind literal past
      obtain ⟨rfl, rfl⟩ := ih more others
      exact ⟨by rw [run], rfl⟩

end Lays

/-- Lexing loses nothing. A text is made up of blanks and lexemes, and its tokens are those of the
lexemes, before the one that stands for the end. There is no other way to find these tokens in it. -/
theorem lexing_is_lossless (source : String) : ∃ pieces trailing,
    source.toList = pieces.flatMap Piece.text ++ trailing ∧
    Lays Lexeme.Spelled source.toList pieces trailing ∧
    tokenize source =
      Piece.tokens .start pieces ++ [.ending (Position.start.after source.toList)] ∧
    (∀ pieces' trailing', Lays Lexeme.Shows source.toList pieces' trailing' →
      pieces'.map Piece.reported = pieces.map Piece.reported →
        pieces' = pieces ∧ trailing' = trailing) ∧
    ∀ piece ∈ pieces, piece.lexeme.kind ≠ .eof ∧ (piece.lexeme.kind ≠ .string →
      ∀ c ∈ piece.lexeme.written,
        (Classless c ↔ piece.lexeme.kind = .illegal ∧ piece.lexeme.written = [c])) := by
  obtain ⟨pieces, trailing, lays⟩ := exists_lays source.toList
  refine ⟨pieces, trailing, lays.text_eq, lays, tokenize_eq_of_lays lays, ?_, ?_⟩
  · exact fun _ _ other same => lays.unique other same
  · intro piece member
    obtain ⟨rest, spelled⟩ := lays.exists_rule member
    exact ⟨spelled.kind_ne_eof, fun other _ => spelled.classless_iff other⟩

end Monkey

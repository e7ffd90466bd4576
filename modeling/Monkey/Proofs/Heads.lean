import Monkey.Proofs.Lexemes
import Monkey.Proofs.Positions

/-!
A lexer as a head that moves over a text by one character at a time. What it knows of its place it
changes late, when it leaves a character, so every loop that moves it has to keep the place and the
text in step. It takes the steps of a cursor, for which a place is what the text before it makes it.
-/

namespace Monkey

/-- The fields of a lexer: the place of the character it looks at, the place after it, the
character, none at the end of the text, and its line and column. -/
structure Head where
  position : Nat
  readPosition : Nat
  current : Option Char
  line : Nat
  column : Nat

namespace Head

variable (text : List Char)

/-- Moves on by one character. A line feed opens the next line when it is left. -/
def advance (head : Head) : Head :=
  let fed := head.current = some '\n'
  ⟨head.readPosition, head.readPosition + 1, text[head.readPosition]?,
    if fed then head.line + 1 else head.line, (if fed then 0 else head.column) + 1⟩

/-- At first the head moves onto the text. -/
def start : Head := advance text ⟨0, 0, none, 1, 0⟩

def peek? (head : Head) : Option Char := text[head.readPosition]?

/-- Moves on while a character passes a test. -/
def skipWhile (test : Char → Bool) (head : Head) : Head :=
  if head.current.any test then skipWhile test (head.advance text) else head
termination_by text.length - head.readPosition + head.current.toList.length
decreasing_by
  rename_i passes
  obtain ⟨c, current, -⟩ := (Option.any_eq_true test head.current).mp passes
  rw [current]
  -- Beyond the text there is no character, and the next step is the last one.
  cases ahead : text[head.readPosition]? with
  | none =>
    simp only [advance, ahead, Option.toList_none, Option.toList_some, List.length_nil,
      List.length_singleton]
    omega
  | some c =>
    obtain ⟨inside, -⟩ := List.getElem?_eq_some_iff.mp ahead
    simp only [advance, ahead, Option.toList_some, List.length_singleton]
    omega

/-- The part of a text between two places. -/
def between (first last : Nat) : List Char := (text.take last).drop first

def readWhile (test : Char → Bool) (head : Head) : List Char × Head :=
  let last := head.skipWhile text test
  (between text head.position last.position, last)

/-- Reads a string with its quotes. It may lack the second one at the end of the text. -/
def readString (head : Head) : List Char × Head :=
  let last := (head.advance text).skipWhile text (· ≠ '"')
  (between text (head.position + 1) last.position,
    if last.current = some '"' then last.advance text else last)

/-- Reads the token that the head looks at. -/
def readHere (head : Head) : Token × Head :=
  let place := ⟨head.line, head.column⟩
  match head.current with
  | none => (.ending place, head)
  | some c =>
    if (c = '=' ∨ c = '!') ∧ head.peek? text = some '=' then
      let kind := if c = '=' then .equal else .notEqual
      (⟨kind, String.ofList [c, '='], place⟩, (head.advance text).advance text)
    else match TokenKind.ofSymbol? c with
      | some kind => (⟨kind, String.ofList [c], place⟩, head.advance text)
      | none =>
        if c = '"' then
          let (content, last) := head.readString text
          (⟨.string, String.ofList content, place⟩, last)
        else if isLetter c then
          let (word, last) := head.readWhile text isLetter
          (⟨TokenKind.ofWord (String.ofList word), String.ofList word, place⟩, last)
        else if isDigit c then
          let (digits, last) := head.readWhile text isDigit
          (⟨.int, String.ofList digits, place⟩, last)
        else (⟨.illegal, String.ofList [c], place⟩, head.advance text)

def next (head : Head) : Token × Head := (head.skipWhile text isBlank).readHere text

/-- The head after so many tokens. -/
def after : Nat → Head
  | 0 => start text
  | count + 1 => ((after count).next text).2

end Head

/-- A cursor stands in a text. What it has passed and what is ahead of it make up the text, and its
offset and its place are those of what it has passed. -/
structure Cursor.On (text passed : List Char) (cursor : Cursor) : Prop where
  whole : text = passed ++ cursor.ahead
  offset : cursor.offset = passed.length
  position : cursor.position = Position.start.after passed

namespace Cursor

theorem pass_pass (cursor : Cursor) (first second rest rest' : List Char) :
    (cursor.pass first rest).pass second rest' = cursor.pass (first ++ second) rest' := by
  simp only [pass, List.length_append, Position.after_append, Nat.add_assoc]

namespace On

variable {text passed rest : List Char} {cursor : Cursor}

theorem ofText (text : List Char) : Cursor.On text [] (.ofText text) := ⟨rfl, rfl, rfl⟩

theorem pass (on : cursor.On text passed) (run : List Char) (ahead : cursor.ahead = run ++ rest) :
    (cursor.pass run rest).On text (passed ++ run) where
  whole := by rw [on.whole, ahead, List.append_assoc]; rfl
  offset := by rw [Cursor.pass, on.offset, List.length_append]
  position := by rw [Cursor.pass, on.position, Position.after_append]

theorem getElem?_add (on : cursor.On text passed) (count : Nat) :
    text[cursor.offset + count]? = cursor.ahead[count]? := by
  rw [on.whole, on.offset, List.getElem?_append_right (Nat.le_add_right _ _),
    Nat.add_sub_cancel_left]

/-- What is passed on the way lies between the two places. -/
theorem between (on : cursor.On text passed) (run : List Char)
    (ahead : cursor.ahead = run ++ rest) :
    Head.between text cursor.offset (cursor.offset + run.length) = run := by
  rw [Head.between, on.whole, ahead, on.offset, List.take_length_add_append, List.take_left,
    List.drop_left]

end On
end Cursor

namespace Head

variable {text passed rest : List Char} {cursor : Cursor} {c : Char}

/-- The head that looks at what a cursor is at. -/
def ofCursor (cursor : Cursor) : Head :=
  ⟨cursor.offset, cursor.offset + 1, cursor.current?, cursor.position.line, cursor.position.column⟩

theorem start_eq (text : List Char) : start text = ofCursor (.ofText text) := by
  simp [start, advance, ofCursor, Cursor.ofText, Cursor.current?, Position.start,
    List.head?_eq_getElem?]

theorem peek?_ofCursor (on : cursor.On text passed) :
    (ofCursor cursor).peek? text = cursor.peek? := by
  rw [peek?, ofCursor, on.getElem?_add, Cursor.peek?, ← List.drop_one, List.head?_drop]

theorem advance_ofCursor (on : cursor.On text passed) (ahead : cursor.ahead = c :: rest) :
    (ofCursor cursor).advance text = ofCursor (cursor.pass [c] rest) := by
  have next : text[cursor.offset + 1]? = rest.head? := by
    rw [on.getElem?_add, ahead, List.getElem?_cons_succ, List.head?_eq_getElem?]
  simp only [advance, ofCursor, next, Cursor.pass, Cursor.current?, ahead, List.head?_cons,
    Position.after_cons, Position.after_nil, Position.step, Option.some.injEq,
    List.length_singleton]
  split <;> rfl

/-- By induction on what is ahead, since every step takes one character. -/
theorem skipWhile_ofCursor (test : Char → Bool) (on : cursor.On text passed) :
    (ofCursor cursor).skipWhile text test =
      ofCursor (cursor.pass (cursor.ahead.takeWhile test) (cursor.ahead.dropWhile test)) := by
  generalize left : cursor.ahead = ahead
  induction ahead generalizing cursor passed with
  | nil =>
    rw [skipWhile]
    simp [ofCursor, Cursor.current?, left, Cursor.pass]
  | cons c rest ih =>
    have here : (ofCursor cursor).current.any test = test c := by
      simp [ofCursor, Cursor.current?, left]
    rw [skipWhile, here]
    by_cases passes : test c = true
    · have later := ih (on.pass [c] left) rfl
      rw [if_pos passes, advance_ofCursor on left, later, List.takeWhile_cons_of_pos passes,
        List.dropWhile_cons_of_pos passes, Cursor.pass_pass]
      rfl
    · rw [if_neg passes, List.takeWhile_cons_of_neg passes, List.dropWhile_cons_of_neg passes,
        ← left]
      rfl

theorem readWhile_ofCursor (test : Char → Bool) (on : cursor.On text passed) :
    (ofCursor cursor).readWhile text test = (cursor.ahead.takeWhile test,
      ofCursor (cursor.pass (cursor.ahead.takeWhile test) (cursor.ahead.dropWhile test))) := by
  have run := on.between _ (List.takeWhile_append_dropWhile (p := test)).symm
  rw [readWhile, skipWhile_ofCursor test on]
  exact congrArg (·, _) run

/-- Past the first quote a string runs up to the next one, which it takes in. -/
theorem readString_ofCursor (on : cursor.On text passed) (ahead : cursor.ahead = '"' :: rest) :
    (ofCursor cursor).readString text = ((Lexeme.splitString rest).1.literal,
      ofCursor (cursor.pass (Lexeme.splitString rest).1.written (Lexeme.splitString rest).2)) := by
  have inside := on.pass ['"'] ahead
  obtain ⟨content, left, whole, unquoted, closing, skipped⟩ : ∃ content left,
      rest = content ++ left ∧ '"' ∉ content ∧ (∀ c ∈ left.head?, c = '"') ∧
        (ofCursor (cursor.pass ['"'] rest)).skipWhile text (· ≠ '"') =
          ofCursor ((cursor.pass ['"'] rest).pass content left) := by
    refine ⟨_, _, List.takeWhile_append_dropWhile.symm, fun member => ?_, fun c first => ?_,
      skipWhile_ofCursor (· ≠ '"') inside⟩
    · exact absurd (List.mem_takeWhile_imp member) (by decide)
    · simpa using head?_dropWhile_eq_false (· ≠ '"') rest c first
  have read : between text ((ofCursor cursor).position + 1)
      (ofCursor ((cursor.pass ['"'] rest).pass content left)).position = content :=
    inside.between _ whole
  rw [readString, advance_ofCursor on ahead, skipped, read]
  cases left with
  | nil =>
    rw [whole, Lexeme.splitString_unclosed unquoted, Cursor.pass_pass]
    rfl
  | cons quote more =>
    obtain rfl := closing quote rfl
    have closed := advance_ofCursor (inside.pass _ whole) rfl
    have here : (ofCursor ((cursor.pass ['"'] rest).pass content ('"' :: more))).current =
      some '"' := rfl
    rw [if_pos here, closed, whole, List.append_cons, Lexeme.splitString_closed unquoted,
      Cursor.pass_pass, Cursor.pass_pass]
    rfl

theorem readHere_ofCursor (on : cursor.On text passed) :
    (ofCursor cursor).readHere text = (cursor.readHere.1, ofCursor cursor.readHere.2) := by
  obtain ⟨offset, position, ahead⟩ := cursor
  obtain _ | ⟨c, rest⟩ := ahead
  · rfl
  have peek : (ofCursor ⟨offset, position, c :: rest⟩).peek? text = rest.head? :=
    peek?_ofCursor on
  have step := advance_ofCursor on rfl
  have here : (ofCursor ⟨offset, position, c :: rest⟩).current = some c := rfl
  unfold readHere Cursor.readHere
  simp only [here, peek, step]
  by_cases double : (c = '=' ∨ c = '!') ∧ rest.head? = some '='
  · rw [if_pos double]
    obtain ⟨sign, follows⟩ := double
    obtain ⟨more, rfl⟩ := List.head?_eq_some_iff.mp follows
    rw [advance_ofCursor (on.pass [c] rfl) rfl, Cursor.pass_pass]
    rcases sign with rfl | rfl <;> rfl
  rw [if_neg double]
  cases listed : TokenKind.ofSymbol? c with
  | some kind =>
    rw [Lexeme.split_of_symbol listed fun sign follows => double ⟨sign, follows⟩]
    rfl
  | none =>
    by_cases quoted : c = '"'
    · subst quoted
      have kind : (Lexeme.splitString rest).1.kind = .string := by
        unfold Lexeme.splitString
        split <;> rfl
      have split : Lexeme.split '"' rest = Lexeme.splitString rest := rfl
      rw [split, kind]
      simp only [if_true, readString_ofCursor on rfl]
      rfl
    rw [if_neg quoted, Lexeme.split_of_unlisted rest quoted listed]
    by_cases letter : isLetter c = true
    · simp only [letter, if_true, readWhile_ofCursor isLetter on, List.takeWhile_cons_of_pos,
        List.dropWhile_cons_of_pos, TokenKind.ofWord_eq]
      rfl
    by_cases digit : isDigit c = true
    · simp only [letter, digit, if_true, readWhile_ofCursor isDigit on, List.takeWhile_cons_of_pos,
        List.dropWhile_cons_of_pos]
      rfl
    simp only [letter, digit]
    rfl

/-- A head reads what a cursor reads and ends up where it does. -/
theorem next_ofCursor (on : cursor.On text passed) :
    (ofCursor cursor).next text = (cursor.next.1, ofCursor cursor.next.2) := by
  rw [next, skipWhile_ofCursor isBlank on]
  exact readHere_ofCursor (on.pass _ List.takeWhile_append_dropWhile.symm)

end Head

namespace Cursor

variable {text passed : List Char} {cursor : Cursor}

/-- What one step takes: blanks, and then a lexeme. At the end of the text the lexeme is empty. -/
theorem exists_next_eq (cursor : Cursor) : ∃ (blanks rest : List Char) (lexeme : Lexeme),
    cursor.ahead = blanks ++ (lexeme.written ++ rest) ∧ (∀ c ∈ blanks, isBlank c = true) ∧
      lexeme.Shows rest ∧ (lexeme.kind = .eof → lexeme.written ++ rest = []) ∧
      (lexeme.kind ≠ .eof → lexeme.written ≠ []) ∧
      cursor.next = (⟨lexeme.kind, String.ofList lexeme.literal, cursor.position.after blanks⟩,
        (cursor.pass blanks (lexeme.written ++ rest)).pass lexeme.written rest) := by
  obtain ⟨pieces, trailing, lays⟩ := exists_lays cursor.ahead
  generalize ahead : cursor.ahead = text at lays
  cases lays with
  | done blank =>
    obtain ⟨run, past⟩ := span_append [] blank (by simp)
    rw [List.append_nil] at run past
    refine ⟨trailing, [], ⟨.eof, [], []⟩, (List.append_nil _).symm, blank, ⟨fun _ => rfl, nofun⟩,
      fun _ => rfl, fun other => absurd rfl other, ?_⟩
    unfold next skipBlanks readHere
    rw [ahead, run, past]
    rfl
  | @piece blanks rest _ lexeme _ blank first more =>
    obtain ⟨c, letters, written, -⟩ := first.exists_cons
    exact ⟨blanks, rest, lexeme, rfl, blank, first.shows,
      fun ended => absurd ended first.kind_ne_eof, fun _ none => by simp [written] at none,
      next_eq ahead blank first⟩

/-- The next step goes on from where the last one ended. -/
theorem getElem?_steps_succ {first : Cursor} {count : Nat}
    (found : (steps (count + 1) first)[count]? = some cursor.next) :
    (steps (count + 2) first)[count + 1]? = some cursor.next.2.next := by
  induction count generalizing first with
  | zero =>
    rw [steps, List.getElem?_cons_zero, Option.some.injEq] at found
    rw [steps, List.getElem?_cons_succ, steps, List.getElem?_cons_zero, found]
  | succ count ih =>
    rw [steps, List.getElem?_cons_succ] at found ⊢
    exact ih found

theorem next_of_ended {cursor : Cursor} (ended : cursor.ahead = []) :
    cursor.next = (.ending cursor.position, cursor) := by
  obtain ⟨offset, position, ahead⟩ := cursor
  obtain rfl : ahead = [] := ended
  rfl

end Cursor

/-- The last line feed in front of an index of a text. -/
def LastFeed (text : List Char) (stop feed : Nat) : Prop :=
  feed < stop ∧ text[feed]? = some '\n' ∧
    ∀ index, feed < index → index < stop → text[index]? ≠ some '\n'

/-- A place is that of an index of a text. Lines are counted by the line feeds before it, columns
from the last of them, or else from the beginning. -/
structure Position.At (text : List Char) (index : Nat) (place : Position) : Prop where
  line : place.line = 1 + (text.take index).count '\n'
  column : '\n' ∉ text.take index ∧ place.column = index + 1 ∨
    ∃ feed, LastFeed text index feed ∧ place.column = index - feed

theorem lastFeed_append {front tail : List Char} (rest : List Char) (unfed : '\n' ∉ tail) :
    LastFeed (front ++ '\n' :: tail ++ rest) (front ++ '\n' :: tail).length front.length := by
  refine ⟨by simp, by simp, fun index after before found => ?_⟩
  rw [List.getElem?_append_left before, List.getElem?_append_right (Nat.le_of_lt after),
    List.getElem?_cons, if_neg (by omega)] at found
  exact unfed (List.mem_of_getElem? found)

theorem Cursor.On.at {text passed : List Char} {cursor : Cursor} (on : cursor.On text passed) :
    cursor.position.At text cursor.offset := by
  rw [on.offset, on.position, on.whole]
  refine ⟨by rw [Position.after_line, List.take_left]; rfl, ?_⟩
  rw [List.take_left]
  by_cases fed : '\n' ∈ passed
  · obtain ⟨front, tail, rfl, unfed⟩ := exists_last_feed fed
    refine .inr ⟨front.length, lastFeed_append cursor.ahead unfed, ?_⟩
    rw [Position.after_of_fed _ _ unfed]
    simp
  · exact .inl ⟨fed, by rw [Position.after_of_unfed _ fed, Nat.add_comm]; rfl⟩

namespace Head

variable {text passed : List Char} {cursor : Cursor}

/-- What the fields of a head tell of the text. -/
structure Reads (text : List Char) (head : Head) : Prop where
  inside : head.position ≤ text.length
  ahead : head.readPosition = head.position + 1
  current : head.current = text[head.position]?
  ended : head.current = none ↔ head.position = text.length
  peek : head.peek? text = text[head.position + 1]?
  place : Position.At text head.position ⟨head.line, head.column⟩

theorem reads_ofCursor (on : cursor.On text passed) : (ofCursor cursor).Reads text := by
  have here : cursor.current? = text[cursor.offset]? :=
    List.head?_eq_getElem?.trans (on.getElem?_add 0).symm
  have size : text.length = cursor.offset + cursor.ahead.length := by
    rw [on.whole, on.offset, List.length_append]
  refine ⟨size ▸ Nat.le_add_right _ _, rfl, here, ?_, rfl, on.at⟩
  change cursor.ahead.head? = none ↔ cursor.offset = text.length
  rw [List.head?_eq_none_iff, size, ← List.length_eq_zero_iff]
  omega

/-- What a call takes of the text: blanks up to the first character of a lexeme, whose place the
token has, and the lexeme, which is how the token is written. The token for the end takes the place
there. -/
structure Takes (text : List Char) (head : Head) (token : Token) (later : Head) (first : Nat) :
    Prop where
  skipped : head.position ≤ first
  taken : token.kind ≠ .eof → first < later.position
  ended : token.kind = .eof → first = text.length ∧ later.position = text.length
  blank : ∀ c ∈ between text head.position first, isBlank c = true
  place : token.position.At text first
  lexeme : Lexeme.Shows ⟨token.kind, token.literal.toList, between text first later.position⟩
    (text.drop later.position)

/-- One call, by what one step of the cursor takes. -/
theorem next_ofCursor_takes (on : cursor.On text passed) :
    (∃ passed', cursor.next.2.On text passed') ∧
    (∃ first, Takes text (ofCursor cursor) cursor.next.1 (ofCursor cursor.next.2) first) ∧
    (cursor.next.1.kind ≠ .eof → cursor.offset < cursor.next.2.offset) ∧
    (cursor.next.1.kind = .eof → cursor.next.2.next = cursor.next) := by
  obtain ⟨blanks, rest, ⟨kind, literal, run⟩, ahead, blank, shows, ended, some, next⟩ :=
    cursor.exists_next_eq
  dsimp only at ahead shows ended some next
  have skipped := on.pass _ ahead
  have taken := skipped.pass run rfl
  have written := skipped.between run rfl
  have left : text.drop ((cursor.pass blanks (run ++ rest)).pass run rest).offset = rest := by
    rw [taken.offset, taken.whole, List.drop_left]
    rfl
  have moves (more : kind ≠ .eof) : cursor.offset + blanks.length <
      cursor.offset + blanks.length + run.length :=
    Nat.lt_add_of_pos_right (List.length_pos_iff.mpr (some more))
  rw [next]
  refine ⟨⟨_, taken⟩, ⟨cursor.offset + blanks.length, ?_⟩,
    fun more => (Nat.le_add_right _ _).trans_lt (moves more), fun last => ?_⟩
  · refine ⟨Nat.le_add_right _ _, moves, fun last => ?_, ?_, skipped.at, ?_⟩
    · obtain ⟨rfl, rfl⟩ := List.append_eq_nil_iff.mp (ended last)
      have size : text.length = cursor.offset + blanks.length := by
        rw [skipped.whole, List.length_append, ← skipped.offset]
        rfl
      exact ⟨size.symm, size.symm⟩
    · exact (on.between _ ahead).symm ▸ blank
    · have told : (⟨kind, (String.ofList literal).toList, _⟩ : Lexeme) = ⟨kind, literal, run⟩ :=
        congrArg₂ (Lexeme.mk kind) String.toList_ofList written
      exact (congrArg₂ Lexeme.Shows told left).mpr shows
  · obtain rfl : kind = .eof := last
    obtain ⟨rfl, rfl⟩ := List.append_eq_nil_iff.mp (ended rfl)
    obtain rfl : [] = literal := shows.plain nofun
    exact Cursor.next_of_ended rfl

/-- The head after some tokens stands where the cursor does after as many steps. -/
theorem exists_after_eq (text : List Char) (count : Nat) : ∃ passed cursor,
    cursor.On text passed ∧ after text count = ofCursor cursor ∧
      (Cursor.steps (count + 1) (.ofText text))[count]? = some cursor.next := by
  induction count with
  | zero => exact ⟨[], _, .ofText text, start_eq text, rfl⟩
  | succ count ih =>
    obtain ⟨passed, cursor, on, same, found⟩ := ih
    obtain ⟨⟨passed', later⟩, -⟩ := next_ofCursor_takes on
    refine ⟨passed', _, later, ?_, Cursor.getElem?_steps_succ found⟩
    rw [after, same, next_ofCursor on]

/-- Where the call after a call is the same, the head stays where it is. -/
theorem after_of_settled {count : Nat}
    (settled : (after text (count + 1)).next text = (after text count).next text) (more : Nat) :
    after text (count + 1 + more) = after text (count + 1) := by
  induction more with
  | zero => rfl
  | succ more ih => rw [← Nat.add_assoc, after, ih, settled, after]

end Head

/-- Whatever the text and however many tokens have been read, a lexer looks at the character at its
position, whose line and column it knows. The next token has the place of the first character of its
lexeme, and the lexer moves on with it, until at the end it stays where it is. -/
theorem lexer_keeps_its_place (source : String) (count : Nat) :
    let text := source.toList
    let head := Head.after text count
    let call := head.next text
    head.Reads text ∧
      (∃ first, Head.Takes text head call.1 call.2 first) ∧
      (call.1.kind ≠ .eof → head.position < call.2.position) ∧
      (call.1.kind = .eof → ∀ more, Head.after text (count + 1 + more) = call.2 ∧
        (Head.after text (count + 1 + more)).next text = call) ∧
      ∃ cursor, head = .ofCursor cursor ∧ head.peek? text = cursor.peek? ∧
        call = (cursor.next.1, .ofCursor cursor.next.2) ∧
        (Cursor.steps (count + 1) (.ofText text))[count]? = some cursor.next := by
  intro text head call
  obtain ⟨passed, cursor, on, same, found⟩ := Head.exists_after_eq text count
  have same : head = .ofCursor cursor := same
  have next : call = (cursor.next.1, .ofCursor cursor.next.2) := by
    rw [← Head.next_ofCursor on, ← same]
  obtain ⟨⟨passed', later⟩, takes, moves, settles⟩ := Head.next_ofCursor_takes on
  refine ⟨same ▸ Head.reads_ofCursor on, ?_, ?_, fun last => ?_, cursor, same,
    same ▸ Head.peek?_ofCursor on, next, found⟩
  · rw [next, same]
    exact takes
  · rw [next, same]
    exact moves
  · rw [next] at last
    have settled : (Head.after text (count + 1)).next text = call := by
      change call.2.next text = call
      rw [next, Head.next_ofCursor later, settles last]
    intro more
    rw [Head.after_of_settled settled]
    exact ⟨rfl, settled⟩

/-- A line feed inside a string, one at the very end, and a comparison before a lone carriage
return. -/
example : let head := Head.after "\"a\nb\"==\rx\n".toList 2
    head.position = 7 ∧ head.current = some '\r' ∧ head.line = 2 ∧ head.column = 5 := by cbv

end Monkey

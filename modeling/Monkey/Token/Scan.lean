import Monkey.Token

/-!
From text to tokens. A cursor walks the text; each step skips blanks and splits off the longest
lexeme that starts there. Every character belongs to some lexeme, so scanning never fails: a
character of no class becomes an illegal token, and a string without a closing quote runs to the
end of the text.
-/

namespace Monkey

/-- What stands between tokens. -/
def isBlank (c : Char) : Bool :=
  c = ' ' || c = '\t' || c = '\r' || c = '\n'

def isLetter (c : Char) : Bool :=
  ('a' ≤ c && c ≤ 'z') || ('A' ≤ c && c ≤ 'Z') || c = '_'

def isDigit (c : Char) : Bool :=
  '0' ≤ c && c ≤ '9'

/-- A token's text before it is given a place: `written` is all it takes up in the source, `literal`
the part it reports. The two differ only for strings, which report what is between the quotes. -/
structure Lexeme where
  kind : TokenKind
  literal : List Char
  written : List Char

namespace Lexeme

/-- A lexeme that reports all of its text. -/
def plain (kind : TokenKind) (text : List Char) : Lexeme := ⟨kind, text, text⟩

/-- Splits a string literal off the text after its opening quote. There are no escapes. -/
def splitString (text : List Char) : Lexeme × List Char :=
  let content := text.takeWhile (· ≠ '"')
  match text.dropWhile (· ≠ '"') with
  | [] => (⟨.string, content, '"' :: content⟩, [])
  | quote :: rest => (⟨.string, content, '"' :: content ++ [quote]⟩, rest)

/-- Splits off the lexeme that starts with `c`. -/
def split (c : Char) (text : List Char) : Lexeme × List Char :=
  match c, text with
  | '=', '=' :: rest => (plain .equal ['=', '='], rest)
  | '!', '=' :: rest => (plain .notEqual ['!', '='], rest)
  | '"', text => splitString text
  | c, text =>
    match TokenKind.ofSymbol? c with
    | some kind => (plain kind [c], text)
    | none =>
      if isLetter c then
        let word := c :: text.takeWhile isLetter
        (plain (TokenKind.ofWord (String.ofList word)) word, text.dropWhile isLetter)
      else if isDigit c then
        (plain .int (c :: text.takeWhile isDigit), text.dropWhile isDigit)
      else
        (plain .illegal [c], text)

theorem length_dropWhile_le (test : Char → Bool) (text : List Char) :
    (text.dropWhile test).length ≤ text.length :=
  (List.dropWhile_sublist test).length_le

theorem length_splitString_le (text : List Char) :
    (splitString text).2.length ≤ text.length := by
  have bound := length_dropWhile_le (· ≠ '"') text
  unfold splitString
  split
  · exact Nat.zero_le _
  · rename_i rest shape
    rw [shape] at bound
    exact Nat.le_of_succ_le bound

/-- A lexeme takes its first character at least, so less text is left than there was. -/
theorem length_split_le (c : Char) (text : List Char) : (split c text).2.length ≤ text.length := by
  unfold split
  split
  · exact Nat.le_succ _
  · exact Nat.le_succ _
  · exact length_splitString_le _
  · split
    · exact Nat.le_refl _
    · split
      · exact length_dropWhile_le _ _
      · split
        · exact length_dropWhile_le _ _
        · exact Nat.le_refl _

theorem splitString_written (text : List Char) :
    (splitString text).1.written ++ (splitString text).2 = '"' :: text := by
  have whole := List.takeWhile_append_dropWhile (p := (· ≠ '"')) (l := text)
  unfold splitString
  split <;> rename_i shape <;> rw [shape] at whole <;> simpa using whole

/-- A lexeme and the text it leaves make up the text it was split from. -/
theorem split_written (c : Char) (text : List Char) :
    (split c text).1.written ++ (split c text).2 = c :: text := by
  unfold split
  split
  · rfl
  · rfl
  · exact splitString_written _
  · split
    · rfl
    · split
      · simp [plain]
      · split <;> simp [plain]

end Lexeme

/-- A place in the text being scanned, with all the text from there on. -/
structure Cursor where
  offset : Nat
  position : Position
  ahead : List Char

namespace Cursor

def ofText (text : List Char) : Cursor := ⟨0, .start, text⟩

/-- The character at the cursor, none at the end of the text. -/
def current? (cursor : Cursor) : Option Char := cursor.ahead.head?

/-- The character after the one at the cursor. -/
def peek? (cursor : Cursor) : Option Char := cursor.ahead.tail.head?

/-- Moves past `text`, which leaves `rest`. -/
def pass (cursor : Cursor) (text rest : List Char) : Cursor :=
  ⟨cursor.offset + text.length, cursor.position.after text, rest⟩

def skipBlanks (cursor : Cursor) : Cursor :=
  cursor.pass (cursor.ahead.takeWhile isBlank) (cursor.ahead.dropWhile isBlank)

/-- Reads the token whose first character is at the cursor. -/
def readHere (cursor : Cursor) : Token × Cursor :=
  match cursor.ahead with
  | [] => (.ending cursor.position, cursor)
  | c :: text =>
    let (lexeme, rest) := Lexeme.split c text
    (⟨lexeme.kind, String.ofList lexeme.literal, cursor.position⟩, cursor.pass lexeme.written rest)

/-- Reads one token. At the end of the text it reads the end, again and again. -/
def next (cursor : Cursor) : Token × Cursor := cursor.skipBlanks.readHere

theorem length_readHere_lt (cursor : Cursor) (more : cursor.readHere.1.kind ≠ .eof) :
    cursor.readHere.2.ahead.length < cursor.ahead.length := by
  obtain ⟨offset, position, ahead⟩ := cursor
  cases ahead with
  | nil => exact absurd rfl more
  | cons c text => exact Nat.lt_succ_of_le (Lexeme.length_split_le c text)

theorem length_next_lt (cursor : Cursor) (more : cursor.next.1.kind ≠ .eof) :
    cursor.next.2.ahead.length < cursor.ahead.length :=
  Nat.lt_of_lt_of_le (length_readHere_lt cursor.skipBlanks more)
    (Lexeme.length_dropWhile_le isBlank cursor.ahead)

/-- All tokens from the cursor on, the end included. -/
def tokens (cursor : Cursor) : List Token :=
  if cursor.next.1.kind = .eof then [cursor.next.1]
  else cursor.next.1 :: cursor.next.2.tokens
termination_by cursor.ahead.length
decreasing_by exact length_next_lt cursor (by assumption)

/-- The tokens of the first `count` steps, each with the cursor it leaves. -/
def steps : Nat → Cursor → List (Token × Cursor)
  | 0, _ => []
  | count + 1, cursor => cursor.next :: steps count cursor.next.2

end Cursor

/-- The tokens of a source text. The last one stands for its end. -/
def tokenize (source : String) : List Token :=
  (Cursor.ofText source.toList).tokens

end Monkey

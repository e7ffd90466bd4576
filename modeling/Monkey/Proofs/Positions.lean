import Monkey.Token.Scan

/-!
Where tokens stand. Reading on moves a place forward, never back, and every token takes some text;
so the tokens of a text stand one after the other, and no two at the same place.
-/

namespace Monkey

namespace Position

def Before (first second : Position) : Prop :=
  first.line < second.line ∨ first.line = second.line ∧ first.column < second.column

variable {first second third : Position}

theorem Before.ne (before : first.Before second) : first ≠ second := by
  rintro rfl
  unfold Before at before
  omega

theorem Before.trans (start : first.Before second) (further : second.Before third) :
    first.Before third := by
  unfold Before at *
  omega

theorem before_step (place : Position) (c : Char) : place.Before (place.step c) := by
  unfold step Before
  split
  · exact .inl (Nat.lt_succ_self _)
  · exact .inr ⟨rfl, Nat.lt_succ_self _⟩

theorem before_after_of_ne_nil (place : Position) {text : List Char} (some : text ≠ []) :
    place.Before (place.after text) := by
  induction text generalizing place with
  | nil => exact absurd rfl some
  | cons c rest ih =>
    cases rest with
    | nil => exact place.before_step c
    | cons next rest => exact (place.before_step c).trans (ih _ (List.cons_ne_nil _ _))

/-- Text moves a place forward, or it is empty. -/
theorem eq_or_before_after (place : Position) (text : List Char) :
    place = place.after text ∨ place.Before (place.after text) := by
  cases text with
  | nil => exact .inl rfl
  | cons c rest => exact .inr (place.before_after_of_ne_nil (List.cons_ne_nil _ _))

/-- A stretch of text without a line feed stays in its line. -/
theorem after_of_unfed (place : Position) {text : List Char} (unfed : '\n' ∉ text) :
    place.after text = ⟨place.line, place.column + text.length⟩ := by
  induction text generalizing place with
  | nil => rfl
  | cons c rest ih =>
    have other : c ≠ '\n' := fun same => unfed (same ▸ List.mem_cons_self)
    have later : '\n' ∉ rest := fun member => unfed (List.mem_cons_of_mem c member)
    rw [after_cons, ih _ later, step, if_neg other, List.length_cons, Nat.add_assoc, Nat.add_comm 1]

/-- Every line feed opens a line. -/
theorem after_line (place : Position) (text : List Char) :
    (place.after text).line = place.line + text.count '\n' := by
  induction text generalizing place with
  | nil => rfl
  | cons c rest ih =>
    rw [after_cons, ih, step]
    split
    · rename_i same
      rw [same, List.count_cons_self, Nat.add_assoc, Nat.add_comm 1]
    · rename_i other
      rw [List.count_cons_of_ne other]

/-- After a line feed columns are counted anew. -/
theorem after_of_fed (place : Position) (front : List Char) {tail : List Char}
    (unfed : '\n' ∉ tail) :
    (place.after (front ++ '\n' :: tail)).column = tail.length + 1 := by
  rw [after_append, after_cons, after_of_unfed _ unfed, Nat.add_comm]
  rfl

end Position

/-- A text with a line feed has a last one. -/
theorem exists_last_feed {text : List Char} (fed : '\n' ∈ text) :
    ∃ front tail, text = front ++ '\n' :: tail ∧ '\n' ∉ tail := by
  obtain ⟨tail, front, reversed, unfed⟩ :=
    List.eq_append_cons_of_mem (List.mem_reverse.mpr fed)
  refine ⟨front.reverse, tail.reverse, ?_, fun member => unfed (List.mem_reverse.mp member)⟩
  rw [← List.reverse_reverse text, reversed]
  simp

namespace Lexeme

theorem written_ne_nil (c : Char) (text : List Char) : (split c text).1.written ≠ [] := by
  intro none
  have whole := congrArg List.length (split_written c text)
  have shorter := length_split_le c text
  rw [none, List.nil_append, List.length_cons] at whole
  omega

end Lexeme

namespace Cursor

theorem eq_or_before_next (cursor : Cursor) :
    cursor.position = cursor.next.1.position ∨ cursor.position.Before cursor.next.1.position := by
  have place : cursor.next.1.position =
      cursor.position.after (cursor.ahead.takeWhile isBlank) := by
    unfold next readHere
    split <;> rfl
  rw [place]
  exact cursor.position.eq_or_before_after _

theorem before_next (cursor : Cursor) (more : cursor.next.1.kind ≠ .eof) :
    cursor.next.1.position.Before cursor.next.2.position := by
  unfold next readHere at more ⊢
  split
  · rename_i ended
    rw [ended] at more
    exact absurd rfl more
  · exact Position.before_after_of_ne_nil _ (Lexeme.written_ne_nil _ _)

/-- By induction on the tokens still to come: none of them stands before the cursor. -/
theorem tokens_positions (cursor : Cursor) :
    (∀ token ∈ cursor.tokens, cursor.position = token.position ∨
      cursor.position.Before token.position) ∧
    cursor.tokens.Pairwise fun first second => first.position.Before second.position := by
  induction cursor using Cursor.tokens.induct with
  | case1 cursor ended =>
    rw [tokens, if_pos ended]
    exact ⟨by simpa using cursor.eq_or_before_next, List.pairwise_singleton _ _⟩
  | case2 cursor more ih =>
    obtain ⟨later, ordered⟩ := ih
    have first := cursor.before_next more
    have after (token : Token) (member : token ∈ cursor.next.2.tokens) :
        cursor.next.1.position.Before token.position := by
      rcases later token member with same | before
      · exact same ▸ first
      · exact first.trans before
    rw [tokens, if_neg more]
    refine ⟨fun token member => ?_, List.pairwise_cons.mpr ⟨after, ordered⟩⟩
    rcases List.mem_cons.mp member with rfl | member
    · exact cursor.eq_or_before_next
    · rcases cursor.eq_or_before_next with same | before
      · exact .inr (same ▸ after token member)
      · exact .inr (before.trans (after token member))

end Cursor

/-- The tokens of a text stand one after the other. -/
theorem tokenize_pairwise (source : String) :
    (tokenize source).Pairwise fun first second => first.position.Before second.position :=
  (Cursor.ofText source.toList).tokens_positions.2

end Monkey

/-!
Line ends. Texts from outside end their lines with a line feed, a carriage return, or the two
together, and all three are read as one line feed.
-/

namespace Monkey.Text

def unifyNewlines : List Char → List Char
  | [] => []
  | '\r' :: '\n' :: rest => '\n' :: unifyNewlines rest
  | '\r' :: rest => '\n' :: unifyNewlines rest
  | c :: rest => c :: unifyNewlines rest

theorem not_mem_unifyNewlines (text : List Char) : '\r' ∉ unifyNewlines text := by
  fun_induction unifyNewlines text with
  | case1 => exact List.not_mem_nil
  | case2 rest ih => simpa using ih
  | case3 rest _ ih => simpa using ih
  | case4 c rest _ other ih => simpa [ih] using fun same : '\r' = c => other same.symm

theorem unifyNewlines_cons {c : Char} (other : c ≠ '\r') (rest : List Char) :
    unifyNewlines (c :: rest) = c :: unifyNewlines rest := by
  rw [unifyNewlines]
  · exact fun _ same _ => other same
  · exact other

/-- What has no carriage return in it stays as it is. -/
theorem unifyNewlines_append_of_not_mem {text : List Char} (plain : '\r' ∉ text)
    (rest : List Char) : unifyNewlines (text ++ rest) = text ++ unifyNewlines rest := by
  induction text with
  | nil => rfl
  | cons c text ih =>
    have other : c ≠ '\r' := fun same => plain (same ▸ List.mem_cons_self)
    have later : '\r' ∉ text := fun member => plain (List.mem_cons_of_mem c member)
    rw [List.cons_append, unifyNewlines_cons other, ih later, List.cons_append]

/-- A line end is not torn apart where no line feed follows. -/
theorem unifyNewlines_append (text : List Char) {rest : List Char} (unfed : rest.head? ≠ some '\n') :
    unifyNewlines (text ++ rest) = unifyNewlines text ++ unifyNewlines rest := by
  fun_induction unifyNewlines text with
  | case1 => rfl
  | case2 text ih => exact congrArg ('\n' :: ·) ih
  | case3 text single ih =>
    have single' : ∀ more, text ++ rest = '\n' :: more → False := by
      intro more whole
      cases text with
      | nil => exact unfed (congrArg List.head? whole)
      | cons c text =>
        obtain ⟨rfl, -⟩ := List.cons.inj whole
        exact single text rfl
    rw [List.cons_append, unifyNewlines, ih, List.cons_append]
    exact single'
  | case4 c text _ other ih =>
    rw [List.cons_append, unifyNewlines_cons other, ih, List.cons_append]

theorem mem_unifyNewlines {text : List Char} {c : Char} (member : c ∈ unifyNewlines text) :
    c ∈ text ∨ c = '\n' := by
  fun_induction unifyNewlines text with
  | case1 => exact .inl member
  | case2 | case3 | case4 => grind

/-- A text begins as it did, or with a line feed. -/
theorem mem_head?_unifyNewlines {text : List Char} {c : Char}
    (first : c ∈ (unifyNewlines text).head?) : c ∈ text.head? ∨ c = '\n' := by
  unfold unifyNewlines at first
  split at first
  · exact .inl first
  · exact .inr (Option.some.inj first).symm
  · exact .inr (Option.some.inj first).symm
  · exact .inl first

/-- The lines of a text. What follows the last line feed is a line unless it is empty. -/
def splitLines (text : List Char) : List (List Char) :=
  match text with
  | [] => []
  | c :: rest => collect [] (c :: rest)
where
  /-- `line` is what was read of the current line, backwards. -/
  collect (line : List Char) : List Char → List (List Char)
    | [] => if line.isEmpty then [] else [line.reverse]
    | '\n' :: rest => line.reverse :: collect [] rest
    | c :: rest => collect (c :: line) rest

end Monkey.Text

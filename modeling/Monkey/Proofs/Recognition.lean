import Mathlib
import Monkey.Proofs.Reading.Soundness

/-!
Which texts are programs: those whose tokens the grammar derives, and no others.
-/

namespace Monkey

namespace Cursor

/-- The end of the text is the last token and no other. -/
theorem exists_tokens_eq (cursor : Cursor) : ∃ (inside : List Token) (ending : Token),
    cursor.tokens = inside ++ [ending] ∧ ending.kind = .eof ∧
      ∀ token ∈ inside, token.kind ≠ .eof := by
  induction cursor using Cursor.tokens.induct with
  | case1 cursor ended =>
    rw [tokens, if_pos ended]
    exact ⟨[], cursor.next.1, rfl, ended, by simp⟩
  | case2 cursor more ih =>
    obtain ⟨inside, ending, same, kind, others⟩ := ih
    rw [tokens, if_neg more, same]
    refine ⟨cursor.next.1 :: inside, ending, rfl, kind, ?_⟩
    simpa [more] using others

end Cursor

/-- A derivation of a program is one of statements before the end. -/
theorem Derives.exists_statements {tokens inside : List Token} {ending : Token} {tree : Program}
    (derives : Derives .program tokens tree []) (same : tokens = inside ++ [ending]) :
    Derives .statements inside tree.statements [] := by
  cases derives with
  | program inner ends =>
    obtain ⟨rfl, -⟩ := List.append_inj' same rfl
    exact inner

/-- The grammar leaves no choice: the program that it derives is the one that is read. -/
theorem parse_of_derives {source : String} {tree : Program} (short : Short (tokenize source))
    (derives : Derives .program (tokenize source) tree []) :
    parse source = ⟨tree, [], false⟩ := by
  obtain ⟨inside, ending, same, -, -⟩ := (Cursor.ofText source.toList).exists_tokens_eq
  have whole : tokenize source = inside ++ [ending] := same
  have short : Short inside := fun token member =>
    short token (whole ▸ List.mem_append_left _ member)
  rw [parse, whole]
  exact parseTokens_of_derives (derives.exists_statements whole) short ending

/-- A text is read without a problem just if the grammar derives its tokens. -/
theorem problems_eq_nil_iff_derives (source : String) (short : Short (tokenize source)) :
    (parse source).problems = [] ↔ ∃ tree, Derives .program (tokenize source) tree [] := by
  constructor
  · intro clean
    obtain ⟨inside, ending, same, kind, others⟩ := (Cursor.ofText source.toList).exists_tokens_eq
    have whole : tokenize source = inside ++ [ending] := same
    rw [parse, whole] at clean
    have short : Short inside := fun token member =>
      short token (whole ▸ List.mem_append_left _ member)
    obtain ⟨statements, derives⟩ := derives_of_parseTokens short others clean
    exact ⟨⟨statements⟩, whole ▸ .program derives kind⟩
  · intro read
    obtain ⟨tree, derives⟩ := read
    rw [parse_of_derives short derives]

/-- A slice may leave out both of its bounds, and a statement its semicolon. -/
theorem problems_slice_without_bounds :
    Short (tokenize "x[:]") ∧ (parse "x[:]").problems = [] := by
  have tokens : tokenize "x[:]" = [⟨.ident, "x", ⟨1, 1⟩⟩, ⟨.leftBracket, "[", ⟨1, 2⟩⟩,
      ⟨.colon, ":", ⟨1, 3⟩⟩, ⟨.rightBracket, "]", ⟨1, 4⟩⟩] ++ [⟨.eof, "", ⟨1, 5⟩⟩] := by cbv
  have short : Short (tokenize "x[:]") := by simp [tokens, Short]
  have chain : ∃ tree, Derives (.expression .chain) [⟨.ident, "x", ⟨1, 1⟩⟩,
      ⟨.leftBracket, "[", ⟨1, 2⟩⟩, ⟨.colon, ":", ⟨1, 3⟩⟩, ⟨.rightBracket, "]", ⟨1, 4⟩⟩] tree [] :=
    ⟨_, .slice (.identifier rfl) rfl .noBound rfl .noBound rfl⟩
  have derives : ∃ tree, Derives .program (tokenize "x[:]") tree [] := by
    obtain ⟨tree, chain⟩ := chain
    have whole := chain.loosen (show Level.equality.ceiling ≤ Level.chain.ceiling by decide)
    rw [tokens]
    exact ⟨_, .program (.moreStatements (.expression whole (.without (by decide))) .noStatements)
      rfl⟩
  exact ⟨short, (problems_eq_nil_iff_derives "x[:]" short).mpr derives⟩

end Monkey

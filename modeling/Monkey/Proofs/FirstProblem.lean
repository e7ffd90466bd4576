import Monkey.Proofs.Positions
import Monkey.Proofs.Reading.Failure
import Monkey.Proofs.Reading.Places
import Monkey.Proofs.Recognition

/-!
The first problem of a text is exact. It names the place of one token. The tokens before it are the
beginning of a program, and with it they are not: whatever comes after, the first problem is the
same.
-/

namespace Monkey

/-- Where places only go forward, no two tokens share one. -/
theorem position_ne_of_pairwise {before after : List Token} {token : Token}
    (ordered : (before ++ token :: after).Pairwise fun first second =>
      first.position.Before second.position) :
    ∀ other ∈ before ++ after, other.position ≠ token.position := by
  obtain ⟨-, later, earlier⟩ := List.pairwise_append.mp ordered
  intro other member
  rcases List.mem_append.mp member with member | member
  · exact (earlier other member token List.mem_cons_self).ne
  · exact ((List.pairwise_cons.mp later).1 other member).ne.symm

/-- A row of tokens is split in one way only at a token with a place of its own. -/
theorem eq_of_split_eq {before before' after after' : List Token} {token token' : Token}
    (same : before ++ token :: after = before' ++ token' :: after')
    (alone : ∀ other ∈ before ++ after, other.position ≠ token.position)
    (place : token'.position = token.position) :
    before = before' ∧ token = token' ∧ after = after' := by
  rcases List.append_eq_append_iff.mp same with ⟨more, rfl, rest⟩ | ⟨more, rfl, rest⟩
  · cases more with
    | nil => simpa using rest
    | cons first more =>
      obtain ⟨-, rfl⟩ := List.cons.inj rest
      exact absurd place (alone token' (by simp))
  · cases more with
    | nil => simpa [eq_comm] using rest
    | cons first more =>
      obtain ⟨rfl, -⟩ := List.cons.inj rest
      exact absurd place (alone token' (by simp))

theorem Problem.getLast?_of_alike {first second : List Problem} {problem : Problem}
    (alike : List.Forall₂ Problem.Alike first second) (last : first.getLast? = some problem) :
    ∃ place, second.getLast? = some (problem.moved place) := by
  rw [← List.head?_reverse] at last ⊢
  have alike := List.forall₂_reverse_iff.mpr alike
  generalize first.reverse = first, second.reverse = second at alike last
  cases alike with
  | nil => exact nomatch last
  | @cons _ other _ _ same =>
    obtain rfl := Option.some.inj last
    exact ⟨other.place, congrArg some same⟩

theorem alike_refl (tokens : List Token) : List.Forall₂ alike tokens tokens :=
  List.forall₂_same.mpr fun _ _ => Token.agrees_iff.mpr ⟨rfl, rfl⟩

section
variable {tokens : List Token} {ending : Token} {first : Problem}

/-- Where the first problem is found does not depend on the bounds. -/
theorem exists_stopsAt (short : Short tokens) (inside : ∀ token ∈ tokens, token.kind ≠ .eof)
    (noted : (parseTokens (tokens ++ [ending])).problems.head? = some first) {count : Nat}
    (enough : tokens.length ≤ count) :
    ∃ left, Begins .statements tokens left ∧
      Reading.StopsAt (Reading.text count) left ⟨tokens, ending.position, [], false⟩ first := by
  rw [parseTokens_eq_text enough ending, List.head?_reverse] at noted
  have wrong : (Reading.text count ⟨tokens, ending.position, [], false⟩).2.problems ≠ [] := by
    intro clean
    rw [clean] at noted
    exact nomatch noted
  obtain ⟨left, problem, begins, stops⟩ :=
    Reading.fails_text enough short inside ⟨tokens, ending.position, [], false⟩ rfl rfl wrong
  obtain rfl : problem = first := Option.some.inj (stops.first.symm.trans noted)
  exact ⟨left, begins, stops⟩

/-- The place tells at which token reading went wrong. -/
theorem Reading.StopsAt.left_eq {α : Type} {reader : Reading α}
    {before left after : List Token} {token : Token}
    (stops : StopsAt reader left ⟨before ++ token :: after, ending.position, [], false⟩ first)
    (place : first.place = token.position)
    (alone : ∀ other ∈ before ++ (after ++ [ending]), other.position ≠ token.position) :
    left = token :: after := by
  have found := stops.place.symm.trans place
  cases left with
  | nil => exact absurd found (alone ending (by simp))
  | cons token' after' =>
    obtain ⟨used, same⟩ := stops.suffix
    have alone (other : Token) (member : other ∈ before ++ after) :
        other.position ≠ token.position := by
      refine alone other ?_
      rcases List.mem_append.mp member with member | member <;> simp [member]
    obtain ⟨-, rfl, rfl⟩ := eq_of_split_eq same.symm alone found
    rfl

/-- The first problem comes again in every row that begins with the same tokens, however they are
placed. -/
theorem head?_of_start {before after start rest : List Token} {token ending' : Token}
    (short : Short (before ++ token :: after))
    (inside : ∀ other ∈ before ++ token :: after, other.kind ≠ .eof)
    (noted : (parseTokens (before ++ token :: after ++ [ending])).problems.head? = some first)
    (place : first.place = token.position)
    (alone : ∀ other ∈ before ++ (after ++ [ending]), other.position ≠ token.position)
    (alike : List.Forall₂ alike (before ++ [token]) start) :
    ∃ place, (parseTokens (start ++ rest ++ [ending'])).problems.head? =
      some (first.moved place) := by
  -- Both rows can be read under one bound.
  obtain ⟨count, enough, enough'⟩ : ∃ count, (before ++ token :: after).length ≤ count ∧
      (start ++ rest).length ≤ count := ⟨_, Nat.le_add_right _ _, Nat.le_add_left _ _⟩
  obtain ⟨left, -, stops⟩ := exists_stopsAt short inside noted enough
  -- First the tokens after the wrong one are exchanged, then the places.
  have again := stops.early token after rest ⟨before ++ token :: rest, ending'.position, [], false⟩
    (stops.left_eq place alone) ⟨before, rfl, rfl, rfl⟩
  have rows : List.Forall₂ Placed.alike (before ++ token :: rest) (start ++ rest) := by
    simpa using List.rel_append alike (alike_refl rest)
  obtain ⟨-, later⟩ := @Reading.unplaced_text (fun _ _ => True) count
    ⟨before ++ token :: rest, ending'.position, [], false⟩
    ⟨start ++ rest, ending'.position, [], false⟩
    ⟨rows.imp fun _ _ same => ⟨same, trivial⟩, trivial, .nil, rfl⟩
  rw [parseTokens_eq_text enough' ending', List.head?_reverse]
  exact Problem.getLast?_of_alike (later.problems.imp fun _ _ same => same.1) again

/-- What begins a program can be completed to one. -/
theorem Begins.exists_parseTokens {left : List Token} (begins : Begins .statements tokens left)
    (short : Short tokens) : ∃ (used : List Token) (kinds : List TokenKind),
      tokens = used ++ left ∧ ∀ ending', ∃ program,
        parseTokens (used ++ kinds.map Token.sample ++ [ending']) = ⟨program, [], false⟩ := by
  obtain ⟨used, kinds, rfl, trees, derives⟩ := begins
  refine ⟨used, kinds, rfl, fun ending' => ⟨⟨trees⟩, parseTokens_of_derives derives ?_ ending'⟩⟩
  intro token member kind
  rcases List.mem_append.mp member with member | member
  · exact short token (List.mem_append_left _ member) kind
  · obtain ⟨other, -, rfl⟩ := List.mem_map.mp member
    have same : other = .int := kind
    rw [same]
    decide

end

/-- The first problem of a text names the place of one of its tokens. The tokens before that one can
be carried on to a program. With it they cannot: in every row of tokens that begins with them, it
and those before it, the first problem is told in the same words. -/
theorem first_problem_is_exact (source : String) (short : Short (tokenize source)) (first : Problem)
    (noted : (parse source).problems.head? = some first) :
    ∃ before token after, tokenize source = before ++ token :: after ∧
      token.position = first.place ∧
      (∀ other ∈ before ++ after, other.position ≠ first.place) ∧
      (∃ kinds : List TokenKind, ∀ ending, ∃ program,
        parseTokens (before ++ kinds.map Token.sample ++ [ending]) = ⟨program, [], false⟩) ∧
      ∃ words, first.message = words ++ first.place.text ∧
        (token.kind ≠ .eof → ∀ start rest ending, List.Forall₂ alike (before ++ [token]) start →
          ∃ other, (parseTokens (start ++ rest ++ [ending])).problems.head? = some other ∧
            other.message = words ++ other.place.text) := by
  obtain ⟨tokens, ending, whole, kind, inside⟩ := (Cursor.ofText source.toList).exists_tokens_eq
  have whole : tokenize source = tokens ++ [ending] := whole
  have short : Short tokens := fun token member =>
    short token (whole ▸ List.mem_append_left _ member)
  have ordered := tokenize_pairwise source
  rw [whole] at ordered
  rw [parse, whole] at noted
  obtain ⟨left, begins, stops⟩ := exists_stopsAt short inside noted (Nat.le_refl _)
  obtain ⟨before, kinds, split, complete⟩ := begins.exists_parseTokens short
  obtain ⟨words, told⟩ := first.exists_message_moved
  have message : first.message = words ++ first.place.text := by
    rw [← told first.place]
    cases first <;> rfl
  cases left with
  | nil =>
    have place : first.place = ending.position := stops.place
    have alone : ∀ other ∈ before ++ [], other.position ≠ ending.position := by
      rw [split, List.append_nil] at ordered
      exact position_ne_of_pairwise ordered
    refine ⟨before, ending, [], ?_, place.symm, place ▸ alone, ⟨kinds, complete⟩, words,
      message, fun inside => absurd kind inside⟩
    rw [whole, split, List.append_nil]
  | cons token after =>
    subst split
    have place : first.place = token.position := stops.place
    have alone : ∀ other ∈ before ++ (after ++ [ending]), other.position ≠ token.position := by
      rw [List.append_assoc, List.cons_append] at ordered
      exact position_ne_of_pairwise ordered
    refine ⟨before, token, after ++ [ending], ?_, place.symm, place ▸ alone, ⟨kinds, complete⟩,
      words, message, ?_⟩
    · rw [whole, List.append_assoc, List.cons_append]
    · intro _ start rest ending' alike
      obtain ⟨found, again⟩ := head?_of_start short inside noted place alone alike
      refine ⟨first.moved found, again, ?_⟩
      have moved : (first.moved found).place = found := by cases first <;> rfl
      rw [told found, moved]

/-- A number is no name: the text goes wrong there and not at the end of the statement. -/
theorem first_problem_of_let_number : Short (tokenize "let 5 = 3;") ∧
    (parse "let 5 = 3;").problems.head? = some (.unexpected .ident .int ⟨1, 5⟩) ∧
    ∃ words, (Problem.unexpected .ident .int ⟨1, 5⟩).message = words ++ "1:5" ∧
      ∀ rest ending, ∃ other,
        (parseTokens ([⟨.letKeyword, "let", ⟨1, 1⟩⟩, ⟨.int, "5", ⟨1, 5⟩⟩] ++ rest ++
          [ending])).problems.head? = some other ∧ other.message = words ++ other.place.text := by
  have tokens : tokenize "let 5 = 3;" = [⟨.letKeyword, "let", ⟨1, 1⟩⟩, ⟨.int, "5", ⟨1, 5⟩⟩,
      ⟨.assign, "=", ⟨1, 7⟩⟩, ⟨.int, "3", ⟨1, 9⟩⟩, ⟨.semicolon, ";", ⟨1, 10⟩⟩,
      ⟨.eof, "", ⟨1, 11⟩⟩] := by cbv
  have short : Short (tokenize "let 5 = 3;") := by
    simp +decide [tokens, Short]
  have noted : (parse "let 5 = 3;").problems.head? = some (.unexpected .ident .int ⟨1, 5⟩) := by
    cbv
  obtain ⟨before, token, after, split, place, alone, -, words, told, goesOn⟩ :=
    first_problem_is_exact "let 5 = 3;" short _ noted
  have parted : before ++ token :: after = [⟨.letKeyword, "let", ⟨1, 1⟩⟩] ++ ⟨.int, "5", ⟨1, 5⟩⟩ ::
      [⟨.assign, "=", ⟨1, 7⟩⟩, ⟨.int, "3", ⟨1, 9⟩⟩, ⟨.semicolon, ";", ⟨1, 10⟩⟩,
        ⟨.eof, "", ⟨1, 11⟩⟩] := split.symm.trans tokens
  obtain ⟨rfl, rfl, -⟩ := eq_of_split_eq parted (place ▸ alone) place.symm
  exact ⟨short, noted, words, told, fun rest ending =>
    goesOn (by decide) _ rest ending (alike_refl _)⟩

end Monkey

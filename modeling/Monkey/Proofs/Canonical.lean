import Monkey.Proofs.Agreement
import Monkey.Proofs.Grouping
import Monkey.Proofs.Respelling

/-!
The canonical form is read back as what it was written from. Strings, conditionals and functions
are left out here: their canonical forms lose quotes and semicolons. Of all other trees the form
keeps every token that counts and adds parentheses, which do no harm.
-/

namespace Monkey

open Text

/-! Trees whose canonical form loses nothing. -/

mutual

/-- Names, numbers, truth values, and what operators and brackets make of them. -/
def Expr.isPlain : Expr → Bool
  | .identifier _ | .integer _ _ | .boolean _ _ => true
  | .unary _ _ right => right.isPlain
  | .binary _ left _ right => left.isPlain && right.isPlain
  | .call _ callee arguments => callee.isPlain && Expr.allPlain arguments
  | .array _ elements => Expr.allPlain elements
  | .hash _ pairs => Expr.pairsPlain pairs
  | .index _ left position => left.isPlain && position.isPlain
  | .slice _ left lower upper => left.isPlain && Expr.boundPlain lower && Expr.boundPlain upper
  | .string _ _ | .conditional _ _ _ _ | .function _ _ _ | .unknown => false

def Expr.boundPlain : Option Expr → Bool
  | none => true
  | some bound => bound.isPlain

def Expr.allPlain : List Expr → Bool
  | [] => true
  | expr :: rest => expr.isPlain && Expr.allPlain rest

def Expr.pairsPlain : List (Expr × Expr) → Bool
  | [] => true
  | (key, value) :: rest => key.isPlain && value.isPlain && Expr.pairsPlain rest

end

/-- Statements that end in a semicolon when they are written out. -/
def Statement.isPlain : Statement → Bool
  | .binding _ _ value | .giveBack _ value => Expr.boundPlain value
  | .expression _ _ | .block _ => false

def Program.isPlain (program : Program) : Bool := program.statements.all Statement.isPlain

/-- The text is read as these tokens before anything that may follow it. -/
structure Shown (follows : List Char → Prop) (text : String) (tokens : List Token) : Prop where
  spells : ∀ rest, follows rest → Spells text.toList tokens rest
  begins : Unequal text.toList

/-- Tokens that some texts have, with numbers that are not too long. -/
def Fit (tokens : List Token) : Prop :=
  ∀ token ∈ tokens, token.Occurs ∧ (token.kind = .int → token.literal.length ≤ maxDigits)

theorem Fit.suffix {tokens rest : List Token} (fit : Fit tokens) (suffix : rest <:+ tokens) :
    Fit rest := fun token member => fit token (suffix.subset member)

/-- The tree has a canonical form, and that is one of the ways to write the tree out. -/
def Phrase.Restated : (phrase : Phrase) → phrase.Tree → Prop
  | expression _, tree => tree.isPlain = true → ∃ tokens,
      (∀ place, Written keepsFirst (.placed place) tree tokens) ∧ Shown Stops tree.render tokens
  | row, trees => Expr.allPlain trees = true → ∃ tokens,
      Written keepsFirst .row trees tokens ∧ Shown Stops (joined ", " (Expr.renderAll trees)) tokens
  | items, trees => Expr.allPlain trees = true → ∃ tokens,
      Written keepsFirst .items trees tokens ∧
        Shown Stops (joined ", " (Expr.renderAll trees)) tokens
  | pairs, trees => Expr.pairsPlain trees = true → ∃ tokens,
      Written keepsFirst .pairs trees tokens ∧
        Shown Stops (joined ", " (Expr.renderPairs trees)) tokens
  | bound, tree => Expr.boundPlain tree = true → ∃ tokens,
      Written keepsFirst .bound tree tokens ∧ Shown Stops (Expr.renderBound tree) tokens
  | statement, tree => tree.isPlain = true → ∃ tokens,
      Written keepsFirst .statement tree tokens ∧ Shown Unequal tree.render tokens
  | statements, trees => trees.all Statement.isPlain = true → ∃ tokens,
      Written keepsFirst .statements trees tokens ∧ Shown Unequal (Statement.renderAll trees) tokens
  | _, _ => True

/-- The signs that are no operators. -/
def delimiters : List TokenKind :=
  [.comma, .semicolon, .colon, .leftParen, .rightParen, .leftBrace, .rightBrace, .leftBracket,
    .rightBracket]

theorem unequal_name {kind : TokenKind} (listed : kind ∈ delimiters) :
    Unequal kind.name.toList := by
  revert kind
  decide

theorem stops_name {kind : TokenKind} (listed : kind ∈ delimiters) (rest : List Char) :
    Stops (kind.name.toList ++ rest) := by
  have begins : ∀ kind ∈ delimiters, kind.name.toList ≠ [] ∧
      kind.name.toList.head?.all (fun c => !isLetter c && !isDigit c && c != '=') = true := by
    decide
  obtain ⟨some, stops⟩ := begins kind listed
  intro c first
  rw [List.head?_append_of_ne_nil _ some] at first
  rw [Option.mem_def.mp first] at stops
  simpa [and_assoc] using stops

namespace Shown

variable {follows : List Char → Prop} {text text' : String} {tokens tokens' : List Token}
variable {token : Token}

theorem loosen (shown : Shown Unequal text tokens) : Shown Stops text tokens :=
  ⟨fun rest stops => shown.spells rest stops.unequal, shown.begins⟩

theorem empty : Shown Stops "" [] := ⟨fun _ _ => .nil, by decide⟩

theorem word (occurs : token.Occurs) (other : token.kind ∉ [.string, .assign, .equal]) :
    Shown Stops token.literal [token] where
  spells _ stops := .of_occurs occurs (fun same => other (by simp [same])) stops
  begins := occurs.unequal other

theorem symbol (occurs : token.Occurs) (listed : token.kind ∈ TokenKind.symbols)
    (other : token.kind ∉ [.string, .assign, .equal]) : Shown Unequal token.literal [token] where
  spells _ unequal := .of_genuine occurs.genuine listed unequal
  begins := occurs.unequal other

theorem mark (kind : TokenKind) (listed : kind ∈ delimiters) :
    Shown Unequal kind.name [.sign kind] where
  spells _ unequal := by
    have symbol : delimiters ⊆ TokenKind.symbols := by decide
    exact .sign (symbol listed) unequal
  begins := unequal_name listed

theorem andThen (first : Shown Unequal text tokens) (second : Shown follows text' tokens')
    (unequal : ∀ rest, follows rest → Unequal rest) :
    Shown follows (text ++ text') (tokens ++ tokens') where
  spells rest after := by
    rw [String.toList_append]
    exact (first.spells _ (second.begins.append (unequal rest after))).append
      (second.spells rest after)
  begins := by
    rw [String.toList_append]
    exact first.begins.append second.begins

theorem cons (first : Shown Unequal text tokens) (second : Shown Stops text' tokens') :
    Shown Stops (text ++ text') (tokens ++ tokens') := first.andThen second fun _ => Stops.unequal

/-- A delimiter stops whatever is before it. -/
theorem delimited (first : Shown Stops text tokens) (kind : TokenKind)
    (listed : kind ∈ delimiters) :
    Shown Unequal (text ++ kind.name) (tokens ++ [.sign kind]) where
  spells rest unequal := by
    rw [String.toList_append]
    exact (first.spells _ (stops_name listed rest)).append ((mark kind listed).spells rest unequal)
  begins := by
    rw [String.toList_append]
    exact first.begins.append (unequal_name listed)

/-- Between two delimiters. -/
theorem enclosed (shown : Shown Stops text tokens) (opening closing : TokenKind)
    (opens : opening ∈ delimiters) (closes : closing ∈ delimiters) :
    Shown Unequal (opening.name ++ text ++ closing.name)
      (.sign opening :: tokens ++ [.sign closing]) :=
  ((mark opening opens).cons shown).delimited closing closes

theorem spells_blank (first : Shown Stops text tokens) (rest : List Char) :
    Spells (text ++ " ").toList tokens rest := by
  have stops : Stops (' ' :: rest) := by
    rintro _ ⟨⟩
    decide
  have read := (first.spells _ stops).append Spells.space
  rw [List.append_nil] at read
  rwa [String.toList_append]

theorem blank (first : Shown Stops text tokens) : Shown Unequal (text ++ " ") tokens where
  spells rest _ := first.spells_blank rest
  begins := by
    rw [String.toList_append]
    exact first.begins.append (by decide)

theorem separated (first : Shown Stops text tokens) :
    Shown Unequal (text ++ ", ") (tokens ++ [.sign .comma]) := by
  have read := (first.delimited .comma (by decide)).loosen.blank
  rwa [String.append_assoc] at read

/-- An operator between blanks. -/
theorem joint (first : Shown Stops text tokens) (genuine : token.Genuine)
    (listed : token.kind ∈ TokenKind.symbols) :
    Shown Unequal (text ++ (" " ++ token.literal ++ " ")) (tokens ++ [token]) where
  spells rest _ := by
    have free : Unequal (' ' :: rest) := by simp [Unequal]
    have sign := (Spells.of_genuine genuine listed free).append .space
    rw [List.append_nil] at sign
    have read := (first.spells_blank (token.literal.toList ++ [' '] ++ rest)).append sign
    simpa [String.append_assoc] using read
  begins := by
    rw [String.toList_append]
    exact first.begins.append (by simp [Unequal])

end Shown

theorem mem_joining {level : Level} {kind : TokenKind} (joins : kind ∈ level.operators) :
    kind ∈ joining := by
  cases level <;> revert joins <;> revert kind <;> decide

theorem joined_cons {separator part : String} {parts : List String} (some : parts ≠ []) :
    joined separator (part :: parts) = part ++ separator ++ joined separator parts := by
  cases parts with
  | nil => exact absurd rfl some
  | cons => rfl

theorem Written.grouped_bare {place : Place} {tree : Expr} {tokens : List Token}
    (inner : Written keepsFirst .bare tree tokens) :
    Written keepsFirst (.placed place) tree
      (.sign .leftParen :: tokens ++ [.sign .rightParen]) :=
  .grouped rfl rfl (.plain (by cases tree <;> rfl) inner)

/-- A sign is as good as any token of its kind. -/
theorem Token.Genuine.sign_agrees {token : Token} {kind : TokenKind} (genuine : token.Genuine)
    (same : token.kind = kind) (listed : kind ∈ TokenKind.symbols) :
    (Token.sign kind).agrees token = true := by
  subst same
  exact agrees_iff.mpr ⟨rfl, (genuine listed).symm⟩

theorem Derives.items_ne_nil {tokens rest : List Token} {trees : List Expr}
    (derives : Derives .items tokens trees rest) : Expr.renderAll trees ≠ [] := by
  cases derives <;> simp [Expr.renderAll]

section
variable {tree : Expr} {tokens rest : List Token} {token : Token} {text : String}

/-- A tree that is a single word. -/
theorem restated_word (fit : Fit (token :: rest)) (other : token.kind ∉ [.string, .assign, .equal])
    (bare : Written keepsFirst .bare tree [token])
    (alone : ∀ place : Place, place.groups tree = false)
    (render : tree.render = token.literal) : Phrase.Restated (.expression .chain) tree := by
  obtain ⟨⟨occurs, -⟩, -⟩ := List.forall_mem_cons.mp fit
  exact fun _ => ⟨[token], fun place => .plain (alone place) bare, render ▸ .word occurs other⟩

/-- A tree that is written in parentheses. They do no harm where they are not needed. -/
theorem exists_of_grouped (bare : Written keepsFirst .bare tree tokens)
    (shown : Shown Stops text tokens) (render : tree.render = "(" ++ text ++ ")") :
    ∃ tokens, (∀ place, Written keepsFirst (.placed place) tree tokens) ∧
      Shown Stops tree.render tokens := by
  refine ⟨_, fun place => bare.grouped_bare, ?_⟩
  rw [render]
  exact (shown.enclosed .leftParen .rightParen (by decide) (by decide)).loosen

end

/-- The tree of a phrase is written out again by its canonical form. By induction on the derivation,
so the tokens that the tree keeps are those of the text. -/
theorem Derives.restated {phrase : Phrase} {tokens rest : List Token} {tree : phrase.Tree}
    (derives : Derives phrase tokens tree rest) (fit : Fit tokens) : phrase.Restated tree := by
  induction derives with
  | tighter _ ih => exact ih fit
  | @binary level _ _ _ operator left right first joins _ ih ih' =>
    intro plain
    simp only [Expr.isPlain, Bool.and_eq_true] at plain
    obtain ⟨⟨occurs, -⟩, after⟩ := List.forall_mem_cons.mp (fit.suffix first.suffix)
    obtain ⟨before, written, shown⟩ := ih fit plain.1
    obtain ⟨later, written', shown'⟩ := ih' after plain.2
    have symbol : joining ⊆ TokenKind.symbols := by decide
    have whole := (shown.joint occurs.genuine (symbol (mem_joining joins))).cons shown'
    rw [List.append_assoc] at whole
    have bare := Written.binary (mem_joining joins) operator.agrees_self (written (.left operator))
      (written' (.right operator))
    exact exists_of_grouped bare whole (by
      simp [Expr.render, Operator.text_ofText, String.append_assoc])
  | @unary _ _ operator right sign _ ih =>
    intro plain
    obtain ⟨⟨occurs, -⟩, after⟩ := List.forall_mem_cons.mp fit
    obtain ⟨tokens, written, shown⟩ := ih after plain
    have listed : operator.kind ∈ TokenKind.symbols := by
      rcases sign with same | same <;> simp [same, TokenKind.symbols]
    have other : operator.kind ∉ [.string, .assign, .equal] := by
      rcases sign with same | same <;> simp [same]
    have whole := (Shown.symbol occurs listed other).cons shown
    have bare := Written.unary sign operator.agrees_self (written .signed)
    exact exists_of_grouped bare whole (by
      simp [Expr.render, Operator.text_ofText, String.append_assoc])
  | @call _ _ _ opening closing callee arguments first opens second closes ih ih' =>
    intro plain
    simp only [Expr.isPlain, Bool.and_eq_true] at plain
    obtain ⟨⟨occurs, -⟩, after⟩ := List.forall_mem_cons.mp (fit.suffix first.suffix)
    obtain ⟨before, written, shown⟩ := ih fit plain.1
    obtain ⟨row, written', shown'⟩ := ih' after plain.2
    have whole := ((shown.delimited .leftParen (by decide)).cons shown').delimited .rightParen
      (by decide)
    have same := occurs.genuine.sign_agrees opens (by decide)
    have bare := @Written.call keepsFirst _ (.sign .leftParen) (.sign .rightParen) _ _ _ _ rfl same
      rfl (written .head) written'
    refine ⟨_, fun place => .plain (by cases place <;> rfl) bare, ?_⟩
    simpa [Expr.render, String.append_assoc, TokenKind.name] using whole.loosen
  | index first opens second closes ih ih' =>
    intro plain
    simp only [Expr.isPlain, Bool.and_eq_true] at plain
    obtain ⟨⟨occurs, -⟩, after⟩ := List.forall_mem_cons.mp (fit.suffix first.suffix)
    obtain ⟨before, written, shown⟩ := ih fit plain.1
    obtain ⟨inside, written', shown'⟩ := ih' after plain.2
    have whole := ((shown.delimited .leftBracket (by decide)).cons shown').delimited .rightBracket
      (by decide)
    have same := occurs.genuine.sign_agrees opens (by decide)
    have bare := @Written.index keepsFirst _ (.sign .leftBracket) (.sign .rightBracket) _ _ _ _ rfl
      same rfl (written .head) (written' .alone)
    rw [List.append_assoc before] at whole
    exact exists_of_grouped bare whole.loosen (by
      simp [Expr.render, String.append_assoc, TokenKind.name])
  | slice first opens second divides third closes ih ih' ih'' =>
    intro plain
    simp only [Expr.isPlain, Bool.and_eq_true] at plain
    obtain ⟨⟨plain, plain'⟩, plain''⟩ := plain
    obtain ⟨⟨occurs, -⟩, after⟩ := List.forall_mem_cons.mp (fit.suffix first.suffix)
    have last := Fit.suffix (Fit.suffix after second.suffix) (List.suffix_cons _ _)
    obtain ⟨before, written, shown⟩ := ih fit plain
    obtain ⟨lower, written', shown'⟩ := ih' after plain'
    obtain ⟨upper, written'', shown''⟩ := ih'' last plain''
    have whole := ((((shown.delimited .leftBracket (by decide)).cons shown').delimited .colon
      (by decide)).cons shown'').delimited .rightBracket (by decide)
    have same := occurs.genuine.sign_agrees opens (by decide)
    have bare := @Written.slice keepsFirst _ (.sign .leftBracket) (.sign .colon)
      (.sign .rightBracket) _ _ _ _ _ _ rfl same rfl rfl (written .head) written' written''
    rw [List.append_assoc before, List.append_assoc (before ++ _)] at whole
    exact exists_of_grouped bare whole.loosen (by
      simp [Expr.render, String.append_assoc, TokenKind.name])
  | identifier kind =>
    exact restated_word fit (by simp [kind]) (.identifier kind (Token.agrees_self _))
      (fun place => by cases place <;> rfl) rfl
  | integer kind fits =>
    have short := (List.forall_mem_cons.mp fit).1.2 kind
    exact restated_word fit (by simp [kind]) (.integer kind (Token.agrees_self _) fits short)
      (fun place => by cases place <;> rfl) rfl
  | truth kind =>
    exact restated_word fit (by simp [kind]) (.truth kind (Token.agrees_self _))
      (fun place => by cases place <;> rfl) rfl
  | falsehood kind =>
    exact restated_word fit (by simp [kind]) (.falsehood kind (Token.agrees_self _))
      (fun place => by cases place <;> rfl) rfl
  | group _ _ _ ih => exact ih (fit.suffix (List.suffix_cons _ _))
  | array opens _ closes ih =>
    intro plain
    obtain ⟨⟨occurs, -⟩, after⟩ := List.forall_mem_cons.mp fit
    obtain ⟨row, written, shown⟩ := ih after (by simpa only [Expr.isPlain] using plain)
    have whole := shown.enclosed .leftBracket .rightBracket (by decide) (by decide)
    have same := occurs.genuine.sign_agrees opens (by decide)
    have bare := @Written.array keepsFirst _ (.sign .leftBracket) (.sign .rightBracket) _ _ rfl same
      rfl written
    refine ⟨_, fun place => .plain (by cases place <;> rfl) bare, ?_⟩
    simpa [Expr.render, String.append_assoc, TokenKind.name] using whole.loosen
  | hash opens _ closes ih =>
    intro plain
    obtain ⟨⟨occurs, -⟩, after⟩ := List.forall_mem_cons.mp fit
    obtain ⟨row, written, shown⟩ := ih after (by simpa only [Expr.isPlain] using plain)
    have whole := shown.enclosed .leftBrace .rightBrace (by decide) (by decide)
    have same := occurs.genuine.sign_agrees opens (by decide)
    have bare := @Written.hash keepsFirst _ (.sign .leftBrace) (.sign .rightBrace) _ _ rfl same rfl
      written
    refine ⟨_, fun place => .plain (by cases place <;> rfl) bare, ?_⟩
    simpa [Expr.render, String.append_assoc, TokenKind.name] using whole.loosen
  | string | conditional | function =>
    intro impossible
    cases impossible
  | noItems => exact fun _ => ⟨[], .noItems, .empty⟩
  | someItems _ ih =>
    intro plain
    obtain ⟨row, written, shown⟩ := ih fit plain
    exact ⟨row, .someItems written, shown⟩
  | item _ ih =>
    intro plain
    simp only [Expr.allPlain, Bool.and_true] at plain
    obtain ⟨tokens, written, shown⟩ := ih fit plain
    exact ⟨tokens, .item (written .alone), shown⟩
  | moreItems first divides second ih ih' =>
    intro plain
    simp only [Expr.allPlain, Bool.and_eq_true] at plain
    have after := (fit.suffix first.suffix).suffix (List.suffix_cons _ _)
    obtain ⟨tokens, written, shown⟩ := ih fit plain.1
    obtain ⟨others, written', shown'⟩ := ih' after plain.2
    refine ⟨_, @Written.moreItems keepsFirst (.sign .comma) _ _ _ _ rfl (written .alone) written',
      ?_⟩
    have some : Expr.renderAll _ ≠ [] := second.items_ne_nil
    simpa [Expr.renderAll, joined_cons some, String.append_assoc] using shown.separated.cons shown'
  | noPairs => exact fun _ => ⟨[], .noPairs, .empty⟩
  | pair first divides second ih ih' =>
    intro plain
    simp only [Expr.pairsPlain, Bool.and_eq_true, Bool.and_true] at plain
    have after := (fit.suffix first.suffix).suffix (List.suffix_cons _ _)
    obtain ⟨tokens, written, shown⟩ := ih fit plain.1
    obtain ⟨later, written', shown'⟩ := ih' after plain.2
    refine ⟨_, @Written.pair keepsFirst (.sign .colon) _ _ _ _ rfl (written .alone)
      (written' .alone), ?_⟩
    simpa [Expr.renderPairs, joined, String.append_assoc, TokenKind.name] using
      (shown.delimited .colon (by decide)).cons shown'
  | @morePairs _ _ _ _ _ _ _ _ list first divides second separates third ih ih' ih'' =>
    intro plain
    simp only [Expr.pairsPlain, Bool.and_eq_true] at plain
    have after := (fit.suffix first.suffix).suffix (List.suffix_cons _ _)
    have last := (after.suffix second.suffix).suffix (List.suffix_cons _ _)
    obtain ⟨tokens, written, shown⟩ := ih fit plain.1.1
    obtain ⟨later, written', shown'⟩ := ih' after plain.1.2
    obtain ⟨others, written'', shown''⟩ := ih'' last plain.2
    have entry := (shown.delimited .colon (by decide)).cons shown'
    -- A comma after the last pair is not written again.
    cases list with
    | nil =>
      refine ⟨_, @Written.pair keepsFirst (.sign .colon) _ _ _ _ rfl (written .alone)
        (written' .alone), ?_⟩
      simpa [Expr.renderPairs, joined, String.append_assoc, TokenKind.name] using entry
    | cons next list =>
      refine ⟨_, @Written.morePairs keepsFirst (.sign .colon) (.sign .comma) _ _ _ _ _ _ _ rfl rfl
        (written .alone) (written' .alone) written'', ?_⟩
      simpa [Expr.renderPairs, joined, String.append_assoc, TokenKind.name] using
        entry.separated.cons shown''
  | noBound => exact fun _ => ⟨[], .noBound, .empty⟩
  | someBound _ ih =>
    intro plain
    obtain ⟨tokens, written, shown⟩ := ih fit (by simpa only [Expr.boundPlain] using plain)
    exact ⟨tokens, .someBound (written .alone), by simpa only [Expr.renderBound] using shown⟩
  | @binding _ _ assign _ _ _ _ kind named assigns _ _ ih =>
    intro plain
    obtain ⟨⟨occurs, -⟩, ⟨occurs', -⟩, ⟨occurs'', -⟩, after⟩ := by
      simpa only [Fit, List.forall_mem_cons] using fit
    obtain ⟨tokens, written, shown⟩ := ih after
      (by simpa only [Statement.isPlain, Expr.boundPlain] using plain)
    have word := (Shown.word occurs (by simp [kind])).blank
    have name := Shown.word occurs' (by simp [named])
    have listed : assign.kind ∈ TokenKind.symbols := by simp [assigns, TokenKind.symbols]
    have sign := occurs''.genuine listed
    have whole := (((word.cons name).joint occurs''.genuine listed).cons shown).delimited .semicolon
      (by decide)
    refine ⟨_, @Written.binding keepsFirst _ _ _ _ _ (.sign .semicolon) _ _ kind
      (Token.agrees_self _) named (Token.agrees_self _) assigns rfl (written .alone), ?_⟩
    simpa [Statement.render, Identifier.render, Expr.renderBound, String.append_assoc,
      TokenKind.name, sign, assigns] using whole
  | giveBack kind _ _ ih =>
    intro plain
    obtain ⟨⟨occurs, -⟩, after⟩ := List.forall_mem_cons.mp fit
    obtain ⟨tokens, written, shown⟩ := ih after
      (by simpa only [Statement.isPlain, Expr.boundPlain] using plain)
    have word := Shown.word occurs (by simp [kind])
    have whole := (word.blank.cons shown).delimited .semicolon (by decide)
    refine ⟨_, @Written.giveBack keepsFirst _ _ (.sign .semicolon) _ _ kind (Token.agrees_self _)
      rfl (written .alone), ?_⟩
    simpa [Statement.render, String.append_assoc, TokenKind.name] using whole
  | giveBackNothing kind =>
    intro _
    obtain ⟨⟨occurs, -⟩, -⟩ := List.forall_mem_cons.mp fit
    refine ⟨_, @Written.giveBackNothing keepsFirst _ _ (.sign .semicolon) kind
      (Token.agrees_self _) rfl, ?_⟩
    simpa [Statement.render, TokenKind.name] using
      (Shown.word occurs (by simp [kind])).delimited .semicolon (by decide)
  | expression =>
    intro impossible
    cases impossible
  | noStatements => exact fun _ => ⟨[], .noStatements, ⟨fun _ _ => .nil, by decide⟩⟩
  | moreStatements first second ih ih' =>
    intro plain
    simp only [List.all_cons, Bool.and_eq_true] at plain
    obtain ⟨tokens, written, shown⟩ := ih fit plain.1
    obtain ⟨others, written', shown'⟩ := ih' (fit.suffix first.suffix) plain.2
    exact ⟨_, .moreStatements written written', by
      simpa only [Statement.renderAll] using shown.andThen shown' fun _ => id⟩
  | _ => trivial

/-- The tokens of a program that was read. -/
theorem fit_of_accepted {source : String} {program : Program}
    (accepted : (parse source).accepted = .ok program) : Fit (tokensIn source) ∧
      Derives .statements (tokensIn source) program.statements [] := by
  obtain ⟨short, derives⟩ := accepted_iff.mp accepted
  exact ⟨fun token member => ⟨occurs_of_mem_tokensIn member, short token member⟩, derives⟩

variable {source : String} {program : Program}

/-- The canonical form of a plain program is that program again. -/
theorem exists_accepted_render (accepted : (parse source).accepted = .ok program)
    (plain : program.isPlain = true) :
    ∃ again, (parse program.render).accepted = .ok again ∧ again.agrees program = true := by
  obtain ⟨fit, derives⟩ := fit_of_accepted accepted
  obtain ⟨tokens, written, shown⟩ := derives.restated fit plain
  obtain ⟨read, derives', fits⟩ := written.restores []
  rw [List.append_nil] at derives'
  have same := (shown.spells [] (by decide)).unplaced_tokensIn.symm
  obtain ⟨again, accepted', agree⟩ := exists_accepted written.short derives' same
  exact ⟨again, accepted', Statement.allAgree_common read agree fits⟩

/-- A text with the tokens of an expression is that expression as a statement. -/
theorem exists_accepted_expression {text : String} {tokens : List Token} {tree : Expr}
    (short : Short tokens) (derives : Derives (.expression .equality) tokens tree [])
    (same : tokens.map Token.unplaced = (tokensIn text).map Token.unplaced) :
    ∃ token tree', (parse text).accepted = .ok ⟨[.expression token (some tree')]⟩ ∧
      tree.agrees tree' = true := by
  obtain ⟨first, others, rfl⟩ :=
    List.exists_cons_of_ne_nil (List.ne_nil_of_length_pos (derives.length_lt rfl))
  have statements := Derives.moreStatements
    (.expression derives (@Ends.without (· ∉ continuing) _ (by decide))) .noStatements
  obtain ⟨⟨statements⟩, accepted, agree⟩ := exists_accepted short statements same
  obtain ⟨statement, _, rfl, agrees, nothing⟩ := Statement.allAgree_cons agree
  obtain rfl := Statement.allAgree_nil nothing
  obtain ⟨token, value, rfl, values⟩ := Statement.agrees_expression agrees
  obtain ⟨tree', rfl, trees⟩ := Expr.valuesAgree_some values
  exact ⟨token, tree', accepted, trees⟩

/-- The canonical form of a plain expression is a statement with that expression. -/
theorem exists_accepted_render_expression {token : Token} {tree : Expr}
    (accepted : (parse source).accepted = .ok program)
    (alone : program.statements = [.expression token (some tree)]) (plain : tree.isPlain = true) :
    ∃ token' tree', (parse program.render).accepted = .ok ⟨[.expression token' (some tree')]⟩ ∧
      tree'.agrees tree = true := by
  obtain ⟨fit, derives⟩ := fit_of_accepted accepted
  rw [alone] at derives
  have restated : (Phrase.expression .equality).Restated tree := by
    generalize tokensIn source = tokens at derives fit
    cases derives with
    | moreStatements first _ =>
      cases first with
      | expression inner _ => exact inner.restated fit
  obtain ⟨tokens, written, shown⟩ := restated plain
  obtain ⟨read, derives', fits⟩ := (written .alone).restores trivial []
  rw [List.append_nil] at derives'
  have render : program.render = tree.render := by
    simp [Program.render, alone, Statement.renderAll, Statement.render, Expr.renderBound]
  have same := (shown.spells [] .nil).unplaced_tokensIn.symm
  rw [← render] at same
  obtain ⟨token', tree', accepted', trees⟩ :=
    exists_accepted_expression (written .alone).short derives' same
  exact ⟨token', tree', accepted', Expr.agrees_common read trees fits⟩

/-- The canonical form of a program that consists of plain `let` and `return` statements is read
without a problem, as the same program, and no other program of this kind has the same form. For a
plain expression that stands alone as a statement it is read as one statement with this
expression. -/
theorem canonical_form_is_read_back (accepted : (parse source).accepted = .ok program) :
    (program.isPlain = true →
      (∃ again, (parse program.render).accepted = .ok again ∧ again.agrees program = true ∧
        again.render = program.render) ∧
      ∀ other program', (parse other).accepted = .ok program' → program'.isPlain = true →
        program'.render = program.render → program'.agrees program = true) ∧
    ∀ token tree, program.statements = [.expression token (some tree)] → tree.isPlain = true →
      ∃ token' tree', (parse program.render).accepted = .ok ⟨[.expression token' (some tree')]⟩ ∧
        tree'.agrees tree = true := by
  refine ⟨fun plain => ?_, fun token tree alone plain =>
    exists_accepted_render_expression accepted alone plain⟩
  obtain ⟨again, read, agree⟩ := exists_accepted_render accepted plain
  refine ⟨⟨again, read, agree, Statement.renderAll_eq _ agree⟩, fun other program' accepted' plain'
    same => ?_⟩
  obtain ⟨again', read', agree'⟩ := exists_accepted_render accepted' plain'
  rw [same, read] at read'
  obtain rfl := Except.ok.inj read'
  exact Statement.allAgree_common _ agree' agree

/-- Zeros in front, bounds that are left out and a bare `return` all come back. -/
theorem canonical_forms_with_slices :
    (∃ program, (parse
          "let a = !-b * [1, 007][:c]; return \x7bx: f(1), y: d[0][1:],\x7d; return").accepted =
        .ok program ∧ program.isPlain = true ∧ program.render =
          "let a = ((!(-b)) * ([1, 007][:c]));return \x7bx:f(1), y:((d[0])[1:])\x7d;return;" ∧
      ∃ again, (parse program.render).accepted = .ok again ∧ again.agrees program = true) ∧
    ∃ token tree, (parse "-a").accepted = .ok ⟨[.expression token (some tree)]⟩ ∧
      tree.isPlain = true ∧ ∃ token' tree',
        (parse (Program.render ⟨[.expression token (some tree)]⟩)).accepted =
          .ok ⟨[.expression token' (some tree')]⟩ ∧ tree'.agrees tree = true := by
  constructor
  · have read : (parse
          "let a = !-b * [1, 007][:c]; return \x7bx: f(1), y: d[0][1:],\x7d; return").accepted =
        .ok _ := accepted_eq_ok.mpr ⟨by cbv, by cbv, rfl⟩
    refine ⟨_, read, by cbv, by cbv, ?_⟩
    obtain ⟨⟨again, read, agree, -⟩, -⟩ := (canonical_form_is_read_back read).1 (by cbv)
    exact ⟨again, read, agree⟩
  · have read : (parse "-a").accepted = .ok ⟨[.expression ⟨.minus, "-", ⟨1, 1⟩⟩
        (some (.unary ⟨.minus, "-", ⟨1, 1⟩⟩ .minus
          (.identifier ⟨⟨.ident, "a", ⟨1, 2⟩⟩, "a"⟩)))]⟩ := by cbv
    have plain : (Expr.unary ⟨.minus, "-", ⟨1, 1⟩⟩ .minus
        (.identifier ⟨⟨.ident, "a", ⟨1, 2⟩⟩, "a"⟩)).isPlain = true := by cbv
    exact ⟨_, _, read, plain, (canonical_form_is_read_back read).2 _ _ rfl plain⟩

end Monkey

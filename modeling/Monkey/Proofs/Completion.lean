import Monkey.Proofs.Reading.Completeness

/-!
How phrases that have been begun can be completed. A phrase stays what it is whatever comes after
it, apart from statements without a semicolon; so a phrase can be put together from parts of
different rows of tokens, and what is missing of it can be filled in.
-/

namespace Monkey

namespace Phrase

/-- What may come after a phrase in place of what comes after it now. Only a statement minds: its
semicolon may be missing. -/
def Allows : Phrase → List Token → List Token → Prop
  | statement, rest, others | statements, rest, others =>
    following others = following rest ∨ following others ∈ [.rightBrace, .eof]
  | program, rest, others => others = rest
  | _, _, _ => True

end Phrase

theorem Ends.replace {allowed : TokenKind → Prop} {tokens rest : List Token}
    (ends : Ends allowed tokens rest) (brace : allowed .rightBrace) (eof : allowed .eof) :
    ∃ used, tokens = used ++ rest ∧ ∀ others, Phrase.statement.Allows rest others →
      Ends allowed (used ++ others) others := by
  cases ends with
  | @semicolon token _ kind => exact ⟨[token], rfl, fun _ _ => .semicolon kind⟩
  | without stops =>
    refine ⟨[], rfl, fun others allows => .without ?_⟩
    rw [List.nil_append]
    rcases allows with same | listed
    · rwa [same]
    · simp only [List.mem_cons, List.not_mem_nil, or_false] at listed
      rcases listed with same | same <;> rwa [same]

/-- A phrase remains one when something else comes after it. -/
theorem Derives.replace {phrase : Phrase} {tokens rest : List Token} {tree : phrase.Tree}
    (derives : Derives phrase tokens tree rest) :
    ∃ used, tokens = used ++ rest ∧ ∀ others, phrase.Allows rest others →
      Derives phrase (used ++ others) tree others := by
  induction derives with
  | identifier kind => exact ⟨[_], rfl, fun _ _ => .identifier kind⟩
  | integer kind fits => exact ⟨[_], rfl, fun _ _ => .integer kind fits⟩
  | string kind => exact ⟨[_], rfl, fun _ _ => .string kind⟩
  | truth kind => exact ⟨[_], rfl, fun _ _ => .truth kind⟩
  | falsehood kind => exact ⟨[_], rfl, fun _ _ => .falsehood kind⟩
  | name kind => exact ⟨[_], rfl, fun _ _ => .name kind⟩
  | noItems => exact ⟨[], rfl, fun _ _ => .noItems⟩
  | noPairs => exact ⟨[], rfl, fun _ _ => .noPairs⟩
  | noParameters => exact ⟨[], rfl, fun _ _ => .noParameters⟩
  | noBound => exact ⟨[], rfl, fun _ _ => .noBound⟩
  | noAlternative => exact ⟨[], rfl, fun _ _ => .noAlternative⟩
  | noStatements => exact ⟨[], rfl, fun _ _ => .noStatements⟩
  | tighter _ ih =>
    obtain ⟨used, rfl, again⟩ := ih
    exact ⟨used, rfl, fun others _ => .tighter (again others trivial)⟩
  | someItems _ ih =>
    obtain ⟨used, rfl, again⟩ := ih
    exact ⟨used, rfl, fun others _ => .someItems (again others trivial)⟩
  | item _ ih =>
    obtain ⟨used, rfl, again⟩ := ih
    exact ⟨used, rfl, fun others _ => .item (again others trivial)⟩
  | someParameters _ ih =>
    obtain ⟨used, rfl, again⟩ := ih
    exact ⟨used, rfl, fun others _ => .someParameters (again others trivial)⟩
  | someBound _ ih =>
    obtain ⟨used, rfl, again⟩ := ih
    exact ⟨used, rfl, fun others _ => .someBound (again others trivial)⟩
  | @binary _ _ _ _ operator _ _ _ joins _ first second =>
    obtain ⟨used, rfl, again⟩ := first
    obtain ⟨more, rfl, again'⟩ := second
    refine ⟨used ++ operator :: more, by simp, fun others _ => ?_⟩
    have start := again (operator :: (more ++ others)) trivial
    simpa using .binary start joins (again' others trivial)
  | unary sign _ ih =>
    obtain ⟨used, rfl, again⟩ := ih
    exact ⟨_ :: used, rfl, fun others _ => .unary sign (again others trivial)⟩
  | @call _ _ _ opening closing _ _ _ opens _ closes first second =>
    obtain ⟨used, rfl, again⟩ := first
    obtain ⟨more, rfl, again'⟩ := second
    refine ⟨used ++ opening :: more ++ [closing], by simp, fun others _ => ?_⟩
    have start := again (opening :: (more ++ closing :: others)) trivial
    simpa using .call start opens (again' (closing :: others) trivial) closes
  | @index _ _ _ opening closing _ _ _ opens _ closes first second =>
    obtain ⟨used, rfl, again⟩ := first
    obtain ⟨more, rfl, again'⟩ := second
    refine ⟨used ++ opening :: more ++ [closing], by simp, fun others _ => ?_⟩
    have start := again (opening :: (more ++ closing :: others)) trivial
    simpa using .index start opens (again' (closing :: others) trivial) closes
  | @slice _ _ _ _ opening colon closing _ _ _ _ opens _ divides _ closes first second third =>
    obtain ⟨used, rfl, again⟩ := first
    obtain ⟨more, rfl, again'⟩ := second
    obtain ⟨last, rfl, again''⟩ := third
    refine ⟨used ++ opening :: more ++ colon :: last ++ [closing], by simp, fun others _ => ?_⟩
    have start := again (opening :: (more ++ colon :: (last ++ closing :: others))) trivial
    have middle := again' (colon :: (last ++ closing :: others)) trivial
    simpa using .slice start opens middle divides (again'' (closing :: others) trivial) closes
  | @group _ _ opening closing _ opens _ closes ih =>
    obtain ⟨used, rfl, again⟩ := ih
    refine ⟨opening :: used ++ [closing], by simp, fun others _ => ?_⟩
    simpa using .group opens (again (closing :: others) trivial) closes
  | @conditional _ _ _ _ token opening closing _ _ _ kind opens _ closes _ _ first second third =>
    obtain ⟨used, rfl, again⟩ := first
    obtain ⟨more, rfl, again'⟩ := second
    obtain ⟨last, rfl, again''⟩ := third
    refine ⟨token :: opening :: used ++ closing :: more ++ last, by simp, fun others _ => ?_⟩
    have start := again (closing :: (more ++ (last ++ others))) trivial
    simpa using .conditional kind opens start closes (again' (last ++ others) trivial)
      (again'' others trivial)
  | @function _ _ _ token opening closing _ _ kind opens _ closes _ first second =>
    obtain ⟨used, rfl, again⟩ := first
    obtain ⟨more, rfl, again'⟩ := second
    refine ⟨token :: opening :: used ++ closing :: more, by simp, fun others _ => ?_⟩
    have start := again (closing :: (more ++ others)) trivial
    simpa using .function kind opens start closes (again' others trivial)
  | @array _ _ opening closing _ opens _ closes ih =>
    obtain ⟨used, rfl, again⟩ := ih
    refine ⟨opening :: used ++ [closing], by simp, fun others _ => ?_⟩
    simpa using .array opens (again (closing :: others) trivial) closes
  | @hash _ _ opening closing _ opens _ closes ih =>
    obtain ⟨used, rfl, again⟩ := ih
    refine ⟨opening :: used ++ [closing], by simp, fun others _ => ?_⟩
    simpa using .hash opens (again (closing :: others) trivial) closes
  | @moreItems _ _ _ comma _ _ _ divides _ first second =>
    obtain ⟨used, rfl, again⟩ := first
    obtain ⟨more, rfl, again'⟩ := second
    refine ⟨used ++ comma :: more, by simp, fun others _ => ?_⟩
    have start := again (comma :: (more ++ others)) trivial
    simpa using .moreItems start divides (again' others trivial)
  | @pair _ _ _ colon _ _ _ divides _ first second =>
    obtain ⟨used, rfl, again⟩ := first
    obtain ⟨more, rfl, again'⟩ := second
    refine ⟨used ++ colon :: more, by simp, fun others _ => ?_⟩
    have start := again (colon :: (more ++ others)) trivial
    simpa using .pair start divides (again' others trivial)
  | @morePairs _ _ _ _ colon comma _ _ _ _ divides _ separates _ first second third =>
    obtain ⟨used, rfl, again⟩ := first
    obtain ⟨more, rfl, again'⟩ := second
    obtain ⟨last, rfl, again''⟩ := third
    refine ⟨used ++ colon :: more ++ comma :: last, by simp, fun others _ => ?_⟩
    have start := again (colon :: (more ++ comma :: (last ++ others))) trivial
    have middle := again' (comma :: (last ++ others)) trivial
    simpa using .morePairs start divides middle separates (again'' others trivial)
  | moreNames kind divides _ ih =>
    obtain ⟨used, rfl, again⟩ := ih
    exact ⟨_ :: _ :: used, rfl, fun others _ => .moreNames kind divides (again others trivial)⟩
  | @block _ _ opening closing _ opens _ closes ih =>
    obtain ⟨used, rfl, again⟩ := ih
    refine ⟨opening :: used ++ [closing], by simp, fun others _ => ?_⟩
    simpa using .block opens (again (closing :: others) (.inl rfl)) closes
  | someAlternative kind _ ih =>
    obtain ⟨used, rfl, again⟩ := ih
    exact ⟨_ :: used, rfl, fun others _ => .someAlternative kind (again others trivial)⟩
  | @binding token name assign _ _ _ _ kind named assigns _ ends ih =>
    obtain ⟨used, rfl, again⟩ := ih
    obtain ⟨last, rfl, ended⟩ := ends.replace (by decide) (by decide)
    refine ⟨token :: name :: assign :: used ++ last, by simp, fun others allows => ?_⟩
    have inner := again (last ++ others) trivial
    simpa using .binding kind named assigns inner (ended others allows)
  | @giveBack token _ _ _ _ kind _ ends ih =>
    obtain ⟨used, rfl, again⟩ := ih
    obtain ⟨last, rfl, ended⟩ := ends.replace (by decide) (by decide)
    refine ⟨token :: used ++ last, by simp, fun others allows => ?_⟩
    simpa using .giveBack kind (again (last ++ others) trivial) (ended others allows)
  | @giveBackNothing token _ _ kind ends =>
    obtain ⟨last, rfl, ended⟩ := ends.replace (by decide) (by decide)
    exact ⟨token :: last, rfl, fun others allows => .giveBackNothing kind (ended others allows)⟩
  | @expression token tokens _ _ _ inner ends ih =>
    obtain ⟨used, same, again⟩ := ih
    obtain ⟨last, rfl, ended⟩ := ends.replace (by decide) (by decide)
    -- An expression is not empty, so its first token stays the one the statement is kept under.
    cases used with
    | nil =>
      have shorter := inner.length_lt rfl
      rw [same] at shorter
      exact absurd shorter (Nat.lt_irrefl _)
    | cons first used =>
      obtain ⟨rfl, rfl⟩ := List.cons.inj same
      refine ⟨token :: used ++ last, by simp, fun others allows => ?_⟩
      have inner := again (last ++ others) trivial
      simpa using Derives.expression inner (ended others allows)
  | @moreStatements _ _ rest _ _ first second ih ih' =>
    obtain ⟨used, rfl, again⟩ := ih
    obtain ⟨more, rfl, again'⟩ := ih'
    refine ⟨used ++ more, by simp, fun others allows => ?_⟩
    -- The first statement minds only if there is no second one.
    have follows : Phrase.statement.Allows (more ++ rest) (more ++ others) := by
      cases more with
      | nil => exact allows
      | cons => exact .inl rfl
    simpa using .moreStatements (again (more ++ others) follows) (again' others allows)
  | program inner ends =>
    refine ⟨_, (List.append_nil _).symm, fun others same => ?_⟩
    rw [show others = [] from same, List.append_nil]
    exact .program inner ends

/-- What is a phrase on its own is one before other tokens. -/
theorem Derives.before {phrase : Phrase} {tokens : List Token} {tree : phrase.Tree}
    (derives : Derives phrase tokens tree []) (others : List Token)
    (allows : phrase.Allows [] others) : Derives phrase (tokens ++ others) tree others := by
  obtain ⟨used, same, again⟩ := derives.replace
  rw [List.append_nil] at same
  exact same ▸ again others allows

/-- A token of some kind: a name or, of the kinds that are named by their own characters, those. -/
def Token.sample (kind : TokenKind) : Token :=
  ⟨kind, if kind = .ident then "x" else kind.name, .start⟩

/-- A name is an expression of every level. -/
theorem derives_sample (level : Level) (rest : List Token) :
    Derives (.expression level) (.sample .ident :: rest) (.identifier ⟨.sample .ident, "x"⟩) rest :=
  Derives.loosen (.identifier rfl) level.le_chain

/-- Up to `left` the tokens begin a phrase: with some more tokens they are a whole one. -/
def Begins (phrase : Phrase) (tokens left : List Token) : Prop :=
  ∃ (used : List Token) (kinds : List TokenKind), tokens = used ++ left ∧
    ∃ tree, Derives phrase (used ++ kinds.map .sample) tree []

namespace Begins

variable {phrase : Phrase} {tokens middle later rest left : List Token} {level : Level}
variable {token opening closing colon comma operator : Token}

theorem intro {whole : List Token} {tree : phrase.Tree} (derives : Derives phrase whole tree [])
    (used : List Token) (kinds : List TokenKind) (same : whole = used ++ kinds.map .sample)
    (split : tokens = used ++ left) : Begins phrase tokens left :=
  ⟨used, kinds, split, tree, same ▸ derives⟩

/-- A whole phrase is a beginning of one. -/
theorem whole {tree : phrase.Tree} (derives : Derives phrase tokens tree rest)
    (allows : phrase.Allows rest []) : Begins phrase tokens rest := by
  obtain ⟨used, split, again⟩ := derives.replace
  exact intro (again [] allows) used [] rfl split

/-! Expressions. -/

/-- In the place of an expression that is missing there may be a name. -/
theorem missing (level : Level) (tokens : List Token) :
    Begins (.expression level) tokens tokens :=
  intro (derives_sample level []) [] [.ident] rfl rfl

theorem loosen {target : Level} (begins : Begins (.expression level) tokens left)
    (looser : target.ceiling ≤ level.ceiling) : Begins (.expression target) tokens left := by
  obtain ⟨used, kinds, split, tree, inner⟩ := begins
  exact ⟨used, kinds, split, tree, inner.loosen looser⟩

theorem unary (sign : operator.kind = .bang ∨ operator.kind = .minus)
    (begins : Begins (.expression .sign) tokens left) :
    Begins (.expression .sign) (operator :: tokens) left := by
  obtain ⟨used, kinds, rfl, _, inner⟩ := begins
  exact intro (.unary sign inner) (operator :: used) kinds rfl rfl

theorem binary {tree : Expr} (first : Derives (.expression level) tokens tree (operator :: middle))
    (joins : operator.kind ∈ level.operators)
    (begins : Begins (.expression level.tighter) middle left) :
    Begins (.expression level) tokens left := by
  obtain ⟨used, rfl, again⟩ := first.replace
  obtain ⟨more, kinds, rfl, _, inner⟩ := begins
  have start := again (operator :: (more ++ kinds.map .sample)) trivial
  exact intro (.binary start joins inner) (used ++ operator :: more) kinds (by simp) (by simp)

theorem call {callee : Expr}
    (first : Derives (.expression .chain) tokens callee (opening :: middle))
    (opens : opening.kind = .leftParen) (begins : Begins .row middle left) :
    Begins (.expression .chain) tokens left := by
  obtain ⟨used, rfl, again⟩ := first.replace
  obtain ⟨more, kinds, rfl, _, inner⟩ := begins
  have ending := inner.before [.sample .rightParen] trivial
  have start := again (opening :: (more ++ kinds.map .sample ++ [Token.sample .rightParen])) trivial
  exact intro (.call start opens ending rfl) (used ++ opening :: more)
    (kinds ++ [TokenKind.rightParen]) (by simp) (by simp)

theorem index {tree : Expr} (first : Derives (.expression .chain) tokens tree (opening :: middle))
    (opens : opening.kind = .leftBracket) (begins : Begins (.expression .equality) middle left) :
    Begins (.expression .chain) tokens left := by
  obtain ⟨used, rfl, again⟩ := first.replace
  obtain ⟨more, kinds, rfl, _, inner⟩ := begins
  have ending := inner.before [.sample .rightBracket] trivial
  have start := again
    (opening :: (more ++ kinds.map .sample ++ [Token.sample .rightBracket])) trivial
  exact intro (.index start opens ending rfl) (used ++ opening :: more)
    (kinds ++ [TokenKind.rightBracket]) (by simp) (by simp)

theorem slice {tree : Expr} {lower : Option Expr}
    (first : Derives (.expression .chain) tokens tree (opening :: middle))
    (opens : opening.kind = .leftBracket) (second : Derives .bound middle lower (colon :: later))
    (divides : colon.kind = .colon) (begins : Begins .bound later left) :
    Begins (.expression .chain) tokens left := by
  obtain ⟨used, rfl, again⟩ := first.replace
  obtain ⟨more, rfl, again'⟩ := second.replace
  obtain ⟨last, kinds, rfl, _, inner⟩ := begins
  have ending := inner.before [.sample .rightBracket] trivial
  have bound := again'
    (colon :: (last ++ kinds.map .sample ++ [Token.sample .rightBracket])) trivial
  have start := again (opening :: (more ++
    colon :: (last ++ kinds.map .sample ++ [Token.sample .rightBracket]))) trivial
  exact intro (.slice start opens bound divides ending rfl)
    (used ++ opening :: more ++ colon :: last) (kinds ++ [TokenKind.rightBracket])
    (by simp) (by simp)

theorem group (opens : opening.kind = .leftParen)
    (begins : Begins (.expression .equality) tokens left) :
    Begins (.expression .chain) (opening :: tokens) left := by
  obtain ⟨used, kinds, rfl, _, inner⟩ := begins
  have ending := inner.before [.sample .rightParen] trivial
  exact intro (.group opens ending rfl) (opening :: used) (kinds ++ [TokenKind.rightParen])
    (by simp) rfl

theorem array (opens : opening.kind = .leftBracket) (begins : Begins .row tokens left) :
    Begins (.expression .chain) (opening :: tokens) left := by
  obtain ⟨used, kinds, rfl, _, inner⟩ := begins
  have ending := inner.before [.sample .rightBracket] trivial
  exact intro (.array opens ending rfl) (opening :: used) (kinds ++ [TokenKind.rightBracket])
    (by simp) rfl

theorem hash (opens : opening.kind = .leftBrace) (begins : Begins .pairs tokens left) :
    Begins (.expression .chain) (opening :: tokens) left := by
  obtain ⟨used, kinds, rfl, _, inner⟩ := begins
  have ending := inner.before [.sample .rightBrace] trivial
  exact intro (.hash opens ending rfl) (opening :: used) (kinds ++ [TokenKind.rightBrace])
    (by simp) rfl

/-! Rows. -/

theorem items (begins : Begins (.expression .equality) tokens left) :
    Begins .items tokens left := by
  obtain ⟨used, kinds, split, _, inner⟩ := begins
  exact ⟨used, kinds, split, _, .item inner⟩

theorem moreItems {tree : Expr}
    (first : Derives (.expression .equality) tokens tree (comma :: middle))
    (divides : comma.kind = .comma) (begins : Begins .items middle left) :
    Begins .items tokens left := by
  obtain ⟨used, rfl, again⟩ := first.replace
  obtain ⟨more, kinds, rfl, _, inner⟩ := begins
  have start := again (comma :: (more ++ kinds.map .sample)) trivial
  exact intro (.moreItems start divides inner) (used ++ comma :: more) kinds (by simp) (by simp)

theorem row (begins : Begins .items tokens left) : Begins .row tokens left := by
  obtain ⟨used, kinds, split, _, inner⟩ := begins
  exact ⟨used, kinds, split, _, .someItems inner⟩

theorem key (begins : Begins (.expression .equality) tokens left) : Begins .pairs tokens left := by
  obtain ⟨used, kinds, rfl, _, inner⟩ := begins
  have start := inner.before [.sample .colon, .sample .ident] trivial
  exact intro (.pair start rfl (derives_sample .equality [])) used
    (kinds ++ [TokenKind.colon, .ident]) (by simp) rfl

theorem value {tree : Expr} (first : Derives (.expression .equality) tokens tree (colon :: middle))
    (divides : colon.kind = .colon) (begins : Begins (.expression .equality) middle left) :
    Begins .pairs tokens left := by
  obtain ⟨used, rfl, again⟩ := first.replace
  obtain ⟨more, kinds, rfl, _, inner⟩ := begins
  have start := again (colon :: (more ++ kinds.map .sample)) trivial
  exact intro (.pair start divides inner) (used ++ colon :: more) kinds (by simp) (by simp)

theorem morePairs {tree tree' : Expr}
    (first : Derives (.expression .equality) tokens tree (colon :: middle))
    (divides : colon.kind = .colon)
    (second : Derives (.expression .equality) middle tree' (comma :: later))
    (separates : comma.kind = .comma) (begins : Begins .pairs later left) :
    Begins .pairs tokens left := by
  obtain ⟨used, rfl, again⟩ := first.replace
  obtain ⟨more, rfl, again'⟩ := second.replace
  obtain ⟨last, kinds, rfl, _, inner⟩ := begins
  have start := again (colon :: (more ++ comma :: (last ++ kinds.map .sample))) trivial
  have middle := again' (comma :: (last ++ kinds.map .sample)) trivial
  exact intro (.morePairs start divides middle separates inner)
    (used ++ colon :: more ++ comma :: last) kinds (by simp) (by simp)

theorem names (tokens : List Token) : Begins .names tokens tokens :=
  intro (.name rfl) [] [.ident] rfl rfl

theorem moreNames (kind : token.kind = .ident) (divides : comma.kind = .comma)
    (begins : Begins .names tokens left) : Begins .names (token :: comma :: tokens) left := by
  obtain ⟨used, kinds, rfl, _, inner⟩ := begins
  exact intro (.moreNames kind divides inner) (token :: comma :: used) kinds rfl rfl

theorem parameters (begins : Begins .names tokens left) : Begins .parameters tokens left := by
  obtain ⟨used, kinds, split, _, inner⟩ := begins
  exact ⟨used, kinds, split, _, .someParameters inner⟩

theorem bound (begins : Begins (.expression .equality) tokens left) :
    Begins .bound tokens left := by
  obtain ⟨used, kinds, split, _, inner⟩ := begins
  exact ⟨used, kinds, split, _, .someBound inner⟩

/-! Blocks, and what holds them. -/

/-- A block without statements. -/
def emptyBlock : List TokenKind := [.leftBrace, .rightBrace]

theorem derives_emptyBlock : ∃ tree, Derives .block (emptyBlock.map .sample) tree [] :=
  ⟨_, .block rfl .noStatements rfl⟩

theorem block (tokens : List Token) : Begins .block tokens tokens :=
  ⟨[], emptyBlock, rfl, derives_emptyBlock⟩

theorem inside (opens : opening.kind = .leftBrace) (begins : Begins .statements tokens left) :
    Begins .block (opening :: tokens) left := by
  obtain ⟨used, kinds, rfl, _, inner⟩ := begins
  have ending := inner.before [.sample .rightBrace] (.inr (by decide))
  exact intro (.block opens ending rfl) (opening :: used) (kinds ++ [TokenKind.rightBrace])
    (by simp) rfl

theorem alternative (kind : token.kind = .elseKeyword) (begins : Begins .block tokens left) :
    Begins .alternative (token :: tokens) left := by
  obtain ⟨used, kinds, rfl, _, inner⟩ := begins
  exact intro (.someAlternative kind inner) (token :: used) kinds rfl rfl

theorem conditional (kind : token.kind = .ifKeyword) (tokens : List Token) :
    Begins (.expression .chain) (token :: tokens) tokens := by
  obtain ⟨_, block⟩ := derives_emptyBlock
  have condition := derives_sample .equality (.sample .rightParen :: emptyBlock.map .sample)
  exact intro (.conditional kind rfl condition rfl block .noAlternative) [token]
    ([.leftParen, .ident, .rightParen] ++ emptyBlock) rfl rfl

theorem condition (kind : token.kind = .ifKeyword) (opens : opening.kind = .leftParen)
    (begins : Begins (.expression .equality) tokens left) :
    Begins (.expression .chain) (token :: opening :: tokens) left := by
  obtain ⟨used, kinds, rfl, _, inner⟩ := begins
  obtain ⟨_, block⟩ := derives_emptyBlock
  have start := inner.before (.sample .rightParen :: emptyBlock.map .sample) trivial
  exact intro (.conditional kind opens start rfl block .noAlternative) (token :: opening :: used)
    (kinds ++ .rightParen :: emptyBlock) (by simp) rfl

theorem consequence {tree : Expr} (kind : token.kind = .ifKeyword)
    (opens : opening.kind = .leftParen)
    (first : Derives (.expression .equality) tokens tree (closing :: middle))
    (closes : closing.kind = .rightParen) (begins : Begins .block middle left) :
    Begins (.expression .chain) (token :: opening :: tokens) left := by
  obtain ⟨used, rfl, again⟩ := first.replace
  obtain ⟨more, kinds, rfl, _, inner⟩ := begins
  have start := again (closing :: (more ++ kinds.map .sample)) trivial
  exact intro (.conditional kind opens start closes inner .noAlternative)
    (token :: opening :: used ++ closing :: more) kinds (by simp) (by simp)

theorem otherwise {tree : Expr} {body : Block} (kind : token.kind = .ifKeyword)
    (opens : opening.kind = .leftParen)
    (first : Derives (.expression .equality) tokens tree (closing :: middle))
    (closes : closing.kind = .rightParen) (second : Derives .block middle body later)
    (begins : Begins .alternative later left) :
    Begins (.expression .chain) (token :: opening :: tokens) left := by
  obtain ⟨used, rfl, again⟩ := first.replace
  obtain ⟨more, rfl, again'⟩ := second.replace
  obtain ⟨last, kinds, rfl, _, inner⟩ := begins
  have start := again (closing :: (more ++ (last ++ kinds.map .sample))) trivial
  have block := again' (last ++ kinds.map .sample) trivial
  exact intro (.conditional kind opens start closes block inner)
    (token :: opening :: used ++ closing :: more ++ last) kinds (by simp) (by simp)

theorem function (kind : token.kind = .fnKeyword) (tokens : List Token) :
    Begins (.expression .chain) (token :: tokens) tokens := by
  obtain ⟨_, block⟩ := derives_emptyBlock
  exact intro (.function kind rfl .noParameters rfl block) [token]
    ([.leftParen, .rightParen] ++ emptyBlock) rfl rfl

theorem head (kind : token.kind = .fnKeyword) (opens : opening.kind = .leftParen)
    (begins : Begins .parameters tokens left) :
    Begins (.expression .chain) (token :: opening :: tokens) left := by
  obtain ⟨used, kinds, rfl, _, inner⟩ := begins
  obtain ⟨_, block⟩ := derives_emptyBlock
  have start := inner.before (.sample .rightParen :: emptyBlock.map .sample) trivial
  exact intro (.function kind opens start rfl block) (token :: opening :: used)
    (kinds ++ .rightParen :: emptyBlock) (by simp) rfl

theorem body {names : List Identifier} (kind : token.kind = .fnKeyword)
    (opens : opening.kind = .leftParen)
    (first : Derives .parameters tokens names (closing :: middle))
    (closes : closing.kind = .rightParen) (begins : Begins .block middle left) :
    Begins (.expression .chain) (token :: opening :: tokens) left := by
  obtain ⟨used, rfl, again⟩ := first.replace
  obtain ⟨more, kinds, rfl, _, inner⟩ := begins
  have start := again (closing :: (more ++ kinds.map .sample)) trivial
  exact intro (.function kind opens start closes inner)
    (token :: opening :: used ++ closing :: more) kinds (by simp) (by simp)

/-! Statements. -/

theorem ends_nil : Ends (· ∉ continuing) [] [] := .without (by decide)

theorem binding (kind : token.kind = .letKeyword) (tokens : List Token) :
    Begins .statement (token :: tokens) tokens :=
  intro (.binding kind rfl rfl (derives_sample .equality []) ends_nil) [token]
    [.ident, .assign, .ident] rfl rfl

theorem bindingName {name : Token} (kind : token.kind = .letKeyword) (named : name.kind = .ident)
    (tokens : List Token) : Begins .statement (token :: name :: tokens) tokens :=
  intro (.binding kind named rfl (derives_sample .equality []) ends_nil) [token, name]
    [.assign, .ident] rfl rfl

theorem bindingValue {name assign : Token} (kind : token.kind = .letKeyword)
    (named : name.kind = .ident) (assigns : assign.kind = .assign)
    (begins : Begins (.expression .equality) tokens left) :
    Begins .statement (token :: name :: assign :: tokens) left := by
  obtain ⟨used, kinds, rfl, _, inner⟩ := begins
  exact intro (.binding kind named assigns inner ends_nil) (token :: name :: assign :: used) kinds
    rfl rfl

theorem giveBack (kind : token.kind = .returnKeyword)
    (begins : Begins (.expression .equality) tokens left) :
    Begins .statement (token :: tokens) left := by
  obtain ⟨used, kinds, rfl, _, inner⟩ := begins
  exact intro (.giveBack kind inner ends_nil) (token :: used) kinds rfl rfl

theorem statement (begins : Begins (.expression .equality) tokens left) :
    Begins .statement tokens left := by
  obtain ⟨used, kinds, split, _, inner⟩ := begins
  refine ⟨used, kinds, split, ?_⟩
  generalize used ++ kinds.map .sample = whole at inner
  cases whole with
  | nil => exact absurd (inner.length_lt rfl) (Nat.lt_irrefl _)
  | cons token rest => exact ⟨_, .expression inner ends_nil⟩

theorem statements (begins : Begins .statement tokens left) : Begins .statements tokens left := by
  obtain ⟨used, kinds, split, _, inner⟩ := begins
  exact ⟨used, kinds, split, _, .moreStatements inner .noStatements⟩

/-- A statement keeps the token that it was read up to, unless nothing of what comes after it is
used. -/
theorem moreStatements {tree : Statement} (first : Derives .statement tokens tree middle)
    (begins : Begins .statements middle left) : Begins .statements tokens left := by
  obtain ⟨used, rfl, again⟩ := first.replace
  obtain ⟨more, kinds, rfl, _, inner⟩ := begins
  cases more with
  | nil =>
    have alone := again [] (.inr (by decide))
    exact intro (.moreStatements alone .noStatements) used [] (by simp) rfl
  | cons token more =>
    have start := again (token :: (more ++ kinds.map .sample)) (.inl rfl)
    exact intro (.moreStatements start inner) (used ++ token :: more) kinds (by simp) (by simp)

end Begins

end Monkey

import Monkey.Syntax.Agreement
import Monkey.Syntax.Rendering

/-!
What it means for two trees to agree, node by node. A tree that agrees with a node is such a node
itself, and its parts agree with the parts. Trees that agree are shown alike, and trees that agree
with one tree agree with each other.
-/

namespace Monkey

attribute [local grind] Expr.agrees Expr.valuesAgree Expr.allAgree Expr.pairsAgree Block.agrees
  Block.alternativesAgree Statement.agrees Statement.allAgree

section
variable {token : Token}

namespace Expr

variable {tree left right condition callee position : Expr} {name : Identifier}
variable {operator : Operator} {consequence body : Block} {alternative : Option Block}
variable {parameters : List Identifier} {elements : List Expr} {pairs : List (Expr × Expr)}
variable {lower upper : Option Expr}

theorem agrees_identifier (same : (identifier name).agrees tree = true) :
    ∃ name', tree = .identifier name' ∧ name.agrees name' = true := by
  cases tree <;> grind

theorem agrees_integer {value : Int} (same : (integer token value).agrees tree = true) :
    ∃ token', tree = .integer token' value ∧ token.agrees token' = true := by
  cases tree <;> grind

theorem agrees_boolean {value : Bool} (same : (boolean token value).agrees tree = true) :
    ∃ token', tree = .boolean token' value ∧ token.agrees token' = true := by
  cases tree <;> grind

theorem agrees_string {value : String} (same : (string token value).agrees tree = true) :
    ∃ token', tree = .string token' value ∧ token.agrees token' = true := by
  cases tree <;> grind

theorem agrees_unary (same : (unary token operator right).agrees tree = true) :
    ∃ token' right', tree = .unary token' operator right' ∧ right.agrees right' = true := by
  cases tree <;> grind

theorem agrees_binary (same : (binary token left operator right).agrees tree = true) :
    ∃ token' left' right', tree = .binary token' left' operator right' ∧
      left.agrees left' = true ∧ right.agrees right' = true := by
  cases tree <;> grind

theorem agrees_conditional
    (same : (conditional token condition consequence alternative).agrees tree = true) :
    ∃ token' condition' consequence' alternative',
      tree = .conditional token' condition' consequence' alternative' ∧
      condition.agrees condition' = true ∧ consequence.agrees consequence' = true ∧
      Block.alternativesAgree alternative alternative' = true := by
  cases tree <;> grind

theorem agrees_function (same : (function token parameters body).agrees tree = true) :
    ∃ token' parameters' body', tree = .function token' parameters' body' ∧
      token.agrees token' = true ∧ Identifier.allAgree parameters parameters' = true ∧
      body.agrees body' = true := by
  cases tree <;> grind

theorem agrees_call (same : (call token callee elements).agrees tree = true) :
    ∃ token' callee' elements', tree = .call token' callee' elements' ∧
      callee.agrees callee' = true ∧ Expr.allAgree elements elements' = true := by
  cases tree <;> grind

theorem agrees_array (same : (array token elements).agrees tree = true) :
    ∃ token' elements', tree = .array token' elements' ∧
      Expr.allAgree elements elements' = true := by
  cases tree <;> grind

theorem agrees_hash (same : (hash token pairs).agrees tree = true) :
    ∃ token' pairs', tree = .hash token' pairs' ∧ Expr.pairsAgree pairs pairs' = true := by
  cases tree <;> grind

theorem agrees_index (same : (index token left position).agrees tree = true) :
    ∃ token' left' position', tree = .index token' left' position' ∧
      left.agrees left' = true ∧ position.agrees position' = true := by
  cases tree <;> grind

theorem agrees_slice (same : (slice token left lower upper).agrees tree = true) :
    ∃ token' left' lower' upper', tree = .slice token' left' lower' upper' ∧
      left.agrees left' = true ∧ Expr.valuesAgree lower lower' = true ∧
      Expr.valuesAgree upper upper' = true := by
  cases tree <;> grind

theorem agrees_unknown (same : unknown.agrees tree = true) : tree = .unknown := by
  cases tree <;> grind

theorem valuesAgree_none (same : Expr.valuesAgree none upper = true) : upper = none := by
  cases upper <;> grind

theorem valuesAgree_some (same : Expr.valuesAgree (some left) upper = true) :
    ∃ right, upper = some right ∧ left.agrees right = true := by
  cases upper <;> grind

theorem allAgree_nil (same : Expr.allAgree [] elements = true) : elements = [] := by
  cases elements <;> grind

theorem allAgree_cons {list : List Expr} (same : Expr.allAgree (left :: list) elements = true) :
    ∃ right others, elements = right :: others ∧ left.agrees right = true ∧
      Expr.allAgree list others = true := by
  cases elements <;> grind

theorem pairsAgree_nil (same : Expr.pairsAgree [] pairs = true) : pairs = [] := by
  cases pairs <;> grind

theorem pairsAgree_cons {key value : Expr} {list : List (Expr × Expr)}
    (same : Expr.pairsAgree ((key, value) :: list) pairs = true) :
    ∃ key' value' others, pairs = (key', value') :: others ∧ key.agrees key' = true ∧
      value.agrees value' = true ∧ Expr.pairsAgree list others = true := by
  cases pairs <;> grind

end Expr

namespace Block

variable {body other : Block} {alternative : Option Block}

theorem alternativesAgree_none (same : alternativesAgree none alternative = true) :
    alternative = none := by
  cases alternative <;> grind

theorem alternativesAgree_some (same : alternativesAgree (some body) alternative = true) :
    ∃ other, alternative = some other ∧ body.agrees other = true := by
  cases alternative <;> grind

theorem allAgree_of_agrees (same : body.agrees other = true) :
    Statement.allAgree body.statements other.statements = true := by
  cases body
  cases other
  grind

end Block

namespace Statement

variable {tree : Statement} {name : Identifier} {value : Option Expr} {body : Block}
variable {statements : List Statement}

theorem allAgree_nil (same : Statement.allAgree [] statements = true) : statements = [] := by
  cases statements <;> grind

theorem allAgree_cons {list : List Statement}
    (same : Statement.allAgree (tree :: list) statements = true) :
    ∃ other others, statements = other :: others ∧ tree.agrees other = true ∧
      Statement.allAgree list others = true := by
  cases statements <;> grind

theorem agrees_binding (same : (binding token name value).agrees tree = true) :
    ∃ token' name' value', tree = .binding token' name' value' ∧ token.agrees token' = true ∧
      name.agrees name' = true ∧ Expr.valuesAgree value value' = true := by
  cases tree <;> grind

theorem agrees_giveBack (same : (giveBack token value).agrees tree = true) :
    ∃ token' value', tree = .giveBack token' value' ∧ token.agrees token' = true ∧
      Expr.valuesAgree value value' = true := by
  cases tree <;> grind

theorem agrees_expression (same : (expression token value).agrees tree = true) :
    ∃ token' value', tree = .expression token' value' ∧
      Expr.valuesAgree value value' = true := by
  cases tree <;> grind

theorem agrees_block (same : (block body).agrees tree = true) :
    ∃ body', tree = .block body' ∧ body.agrees body' = true := by
  cases tree <;> grind

end Statement

end

theorem Token.literal_eq_of_agrees {token other : Token} (same : token.agrees other = true) :
    token.literal = other.literal := (agrees_iff.mp same).2

theorem Identifier.name_eq_of_agrees {name other : Identifier} (same : name.agrees other = true) :
    name.name = other.name := by
  simp only [agrees, Bool.and_eq_true, decide_eq_true_eq] at same
  exact same.2

theorem Identifier.names_eq_of_allAgree : ∀ {names others : List Identifier},
    allAgree names others = true → names.map Identifier.name = others.map Identifier.name
  | [], [], _ => rfl
  | [], _ :: _, same => nomatch same
  | _ :: _, [], same => nomatch same
  | name :: names, other :: others, same => by
    simp only [allAgree, Bool.and_eq_true] at same
    simp only [List.map_cons, name_eq_of_agrees same.1, names_eq_of_allAgree same.2]

theorem Identifier.length_eq_of_allAgree {names others : List Identifier}
    (same : allAgree names others = true) : names.length = others.length := by
  have lengths := congrArg List.length (names_eq_of_allAgree same)
  rwa [List.length_map, List.length_map] at lengths

/-! Trees that agree are shown alike. -/

mutual

theorem Expr.render_eq : ∀ (tree : Expr) {other : Expr}, tree.agrees other = true →
    tree.render = other.render
  | .identifier name, other, same => by
    obtain ⟨name', rfl, named⟩ := Expr.agrees_identifier same
    exact Identifier.name_eq_of_agrees named
  | .integer token value, other, same => by
    obtain ⟨token', rfl, tokens⟩ := Expr.agrees_integer same
    exact Token.literal_eq_of_agrees tokens
  | .boolean token value, other, same => by
    obtain ⟨token', rfl, tokens⟩ := Expr.agrees_boolean same
    exact Token.literal_eq_of_agrees tokens
  | .string token value, other, same => by
    obtain ⟨token', rfl, tokens⟩ := Expr.agrees_string same
    exact Token.literal_eq_of_agrees tokens
  | .unary token operator right, other, same => by
    obtain ⟨token', right', rfl, rights⟩ := Expr.agrees_unary same
    simp only [Expr.render, Expr.render_eq right rights]
  | .binary token left operator right, other, same => by
    obtain ⟨token', left', right', rfl, lefts, rights⟩ := Expr.agrees_binary same
    simp only [Expr.render, Expr.render_eq left lefts, Expr.render_eq right rights]
  | .conditional token condition yes none, other, same => by
    obtain ⟨token', condition', yes', no', rfl, conditions, yess, nos⟩ :=
      Expr.agrees_conditional same
    obtain rfl := Block.alternativesAgree_none nos
    simp only [Expr.render, Expr.render_eq condition conditions, Block.render_eq yes yess]
  | .conditional token condition yes (some no), other, same => by
    obtain ⟨token', condition', yes', no', rfl, conditions, yess, nos⟩ :=
      Expr.agrees_conditional same
    obtain ⟨no', rfl, blocks⟩ := Block.alternativesAgree_some nos
    simp only [Expr.render, Expr.render_eq condition conditions, Block.render_eq yes yess,
      Block.render_eq no blocks]
  | .function token parameters body, other, same => by
    obtain ⟨token', parameters', body', rfl, tokens, names, bodies⟩ := Expr.agrees_function same
    have shown : parameters.map Identifier.render = parameters'.map Identifier.render :=
      Identifier.names_eq_of_allAgree names
    simp only [Expr.render, Token.literal_eq_of_agrees tokens, shown, Block.render_eq body bodies]
  | .call token callee arguments, other, same => by
    obtain ⟨token', callee', arguments', rfl, callees, rows⟩ := Expr.agrees_call same
    simp only [Expr.render, Expr.render_eq callee callees, Expr.renderAll_eq arguments rows]
  | .array token elements, other, same => by
    obtain ⟨token', elements', rfl, rows⟩ := Expr.agrees_array same
    simp only [Expr.render, Expr.renderAll_eq elements rows]
  | .hash token pairs, other, same => by
    obtain ⟨token', pairs', rfl, rows⟩ := Expr.agrees_hash same
    simp only [Expr.render, Expr.renderPairs_eq pairs rows]
  | .index token left position, other, same => by
    obtain ⟨token', left', position', rfl, lefts, positions⟩ := Expr.agrees_index same
    simp only [Expr.render, Expr.render_eq left lefts, Expr.render_eq position positions]
  | .slice token left lower upper, other, same => by
    obtain ⟨token', left', lower', upper', rfl, lefts, lowers, uppers⟩ := Expr.agrees_slice same
    simp only [Expr.render, Expr.render_eq left lefts, Expr.renderBound_eq lower lowers,
      Expr.renderBound_eq upper uppers]
  | .unknown, other, same => by
    rw [Expr.agrees_unknown same]

theorem Expr.renderBound_eq : ∀ (bound : Option Expr) {other : Option Expr},
    Expr.valuesAgree bound other = true → Expr.renderBound bound = Expr.renderBound other
  | none, other, same => by rw [Expr.valuesAgree_none same]
  | some bound, other, same => by
    obtain ⟨bound', rfl, bounds⟩ := Expr.valuesAgree_some same
    simp only [Expr.renderBound, Expr.render_eq bound bounds]

theorem Expr.renderAll_eq : ∀ (list : List Expr) {others : List Expr},
    Expr.allAgree list others = true → Expr.renderAll list = Expr.renderAll others
  | [], others, same => by rw [Expr.allAgree_nil same]
  | expr :: rest, others, same => by
    obtain ⟨expr', rest', rfl, first, more⟩ := Expr.allAgree_cons same
    simp only [Expr.renderAll, Expr.render_eq expr first, Expr.renderAll_eq rest more]

theorem Expr.renderPairs_eq : ∀ (list : List (Expr × Expr)) {others : List (Expr × Expr)},
    Expr.pairsAgree list others = true → Expr.renderPairs list = Expr.renderPairs others
  | [], others, same => by rw [Expr.pairsAgree_nil same]
  | (key, value) :: rest, others, same => by
    obtain ⟨key', value', rest', rfl, keys, values, more⟩ := Expr.pairsAgree_cons same
    simp only [Expr.renderPairs, Expr.render_eq key keys, Expr.render_eq value values,
      Expr.renderPairs_eq rest more]

theorem Statement.render_eq : ∀ (tree : Statement) {other : Statement},
    tree.agrees other = true → tree.render = other.render
  | .binding token name value, other, same => by
    obtain ⟨token', name', value', rfl, tokens, names, values⟩ := Statement.agrees_binding same
    simp only [Statement.render, Identifier.render, Token.literal_eq_of_agrees tokens,
      Identifier.name_eq_of_agrees names, Expr.renderBound_eq value values]
  | .giveBack token none, other, same => by
    obtain ⟨token', value', rfl, tokens, values⟩ := Statement.agrees_giveBack same
    obtain rfl := Expr.valuesAgree_none values
    simp only [Statement.render, Token.literal_eq_of_agrees tokens]
  | .giveBack token (some value), other, same => by
    obtain ⟨token', value', rfl, tokens, values⟩ := Statement.agrees_giveBack same
    obtain ⟨value', rfl, trees⟩ := Expr.valuesAgree_some values
    simp only [Statement.render, Token.literal_eq_of_agrees tokens, Expr.render_eq value trees]
  | .expression token value, other, same => by
    obtain ⟨token', value', rfl, values⟩ := Statement.agrees_expression same
    simp only [Statement.render, Expr.renderBound_eq value values]
  | .block body, other, same => by
    obtain ⟨body', rfl, bodies⟩ := Statement.agrees_block same
    simp only [Statement.render, Block.render_eq body bodies]

theorem Block.render_eq : ∀ (block : Block) {other : Block}, block.agrees other = true →
    block.render = other.render
  | ⟨token, statements⟩, ⟨token', statements'⟩, same => by
    simp only [Block.render, Statement.renderAll_eq statements (Block.allAgree_of_agrees same)]

theorem Statement.renderAll_eq : ∀ (list : List Statement) {others : List Statement},
    Statement.allAgree list others = true → Statement.renderAll list = Statement.renderAll others
  | [], others, same => by rw [Statement.allAgree_nil same]
  | statement :: rest, others, same => by
    obtain ⟨statement', rest', rfl, first, more⟩ := Statement.allAgree_cons same
    simp only [Statement.renderAll, Statement.render_eq statement first,
      Statement.renderAll_eq rest more]

end

/-! Trees that agree with one tree agree with each other. -/

theorem Identifier.allAgree_common : ∀ {names others more : List Identifier},
    allAgree names others = true → allAgree names more = true → allAgree others more = true
  | [], [], [], _, _ => rfl
  | name :: names, other :: others, another :: more, same, same' => by
    simp only [allAgree, Bool.and_eq_true] at same same' ⊢
    refine ⟨?_, allAgree_common same.2 same'.2⟩
    grind [agrees, Token.agrees]

mutual

theorem Expr.agrees_common : ∀ (tree : Expr) {other another : Expr}, tree.agrees other = true →
    tree.agrees another = true → other.agrees another = true
  | .identifier name, other, another, same, same' => by
    obtain ⟨_, rfl, names⟩ := Expr.agrees_identifier same
    obtain ⟨_, rfl, names'⟩ := Expr.agrees_identifier same'
    grind [Expr.agrees, Identifier.agrees, Token.agrees]
  | .integer token value, other, another, same, same' => by
    obtain ⟨_, rfl, tokens⟩ := Expr.agrees_integer same
    obtain ⟨_, rfl, tokens'⟩ := Expr.agrees_integer same'
    grind [Expr.agrees, Token.agrees]
  | .boolean token value, other, another, same, same' => by
    obtain ⟨_, rfl, tokens⟩ := Expr.agrees_boolean same
    obtain ⟨_, rfl, tokens'⟩ := Expr.agrees_boolean same'
    grind [Expr.agrees, Token.agrees]
  | .string token value, other, another, same, same' => by
    obtain ⟨_, rfl, tokens⟩ := Expr.agrees_string same
    obtain ⟨_, rfl, tokens'⟩ := Expr.agrees_string same'
    grind [Expr.agrees, Token.agrees]
  | .unary token operator right, other, another, same, same' => by
    obtain ⟨_, _, rfl, rights⟩ := Expr.agrees_unary same
    obtain ⟨_, _, rfl, rights'⟩ := Expr.agrees_unary same'
    have inner := Expr.agrees_common right rights rights'
    grind [Expr.agrees, Token.agrees]
  | .binary token left operator right, other, another, same, same' => by
    obtain ⟨_, _, _, rfl, lefts, rights⟩ := Expr.agrees_binary same
    obtain ⟨_, _, _, rfl, lefts', rights'⟩ := Expr.agrees_binary same'
    have first := Expr.agrees_common left lefts lefts'
    have second := Expr.agrees_common right rights rights'
    grind [Expr.agrees, Token.agrees]
  | .conditional token condition yes no, other, another, same, same' => by
    obtain ⟨_, _, _, _, rfl, conditions, yess, nos⟩ := Expr.agrees_conditional same
    obtain ⟨_, _, _, _, rfl, conditions', yess', nos'⟩ := Expr.agrees_conditional same'
    have first := Expr.agrees_common condition conditions conditions'
    have second := Block.agrees_common yes yess yess'
    have third := Block.alternativesAgree_common no nos nos'
    grind [Expr.agrees, Token.agrees]
  | .function token parameters body, other, another, same, same' => by
    obtain ⟨_, _, _, rfl, tokens, names, bodies⟩ := Expr.agrees_function same
    obtain ⟨_, _, _, rfl, tokens', names', bodies'⟩ := Expr.agrees_function same'
    have first := Identifier.allAgree_common names names'
    have second := Block.agrees_common body bodies bodies'
    grind [Expr.agrees, Token.agrees]
  | .call token callee arguments, other, another, same, same' => by
    obtain ⟨_, _, _, rfl, callees, rows⟩ := Expr.agrees_call same
    obtain ⟨_, _, _, rfl, callees', rows'⟩ := Expr.agrees_call same'
    have first := Expr.agrees_common callee callees callees'
    have second := Expr.allAgree_common arguments rows rows'
    grind [Expr.agrees, Token.agrees]
  | .array token elements, other, another, same, same' => by
    obtain ⟨_, _, rfl, rows⟩ := Expr.agrees_array same
    obtain ⟨_, _, rfl, rows'⟩ := Expr.agrees_array same'
    have inner := Expr.allAgree_common elements rows rows'
    grind [Expr.agrees, Token.agrees]
  | .hash token pairs, other, another, same, same' => by
    obtain ⟨_, _, rfl, rows⟩ := Expr.agrees_hash same
    obtain ⟨_, _, rfl, rows'⟩ := Expr.agrees_hash same'
    have inner := Expr.pairsAgree_common pairs rows rows'
    grind [Expr.agrees, Token.agrees]
  | .index token left position, other, another, same, same' => by
    obtain ⟨_, _, _, rfl, lefts, positions⟩ := Expr.agrees_index same
    obtain ⟨_, _, _, rfl, lefts', positions'⟩ := Expr.agrees_index same'
    have first := Expr.agrees_common left lefts lefts'
    have second := Expr.agrees_common position positions positions'
    grind [Expr.agrees, Token.agrees]
  | .slice token left lower upper, other, another, same, same' => by
    obtain ⟨_, _, _, _, rfl, lefts, lowers, uppers⟩ := Expr.agrees_slice same
    obtain ⟨_, _, _, _, rfl, lefts', lowers', uppers'⟩ := Expr.agrees_slice same'
    have first := Expr.agrees_common left lefts lefts'
    have second := Expr.valuesAgree_common lower lowers lowers'
    have third := Expr.valuesAgree_common upper uppers uppers'
    grind [Expr.agrees, Token.agrees]
  | .unknown, other, another, same, same' => by
    rw [Expr.agrees_unknown same]
    exact same'

theorem Expr.valuesAgree_common : ∀ (value : Option Expr) {other another : Option Expr},
    Expr.valuesAgree value other = true → Expr.valuesAgree value another = true →
      Expr.valuesAgree other another = true
  | none, other, another, same, same' => by
    rw [Expr.valuesAgree_none same]
    exact same'
  | some value, other, another, same, same' => by
    obtain ⟨_, rfl, values⟩ := Expr.valuesAgree_some same
    obtain ⟨_, rfl, values'⟩ := Expr.valuesAgree_some same'
    simpa only [Expr.valuesAgree] using Expr.agrees_common value values values'

theorem Expr.allAgree_common : ∀ (list : List Expr) {others more : List Expr},
    Expr.allAgree list others = true → Expr.allAgree list more = true →
      Expr.allAgree others more = true
  | [], others, more, same, same' => by
    rw [Expr.allAgree_nil same]
    exact same'
  | expr :: rest, others, more, same, same' => by
    obtain ⟨_, _, rfl, first, rows⟩ := Expr.allAgree_cons same
    obtain ⟨_, _, rfl, first', rows'⟩ := Expr.allAgree_cons same'
    simp only [Expr.allAgree, Bool.and_eq_true]
    exact ⟨Expr.agrees_common expr first first', Expr.allAgree_common rest rows rows'⟩

theorem Expr.pairsAgree_common : ∀ (list : List (Expr × Expr)) {others more : List (Expr × Expr)},
    Expr.pairsAgree list others = true → Expr.pairsAgree list more = true →
      Expr.pairsAgree others more = true
  | [], others, more, same, same' => by
    rw [Expr.pairsAgree_nil same]
    exact same'
  | (key, value) :: rest, others, more, same, same' => by
    obtain ⟨_, _, _, rfl, keys, values, rows⟩ := Expr.pairsAgree_cons same
    obtain ⟨_, _, _, rfl, keys', values', rows'⟩ := Expr.pairsAgree_cons same'
    simp only [Expr.pairsAgree, Bool.and_eq_true]
    exact ⟨⟨Expr.agrees_common key keys keys', Expr.agrees_common value values values'⟩,
      Expr.pairsAgree_common rest rows rows'⟩

theorem Statement.agrees_common : ∀ (tree : Statement) {other another : Statement},
    tree.agrees other = true → tree.agrees another = true → other.agrees another = true
  | .binding token name value, other, another, same, same' => by
    obtain ⟨_, _, _, rfl, tokens, names, values⟩ := Statement.agrees_binding same
    obtain ⟨_, _, _, rfl, tokens', names', values'⟩ := Statement.agrees_binding same'
    have inner := Expr.valuesAgree_common value values values'
    grind [Statement.agrees, Identifier.agrees, Token.agrees]
  | .giveBack token value, other, another, same, same' => by
    obtain ⟨_, _, rfl, tokens, values⟩ := Statement.agrees_giveBack same
    obtain ⟨_, _, rfl, tokens', values'⟩ := Statement.agrees_giveBack same'
    have inner := Expr.valuesAgree_common value values values'
    grind [Statement.agrees, Token.agrees]
  | .expression token value, other, another, same, same' => by
    obtain ⟨_, _, rfl, values⟩ := Statement.agrees_expression same
    obtain ⟨_, _, rfl, values'⟩ := Statement.agrees_expression same'
    have inner := Expr.valuesAgree_common value values values'
    grind [Statement.agrees, Token.agrees]
  | .block body, other, another, same, same' => by
    obtain ⟨_, rfl, bodies⟩ := Statement.agrees_block same
    obtain ⟨_, rfl, bodies'⟩ := Statement.agrees_block same'
    have inner := Block.agrees_common body bodies bodies'
    grind [Statement.agrees]

theorem Block.agrees_common : ∀ (block : Block) {other another : Block},
    block.agrees other = true → block.agrees another = true → other.agrees another = true
  | ⟨token, statements⟩, ⟨token', statements'⟩, ⟨token'', statements''⟩, same, same' => by
    have inner := Statement.allAgree_common statements (Block.allAgree_of_agrees same)
      (Block.allAgree_of_agrees same')
    grind [Block.agrees, Token.agrees]

theorem Block.alternativesAgree_common : ∀ (block : Option Block) {other another : Option Block},
    Block.alternativesAgree block other = true → Block.alternativesAgree block another = true →
      Block.alternativesAgree other another = true
  | none, other, another, same, same' => by
    rw [Block.alternativesAgree_none same]
    exact same'
  | some block, other, another, same, same' => by
    obtain ⟨_, rfl, blocks⟩ := Block.alternativesAgree_some same
    obtain ⟨_, rfl, blocks'⟩ := Block.alternativesAgree_some same'
    simpa only [Block.alternativesAgree] using Block.agrees_common block blocks blocks'

theorem Statement.allAgree_common : ∀ (list : List Statement) {others more : List Statement},
    Statement.allAgree list others = true → Statement.allAgree list more = true →
      Statement.allAgree others more = true
  | [], others, more, same, same' => by
    rw [Statement.allAgree_nil same]
    exact same'
  | statement :: rest, others, more, same, same' => by
    obtain ⟨_, _, rfl, first, rows⟩ := Statement.allAgree_cons same
    obtain ⟨_, _, rfl, first', rows'⟩ := Statement.allAgree_cons same'
    simp only [Statement.allAgree, Bool.and_eq_true]
    have inner := Statement.agrees_common statement first first'
    exact ⟨inner, Statement.allAgree_common rest rows rows'⟩

end

/-! Every tree agrees with itself. -/

theorem Token.agrees_self (token : Token) : token.agrees token = true :=
  agrees_iff.mpr ⟨rfl, rfl⟩

theorem Identifier.agrees_self (name : Identifier) : name.agrees name = true := by
  simp [agrees, Token.agrees_self]

theorem Identifier.allAgree_self : ∀ names : List Identifier, allAgree names names = true
  | [] => rfl
  | name :: names => by simp [allAgree, agrees_self name, allAgree_self names]

mutual

theorem Expr.agrees_self : ∀ tree : Expr, tree.agrees tree = true
  | .identifier name => by simp [Expr.agrees, Identifier.agrees_self]
  | .integer _ _ | .boolean _ _ | .string _ _ => by simp [Expr.agrees, Token.agrees_self]
  | .unary _ _ right => by simp [Expr.agrees, Token.agrees_self, Expr.agrees_self right]
  | .binary _ left _ right => by
    simp [Expr.agrees, Token.agrees_self, Expr.agrees_self left, Expr.agrees_self right]
  | .conditional _ condition yes no => by
    simp [Expr.agrees, Token.agrees_self, Expr.agrees_self condition, Block.agrees_self yes,
      Block.alternativesAgree_self no]
  | .function _ _ body => by
    simp [Expr.agrees, Token.agrees_self, Identifier.allAgree_self, Block.agrees_self body]
  | .call _ callee arguments => by
    simp [Expr.agrees, Token.agrees_self, Expr.agrees_self callee, Expr.allAgree_self arguments]
  | .array _ elements => by simp [Expr.agrees, Token.agrees_self, Expr.allAgree_self elements]
  | .hash _ pairs => by simp [Expr.agrees, Token.agrees_self, Expr.pairsAgree_self pairs]
  | .index _ left position => by
    simp [Expr.agrees, Token.agrees_self, Expr.agrees_self left, Expr.agrees_self position]
  | .slice _ left lower upper => by
    simp [Expr.agrees, Token.agrees_self, Expr.agrees_self left, Expr.valuesAgree_self lower,
      Expr.valuesAgree_self upper]
  | .unknown => by simp [Expr.agrees]

theorem Expr.valuesAgree_self : ∀ value : Option Expr, Expr.valuesAgree value value = true
  | none => by simp [Expr.valuesAgree]
  | some value => by simp [Expr.valuesAgree, Expr.agrees_self value]

theorem Expr.allAgree_self : ∀ list : List Expr, Expr.allAgree list list = true
  | [] => by simp [Expr.allAgree]
  | expr :: rest => by simp [Expr.allAgree, Expr.agrees_self expr, Expr.allAgree_self rest]

theorem Expr.pairsAgree_self : ∀ list : List (Expr × Expr), Expr.pairsAgree list list = true
  | [] => by simp [Expr.pairsAgree]
  | (key, value) :: rest => by
    simp [Expr.pairsAgree, Expr.agrees_self key, Expr.agrees_self value, Expr.pairsAgree_self rest]

theorem Statement.agrees_self : ∀ tree : Statement, tree.agrees tree = true
  | .binding _ _ value => by
    simp [Statement.agrees, Token.agrees_self, Identifier.agrees_self, Expr.valuesAgree_self value]
  | .giveBack _ value | .expression _ value => by
    simp [Statement.agrees, Token.agrees_self, Expr.valuesAgree_self value]
  | .block body => by simp [Statement.agrees, Block.agrees_self body]

theorem Statement.allAgree_self : ∀ list : List Statement, Statement.allAgree list list = true
  | [] => by simp [Statement.allAgree]
  | statement :: rest => by
    simp [Statement.allAgree, Statement.agrees_self statement, Statement.allAgree_self rest]

theorem Block.agrees_self : ∀ block : Block, block.agrees block = true
  | ⟨token, statements⟩ => by
    simp [Block.agrees, token.agrees_self, Statement.allAgree_self statements]

theorem Block.alternativesAgree_self :
    ∀ alternative : Option Block, Block.alternativesAgree alternative alternative = true
  | none => by simp [Block.alternativesAgree]
  | some block => by simp [Block.alternativesAgree, Block.agrees_self block]

end

theorem Program.agrees_self (program : Program) : program.agrees program = true :=
  Statement.allAgree_self program.statements

end Monkey

import Mana.Proofs.Grammar.Derivation

/-! First tokens of derived words, and what may follow an expression. A statement may end without a
semicolon and the next one begin like a call or an operation, so that an expression may go on into what
was meant to follow it; what may follow is such that nothing is lost by that. -/
namespace Mana.Grammar

variable {forms stack other : List Form} {token : Token} {word more : List Token}

namespace Derives

private theorem split_none (derives : Derives forms word) (same : [] ++ stack = forms) :
    ∃ first second, word = first ++ second ∧ Derives [] first ∧ Derives stack second := by
  cases same
  exact ⟨[], word, rfl, .nil, derives⟩

/-- A word of forms in a row is a word of the first ones and a word of the others. -/
theorem split (derives : Derives (forms ++ stack) word) :
    ∃ first second, word = first ++ second ∧ Derives forms first ∧ Derives stack second := by
  generalize same : forms ++ stack = all at derives
  induction derives generalizing forms with
  | nil =>
    obtain ⟨rfl, rfl⟩ := List.append_eq_nil_iff.mp same
    exact ⟨[], [], rfl, .nil, .nil⟩
  | token kind range rest ih =>
    cases forms with
    | nil => exact split_none (.token kind range rest) same
    | cons form forms =>
      cases same
      obtain ⟨first, second, rfl, derives, derives'⟩ := ih rfl
      exact ⟨_ :: first, second, rfl, .token kind range derives, derives'⟩
  | part rule member rest ih =>
    cases forms with
    | nil => exact split_none (.part rule member rest) same
    | cons form forms =>
      cases same
      obtain ⟨first, second, rfl, derives, derives'⟩ := ih (List.append_assoc ..)
      exact ⟨first, second, rfl, .part rule member derives, derives'⟩
  | without rest ih =>
    cases forms with
    | nil => exact split_none (.without rest) same
    | cons form forms =>
      cases same
      obtain ⟨first, second, rfl, derives, derives'⟩ := ih rfl
      exact ⟨first, second, rfl, .without derives, derives'⟩
  | within rest ih =>
    cases forms with
    | nil => exact split_none (.within rest) same
    | cons form forms =>
      cases same
      obtain ⟨first, second, rfl, derives, derives'⟩ := ih (List.append_assoc ..)
      exact ⟨first, second, rfl, .within derives, derives'⟩
  | enough rest ih =>
    cases forms with
    | nil => exact split_none (.enough rest) same
    | cons form forms =>
      cases same
      obtain ⟨first, second, rfl, derives, derives'⟩ := ih rfl
      exact ⟨first, second, rfl, .enough derives, derives'⟩
  | again rest ih =>
    cases forms with
    | nil => exact split_none (.again rest) same
    | cons form forms =>
      cases same
      obtain ⟨first, second, rfl, derives, derives'⟩ := ih (List.append_assoc _ (_ :: forms) stack)
      exact ⟨first, second, rfl, .again derives, derives'⟩

/-- What comes last may be anything that derives as much. -/
theorem replace (derives : Derives (forms ++ stack) word)
    (replaces : ∀ word, Derives stack word → Derives other word) : Derives (forms ++ other) word := by
  obtain ⟨first, second, rfl, derives, rest⟩ := derives.split
  exact derives.append (replaces second rest)

theorem token_cons_iff : Derives (.token wanted :: forms) (token :: word) ↔
    token.kind = wanted ∧ token.InRange ∧ Derives forms word := by
  constructor
  · rintro (_ | ⟨kind, range, rest⟩)
    exact ⟨kind, range, rest⟩
  · intro holds
    obtain ⟨kind, range, rest⟩ := holds
    exact .token kind range rest

theorem one_of {category : Category} {kinds : List Kind}
    (rules : category.rules = kinds.map fun kind => [.token kind])
    (derives : Derives (.part category :: stack) (token :: more)) : token.kind ∈ kinds ∧ Derives stack more := by
  obtain ⟨rule, member, rest⟩ := part_iff.mp derives
  rw [rules] at member
  obtain ⟨kind, operator, rfl⟩ := List.mem_map.mp member
  obtain ⟨rfl, _, rest⟩ := token_cons_iff.mp rest
  exact ⟨operator, rest⟩

/-- An operand begins with an operator before another operand, or is a primary expression and its calls. -/
theorem unary_cases (derives : Derives (.part .unary :: stack) (token :: more)) :
    (token.kind ∈ unaryOperators ∧ Derives (.part .unary :: stack) more) ∨
      Derives (.part .primary :: .calls :: stack) (token :: more) := by
  rcases many_iff.mp (unary_iff.mp derives) with rest | rest
  · exact .inr rest
  · obtain ⟨kind, rest⟩ := rest.one_of rfl
    exact .inl ⟨kind, unary_iff.mpr rest⟩

theorem primary_cases (derives : Derives (.part .primary :: stack) (token :: more)) :
    (token.kind = .ident ∧ Derives stack more) ∨
    (token.kind = .int ∧ token.InRange ∧ Derives stack more) ∨
    (token.kind ∈ [.trueKeyword, .falseKeyword] ∧ Derives stack more) ∨
    (token.kind = .lparen ∧ Derives (.part .expression :: .token .rparen :: stack) more) ∨
    (token.kind = .ifKeyword ∧ Derives (.token .lparen :: .part .expression :: .token .rparen :: .part .block ::
      .optional [.token .elseKeyword, .part .block] :: stack) more) ∨
    (token.kind = .function ∧ Derives (.token .lparen :: .series (.token .ident) :: .token .rparen ::
      .part .block :: stack) more) := by
  obtain ⟨rule, member, rest⟩ := part_iff.mp derives
  simp only [Category.rules, List.mem_cons, List.not_mem_nil, or_false] at member
  rcases member with rfl | rfl | rfl | rfl | rfl | rfl | rfl <;>
    obtain ⟨kind, range, rest⟩ := token_cons_iff.mp rest
  · exact .inl ⟨kind, rest⟩
  · exact .inr (.inl ⟨kind, range, rest⟩)
  · exact .inr (.inr (.inl ⟨by simp [kind], rest⟩))
  · exact .inr (.inr (.inl ⟨by simp [kind], rest⟩))
  · exact .inr (.inr (.inr (.inl ⟨kind, rest⟩)))
  · exact .inr (.inr (.inr (.inr (.inl ⟨kind, rest⟩))))
  · exact .inr (.inr (.inr (.inr (.inr ⟨kind, rest⟩))))

/-- A primary expression begins with no operator. -/
theorem primary_begins (derives : Derives (.part .primary :: stack) (token :: more)) :
    token.kind ∉ unaryOperators ∧ token.kind ≠ .eof := by
  rcases derives.primary_cases with ⟨same, _⟩ | ⟨same, _⟩ | ⟨kind, _⟩ | ⟨same, _⟩ | ⟨same, _⟩ | ⟨same, _⟩
  · rw [same]; decide
  · rw [same]; decide
  · simp only [List.mem_cons, List.not_mem_nil, or_false] at kind
    rcases kind with same | same <;> rw [same] <;> decide
  · rw [same]; decide
  · rw [same]; decide
  · rw [same]; decide

theorem opening (derives : Derives (.part .unary :: stack) (token :: more)) :
    ∃ opening, Rules.standard.opening token.kind = some opening := by
  rcases derives.unary_cases with ⟨kind, _⟩ | primary
  · simp only [unaryOperators, List.mem_cons, List.not_mem_nil, or_false] at kind
    rcases kind with same | same <;> exact ⟨_, by rw [same]; rfl⟩
  · rcases primary.primary_cases with ⟨same, _⟩ | ⟨same, _⟩ | ⟨kind, _⟩ | ⟨same, _⟩ | ⟨same, _⟩ | ⟨same, _⟩
    · exact ⟨_, by rw [same]; rfl⟩
    · exact ⟨_, by rw [same]; rfl⟩
    · simp only [List.mem_cons, List.not_mem_nil, or_false] at kind
      rcases kind with same | same <;> exact ⟨_, by rw [same]; rfl⟩
    · exact ⟨_, by rw [same]; rfl⟩
    · exact ⟨_, by rw [same]; rfl⟩
    · exact ⟨_, by rw [same]; rfl⟩

theorem statement_cases (derives : Derives (.part .statement :: stack) (token :: more)) :
    (token.kind = .letKeyword ∧ Derives (.token .ident :: .token .assign :: .part .expression ::
      .optional [.token .semicolon] :: stack) more) ∨
    (token.kind = .returnKeyword ∧ Derives (.part .expression :: .optional [.token .semicolon] :: stack) more) ∨
    Derives (.part .expression :: .optional [.token .semicolon] :: stack) (token :: more) := by
  obtain ⟨rule, member, rest⟩ := part_iff.mp derives
  simp only [Category.rules, List.mem_cons, List.not_mem_nil, or_false] at member
  rcases member with rfl | rfl | rfl
  · obtain ⟨kind, _, rest⟩ := token_cons_iff.mp rest
    exact .inl ⟨kind, rest⟩
  · obtain ⟨kind, _, rest⟩ := token_cons_iff.mp rest
    exact .inr (.inl ⟨kind, rest⟩)
  · exact .inr (.inr rest)

theorem statement_begins (derives : Derives (.part .statement :: stack) (token :: more)) :
    token.kind ≠ .semicolon ∧ token.kind ≠ .rbrace ∧ token.kind ≠ .eof := by
  rcases derives.statement_cases with ⟨kind, _⟩ | ⟨kind, _⟩ | rest
  · simp [kind]
  · simp [kind]
  · obtain ⟨opening, found⟩ := (expression_iff.mp rest).opening
    refine ⟨?_, ?_, ?_⟩ <;>
    · intro same
      rw [same] at found
      cases found

end Derives

/-- A kind that extends no expression, and is not `else`. -/
def EndsExpression (kind : Kind) : Prop := kind ≠ .elseKeyword ∧ kind ∉ binaryOperators ∧ kind ≠ .lparen

instance : Decidable (EndsExpression kind) := inferInstanceAs (Decidable (_ ∧ _ ∧ _))

/-- How a word that follows an expression relates to it: it begins with a token that ends the expression,
or it is an operation or a call that the like may follow. -/
inductive Absorbs (stack : List Form) (token : Token) (more : List Token) : Prop where
  | ends (ends : EndsExpression token.kind)
  | operation (kind : token.kind ∈ binaryOperators)
    (operand : Derives (.part .unary :: .operations :: stack) more)
  | call (kind : token.kind = .lparen) (arguments : Derives (.series (.part .expression) :: .token .rparen ::
      .calls :: .operations :: stack) more)

theorem Absorbs.of_kind (same : token.kind = kind) (ends : EndsExpression kind) : Absorbs stack token more :=
  .ends (same ▸ ends)

theorem Absorbs.notElse (absorbs : Absorbs stack token more) : token.kind ≠ .elseKeyword := by
  cases absorbs with
  | ends ends => exact ends.1
  | operation kind _ =>
    intro same
    rw [same] at kind
    exact absurd kind (by decide)
  | call kind _ => simp [kind]

/-- Whatever the forms derive may follow an expression, even one that goes on as long as it can. -/
def Absorbable (stack : List Form) : Prop :=
  ∀ token more, Derives stack (token :: more) → Absorbs stack token more

namespace Absorbable

theorem of_token (ends : EndsExpression kind) : Absorbable (.token kind :: stack) :=
  fun _ _ derives => .of_kind (Derives.token_cons_iff.mp derives).1 ends

theorem of_series (form : Form) (ends : EndsExpression kind) :
    Absorbable (.many [.token .comma, form] :: .token kind :: stack) := by
  intro token more derives
  rcases Derives.many_iff.mp derives with rest | rest
  · exact .of_kind (Derives.token_cons_iff.mp rest).1 ends
  · exact .of_kind (Derives.token_cons_iff.mp rest).1 (by decide)

/-- What follows a statement without a semicolon may begin with a minus sign or a parenthesis, and is then
as good as an operation on its value or a call of it. -/
theorem of_statements (ends : EndsExpression kind) :
    Absorbable (.optional [.token .semicolon] :: .many [.part .statement] :: .token kind :: stack) := by
  intro token more derives
  rcases Derives.optional_iff.mp derives with rest | rest
  · rcases Derives.many_iff.mp rest with rest | rest
    · exact .of_kind (Derives.token_cons_iff.mp rest).1 ends
    · rcases rest.statement_cases with ⟨same, _⟩ | ⟨same, _⟩ | expression
      · exact .of_kind same (by decide)
      · exact .of_kind same (by decide)
      · rcases (Derives.expression_iff.mp expression).unary_cases with ⟨kind, operand⟩ | primary
        · by_cases minus : token.kind = .minus
          · exact .operation (minus ▸ by decide) operand
          · have bang : token.kind = .bang := by simpa [unaryOperators, minus] using kind
            exact .of_kind bang (by decide)
        · rcases primary.primary_cases with ⟨same, _⟩ | ⟨same, _⟩ | ⟨kind, _⟩ | ⟨same, inner⟩ |
            ⟨same, _⟩ | ⟨same, _⟩
          · exact .of_kind same (by decide)
          · exact .of_kind same (by decide)
          · simp only [List.mem_cons, List.not_mem_nil, or_false] at kind
            rcases kind with same | same <;> exact .of_kind same (by decide)
          · refine .call same (.within ?_)
            have argument : Derives ([.part .expression] ++ _) more := inner
            exact argument.replace fun _ rest => .enough rest
          · exact .of_kind same (by decide)
          · exact .of_kind same (by decide)
  · exact .of_kind (Derives.token_cons_iff.mp rest).1 (by decide)

/-- After an operand, what is left is an operation, a call, or what follows the expression. -/
theorem rest (absorbable : Absorbable stack)
    (derives : Derives (.calls :: .operations :: stack) (token :: more)) :
    Absorbs stack token more ∧ (EndsExpression token.kind → Derives stack (token :: more)) := by
  rcases Derives.many_iff.mp derives with rest | rest
  · rcases Derives.many_iff.mp rest with rest | rest
    · exact ⟨absorbable token more rest, fun _ => rest⟩
    · obtain ⟨kind, operand⟩ := rest.one_of rfl
      exact ⟨.operation kind operand, fun ends => absurd kind ends.2.1⟩
  · obtain ⟨kind, _, arguments⟩ := Derives.token_cons_iff.mp rest
    exact ⟨.call kind arguments, fun ends => absurd kind ends.2.2⟩

end Absorbable

end Mana.Grammar

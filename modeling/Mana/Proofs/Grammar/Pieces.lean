import Mana.Proofs.Grammar.Clean
import Mana.Proofs.Grammar.Climbing

/-! Forms around pieces. A form that is put together from pieces, each of which is read alone without a fault, is read
as what the pieces mean. -/
namespace Mana

open Grammar Parse

/-- The words of a piece in parentheses. -/
def groupedWords (words : List Word) : List Word := (.lparen, ['(']) :: (words ++ [(.rparen, [')'])])

/-- The words of a piece in braces. -/
def bracedWords (words : List Word) : List Word := (.lbrace, ['\x7b']) :: (words ++ [(.rbrace, ['\x7d'])])

@[simp] theorem length_groupedWords (words : List Word) : (groupedWords words).length = words.length + 2 := by
  simp [groupedWords]

@[simp] theorem length_bracedWords (words : List Word) : (bracedWords words).length = words.length + 2 := by
  simp [bracedWords]

namespace Grammar

variable {levels : Nat} {stream beyond : TokenStream} {tree left right : Node} {text : Text}

theorem halts_ended (ended : beyond.current.kind = .eof) (strength : Int) : Halts strength beyond.current :=
  .inr (.inr (by rw [ended]; rfl))

/-! Expressions. -/

/-- An operand up to the end is a whole expression of any strength. -/
theorem expression_of_opened (strength : Int)
    (yields : ((opened .standard (expression .standard levels)).run stream).Yields tree beyond)
    (ended : beyond.current.kind = .eof) :
    ((expression .standard (levels + 1) strength).run stream).Yields tree beyond := by
  obtain ⟨node, rest, ran, alike, rfl⟩ := yields
  refine ⟨node, rest, ?_, alike, rfl⟩
  rw [expression, run_bind_done ran, Step.since_nil]
  exact run_extended_halts _ node (rest.upcoming_eq ▸ halts_ended ended strength)

theorem run_grouped (derives : Derives [.part .expression] (scan text).ahead) (deep : (scan text).count < levels)
    (leads : stream.Leads (groupedWords text.lexemes) beyond) :
    stream.current.kind = .lparen ∧ ∃ node rest,
      (whole (expression .standard levels)).run stream.advanced = ⟨.done node, rest, []⟩ ∧
        node.Says text.expression ∧ rest.upcoming.kind = .rparen ∧ rest.advanced.advanced = beyond := by
  obtain ⟨opening, _, inner⟩ := leads.cons
  obtain ⟨middle, front, closing⟩ := inner.append
  obtain ⟨closed, _, after⟩ := closing.cons
  obtain ⟨node, rest, ran, alike, rfl⟩ := Text.expression_yields derives deep front (by rw [closed]; decide)
  exact ⟨opening, node, rest, ran, alike, closed, after.eq_rest⟩

theorem yields_grouped (derives : Derives [.part .expression] (scan text).ahead) (deep : (scan text).count < levels)
    (leads : stream.Leads (groupedWords text.lexemes) beyond) :
    ((opened .standard (expression .standard levels)).run stream).Yields text.expression beyond := by
  obtain ⟨opening, node, rest, ran, alike, closed, rfl⟩ := run_grouped derives deep leads
  refine ⟨node, rest.advanced, ?_, alike, rfl⟩
  rw [opened, run_current_bind, opening]
  change (whole (expression .standard levels) >>= fun node => expect .rparen >>= fun _ => pure node).run
    stream.advanced = _
  rw [run_bind_done ran, run_expect_bind, if_pos closed]
  rfl

/-- An operand, an operator and another operand up to the end are an operation. -/
theorem yields_binary {operator : Kind} {middle : TokenStream} (own : operator ∈ binaryOperators)
    (lefts : ((opened .standard (expression .standard (levels + 1))).run stream).Yields left middle)
    (leads : middle.Leads [(operator, operator.spelling)] other)
    (rights : ((opened .standard (expression .standard levels)).run other).Yields right beyond)
    (ended : beyond.current.kind = .eof) :
    ((expression .standard (levels + 2) Level.lowest.strength).run stream).Yields
      (.binary none left operator.spelling right) beyond := by
  obtain ⟨node, rest, ran, alike, rfl⟩ := lefts
  obtain ⟨kind, literal, inner⟩ := leads.cons
  obtain rfl := inner.eq_rest
  obtain ⟨node', rest', ran', alike', rfl⟩ := expression_of_opened operator.strength rights ended
  obtain ⟨going, _⟩ := extended_binary node own (binary_weak own).1 kind ran'
  have longer : (Node.binary (some rest.advanced.current) node rest.advanced.current.literal node').Says
      (.binary none left operator.spelling right) := literal ▸ .binary _ alike alike'
  refine ⟨_, rest', ?_, longer, rfl⟩
  rw [expression, run_bind_done ran, Step.since_nil, going]
  exact run_extended_halts _ _ (rest'.upcoming_eq ▸ halts_ended ended _)

/-- An operand and arguments in parentheses up to the end are a call. -/
theorem yields_call {arguments : List Text} {middle : TokenStream}
    (callees : ((opened .standard (expression .standard levels)).run stream).Yields left middle)
    (derives : ∀ argument ∈ arguments, Derives [.part .expression] (scan argument).ahead)
    (deep : ∀ argument ∈ arguments, (scan argument).count < levels)
    (leads : middle.Leads (argumentLexemes arguments ++ []) beyond) (ended : beyond.current.kind = .eof) :
    ((expression .standard (levels + 1) Level.lowest.strength).run stream).Yields
      (.call none left (arguments.map Text.expression)) beyond := by
  obtain ⟨node, rest, ran, alike, rfl⟩ := callees
  have weak : Level.lowest.strength < Level.call.strength := by decide
  obtain ⟨longer, rest', going, called, after, _⟩ := extended_call derives deep weak leads alike
  obtain rfl := after.eq_rest
  refine ⟨longer, rest', ?_, called, rfl⟩
  rw [expression, run_bind_done ran, Step.since_nil, going]
  exact run_extended_halts _ _ (rest'.upcoming_eq ▸ halts_ended ended _)

/-! Expressions that end with blocks. -/

section Blocks

variable {body other : Text} {bodies others : List Node}

theorem run_braced (clean : Clean levels (scan body) bodies)
    (leads : stream.advanced.Leads (bracedWords body.lexemes) beyond) :
    stream.upcoming.kind = .lbrace ∧ ∃ node rest,
      (block (expression .standard levels)).run stream.advanced = ⟨.done node, rest, []⟩ ∧
        node.Says (.block none bodies) ∧ rest.advanced = beyond := by
  obtain ⟨opening, _, inner⟩ := leads.cons
  obtain ⟨middle, front, closing⟩ := inner.append
  obtain ⟨closed, _, after⟩ := closing.cons
  obtain ⟨nodes, collected, all⟩ := clean.block (front.abreast clean.not_opened) closed
  refine ⟨opening, .block (some stream.advanced.current) nodes, middle, ?_, .block all, after.eq_rest⟩
  rw [run_block, collected]
  rfl

/-- What comes after the block of a conditional: `else` and another block, or nothing. -/
def alternatively (nested : Nested) (token : Token) (condition consequence : Node) : Parse Node := do
  if (← upcoming).kind = .elseKeyword then
    advance
    expect .lbrace
    let alternative ← block nested
    return .conditional (some token) condition consequence (some alternative)
  else return .conditional (some token) condition consequence none

variable (derives : Derives [.part .expression] (scan text).ahead) (deep : (scan text).count < levels)
  (clean : Clean levels (scan body) bodies)
include derives deep clean

theorem opened_condition
    (leads : stream.Leads (Kind.ifKeyword.word :: (groupedWords text.lexemes ++ bracedWords body.lexemes)) beyond) :
    ∃ condition consequence rest, (opened .standard (expression .standard levels)).run stream =
        (alternatively (expression .standard levels) stream.current condition consequence).run rest ∧
      condition.Says text.expression ∧ consequence.Says (.block none bodies) ∧ rest.advanced = beyond := by
  obtain ⟨keyword, _, leads⟩ := leads.cons
  obtain ⟨middle, front, blocked⟩ := leads.append
  obtain ⟨opening, condition, rest, ran, alike, closed, rfl⟩ := run_grouped derives deep front
  obtain ⟨brace, consequence, last, ran', alike', rfl⟩ := run_braced clean blocked
  refine ⟨condition, consequence, last, ?_, alike, alike', rfl⟩
  rw [opened, run_current_bind, keyword]
  change (conditional (expression .standard levels)).run stream = _
  rw [conditional, run_current_bind, run_expect_bind, if_pos (stream.upcoming_eq ▸ opening)]
  change (whole (expression .standard levels) >>= fun condition => _).run stream.advanced.advanced = _
  rw [run_bind_done ran, Step.since_nil, run_expect_bind, if_pos closed, run_expect_bind, if_pos brace,
    run_bind_done ran', Step.since_nil]
  rfl

theorem yields_conditional (notElse : beyond.current.kind ≠ .elseKeyword)
    (leads : stream.Leads (Kind.ifKeyword.word :: (groupedWords text.lexemes ++ bracedWords body.lexemes)) beyond) :
    ((opened .standard (expression .standard levels)).run stream).Yields
      (.conditional none text.expression (.block none bodies) none) beyond := by
  obtain ⟨condition, consequence, rest, ran, alike, alike', rfl⟩ := opened_condition derives deep clean leads
  refine ⟨.conditional (some stream.current) condition consequence none, rest, ?_, .conditional alike alike', rfl⟩
  rw [ran]
  simp only [alternatively, run_upcoming_bind]
  rw [if_neg (rest.upcoming_eq ▸ notElse)]
  rfl

theorem yields_conditionalElse (otherClean : Clean levels (scan other) others)
    (leads : stream.Leads (Kind.ifKeyword.word :: (groupedWords text.lexemes ++ bracedWords body.lexemes) ++
      Kind.elseKeyword.word :: bracedWords other.lexemes) beyond) :
    ((opened .standard (expression .standard levels)).run stream).Yields
      (.conditional none text.expression (.block none bodies) (some (.block none others))) beyond := by
  obtain ⟨middle, front, leads⟩ := leads.append
  obtain ⟨condition, consequence, rest, ran, alike, alike', rfl⟩ := opened_condition derives deep clean front
  obtain ⟨keyword, _, blocked⟩ := leads.cons
  obtain ⟨brace, alternative, last, ran', alike'', rfl⟩ := run_braced otherClean blocked
  refine ⟨.conditional (some stream.current) condition consequence (some alternative), last, ?_,
    .conditionalElse alike alike' alike'', rfl⟩
  rw [ran]
  simp only [alternatively, run_upcoming_bind]
  rw [if_pos (rest.upcoming_eq ▸ keyword)]
  change (expect .lbrace >>= fun _ => block (expression .standard levels) >>= fun alternative =>
    pure (Node.conditional (some stream.current) condition consequence (some alternative))).run rest.advanced = _
  rw [run_expect_bind, if_pos brace, run_bind_done ran']
  rfl

end Blocks

theorem itemizes_parameter (name : Text) : parameter.Itemizes [(.ident, name)] (.identifier none name) := by
  refine ⟨⟨_, _, rfl, nofun⟩, fun stream beyond leads _ => ?_⟩
  obtain ⟨kind, literal, after⟩ := leads.cons
  refine ⟨.identifier (some stream.current) name, stream, ?_, .identifier name, after.eq_rest⟩
  simp only [parameter, run_current_bind]
  rw [if_pos kind, literal]
  rfl

theorem yields_function {names : List Text} {body : Text} {bodies : List Node} (clean : Clean levels (scan body) bodies)
    (leads : stream.Leads (Kind.function.word :: (groupedWords (commaWords (names.map fun name => [(.ident, name)])) ++
      bracedWords body.lexemes)) beyond) :
    ((opened .standard (expression .standard levels)).run stream).Yields
      (.function none (names.map (.identifier none)) (.block none bodies)) beyond := by
  obtain ⟨keyword, _, leads⟩ := leads.cons
  obtain ⟨middle, front, blocked⟩ := leads.append
  obtain ⟨opening, _, inner⟩ := front.cons
  have items : List.Forall₂ parameter.Itemizes (names.map fun name => [(.ident, name)])
      (names.map (.identifier none)) :=
    List.forall₂_map_left_iff.mpr (List.forall₂_map_right_iff.mpr (List.forall₂_same.mpr fun name _ =>
      itemizes_parameter name))
  obtain ⟨nodes, rest, ran, all, rfl⟩ := run_series items inner
  obtain ⟨brace, node, last, ran', alike, rfl⟩ := run_braced clean blocked
  refine ⟨.function (some stream.current) nodes node, last, ?_, .function all alike, rfl⟩
  rw [opened, run_current_bind, keyword]
  change (function (expression .standard levels)).run stream = _
  rw [function, run_current_bind, run_expect_bind, if_pos (stream.upcoming_eq ▸ opening), run_bind_done ran,
    run_expect_bind, if_pos brace, run_bind_done ran']
  rfl

/-! Statements. -/

section Expression

variable (derives : Derives [.part .expression] (scan text).ahead) (deep : (scan text).count < levels)
  (ended : beyond.current.kind = .eof)
include derives deep ended

theorem yields_let {name : Text}
    (leads : stream.Leads (Kind.letKeyword.word :: (.ident, name) :: Kind.assign.word :: text.lexemes) beyond) :
    ((statement (expression .standard levels)).run stream).Yields
      (.letStatement none (.identifier none name) text.expression) beyond := by
  obtain ⟨keyword, _, leads⟩ := leads.cons
  obtain ⟨ident, literal, leads⟩ := leads.cons
  obtain ⟨assign, _, leads⟩ := leads.cons
  obtain ⟨node, rest, ran, alike, rfl⟩ := Text.expression_yields derives deep leads (by rw [ended]; decide)
  refine ⟨.letStatement (some stream.current) (.identifier (some stream.advanced.current) name) node, rest, ?_,
    .letStatement (.identifier name) alike, rfl⟩
  rw [statement, run_current_bind, if_pos keyword, letStatement, run_current_bind, run_expect_bind,
    if_pos (stream.upcoming_eq ▸ ident), run_current_bind, run_expect_bind,
    if_pos (stream.advanced.upcoming_eq ▸ assign)]
  change (whole (expression .standard levels) >>= fun value => _).run stream.advanced.advanced.advanced = _
  rw [whole, run_bind_done ran, run_acceptSemicolon_bind, if_neg (by rw [rest.upcoming_eq, ended]; decide), literal]
  rfl

theorem yields_return (leads : stream.Leads (Kind.returnKeyword.word :: text.lexemes) beyond) :
    ((statement (expression .standard levels)).run stream).Yields (.returnStatement none text.expression) beyond := by
  obtain ⟨keyword, _, leads⟩ := leads.cons
  obtain ⟨node, rest, ran, alike, rfl⟩ := Text.expression_yields derives deep leads (by rw [ended]; decide)
  refine ⟨.returnStatement (some stream.current) node, rest, ?_, .returnStatement alike, rfl⟩
  rw [statement, run_current_bind, if_neg (by rw [keyword]; decide), if_pos keyword, returnStatement, run_current_bind]
  change (whole (expression .standard levels) >>= fun value => _).run stream.advanced = _
  rw [whole, run_bind_done ran, run_acceptSemicolon_bind, if_neg (by rw [rest.upcoming_eq, ended]; decide)]
  rfl

end Expression

end Grammar

end Mana

import Mana.Proofs.Grammar.Pieces
import Mana.Proofs.Token.Composed

/-! Composition. What is parsed of a text that is put together from pieces is put together from what is parsed of the
pieces, however they are written, and parentheses around a piece leave no trace. -/
namespace Mana

open Grammar

/-- The text is parsed as the statements, without a fault. -/
structure CleanText (text : Text) (statements : List Node) : Prop where
  going : nul ∉ text
  parsed : ∃ limit, (parseWithin limit text).diagnostics = [] ∧
    (parseWithin limit text).program.statements = statements

/-- The text is parsed as one statement, the expression, without a fault and without a semicolon at its end. -/
structure ExpressionText (text : Text) (tree : Node) : Prop where
  clean : ∃ token, CleanText text [.expressionStatement token tree]
  unsealed : ∀ token ∈ (scan text).ahead.getLast?, token.kind ≠ .semicolon

/-! Texts that are put together from pieces. -/
namespace Text

def grouped (text : Text) : Text := '(' :: (text ++ [')'])

def braced (text : Text) : Text := '\x7b' :: (text ++ ['\x7d'])

def listed (texts : List Text) : Text := grouped (joined ", ".toList texts)

def unary (operator : Kind) (right : Text) : Text := operator.spelling ++ right.grouped

def binary (left : Text) (operator : Kind) (right : Text) : Text :=
  left.grouped ++ ' ' :: (operator.spelling ++ ' ' :: right.grouped)

def call (callee : Text) (arguments : List Text) : Text := callee.grouped ++ listed arguments

def conditional (condition consequence : Text) : Text :=
  "if".toList ++ ' ' :: (condition.grouped ++ ' ' :: consequence.braced)

def conditionalElse (condition consequence alternative : Text) : Text :=
  conditional condition consequence ++ ' ' :: ("else".toList ++ ' ' :: alternative.braced)

def function (parameters : List Text) (body : Text) : Text :=
  "fn".toList ++ (listed parameters ++ ' ' :: body.braced)

def letStatement (name value : Text) : Text := "let".toList ++ ' ' :: (name ++ ' ' :: ('=' :: ' ' :: value))

def returnStatement (value : Text) : Text := "return".toList ++ ' ' :: value

end Text

/-- The text is put together from pieces, and the statement from what those are parsed as. -/
inductive Composed : Text → Node → Prop where
  | group (inner : ExpressionText text tree) : Composed text.grouped (.expressionStatement none tree)
  | unary (own : operator ∈ unaryOperators) (right : ExpressionText text tree) :
      Composed (.unary operator text) (.expressionStatement none (.unary none operator.spelling tree))
  | binary (own : operator ∈ binaryOperators) (left : ExpressionText text tree) (right : ExpressionText text' tree') :
      Composed (.binary text operator text') (.expressionStatement none (.binary none tree operator.spelling tree'))
  | call (callee : ExpressionText text tree) (arguments : List.Forall₂ ExpressionText texts trees) :
      Composed (.call text texts) (.expressionStatement none (.call none tree trees))
  | conditional (condition : ExpressionText text tree) (consequence : CleanText body statements) :
      Composed (.conditional text body)
        (.expressionStatement none (.conditional none tree (.block none statements) none))
  | conditionalElse (condition : ExpressionText text tree) (consequence : CleanText body statements)
      (alternative : CleanText body' statements') :
      Composed (.conditionalElse text body body') (.expressionStatement none
        (.conditional none tree (.block none statements) (some (.block none statements'))))
  | function (parameters : ∀ name ∈ names, IsName name) (clean : CleanText body statements) :
      Composed (.function names body)
        (.expressionStatement none (.function none (names.map (.identifier none)) (.block none statements)))
  | letStatement (own : IsName name) (value : ExpressionText text tree) :
      Composed (.letStatement name text) (.letStatement none (.identifier none name) tree)
  | returnStatement (value : ExpressionText text tree) : Composed (.returnStatement text) (.returnStatement none tree)

namespace CleanText

variable {text : Text} {statements : List Node}

/-- A limit above the number of tokens is as good as any other. -/
theorem deep (clean : CleanText text statements) (deep : (scan text).count < levels) :
    (parseWithin levels text).diagnostics = [] ∧ (parseWithin levels text).program.statements = statements := by
  obtain ⟨limit, clear, only⟩ := clean.parsed
  have unstruck : (Parsed.ofStream limit (scan text)).Unstruck := .of_nil clear
  rw [parseWithin, Parsed.ofStream_deep unstruck deep]
  exact ⟨clear, only⟩

theorem within (clean : CleanText text statements) (deep : (scan text).count < levels) :
    Clean levels (scan text) statements := by
  obtain ⟨clear, only⟩ := clean.deep deep
  exact only ▸ Clean.of_diagnostics (scan_genuine text) clear

end CleanText

namespace ExpressionText

variable {text : Text} {tree : Node}

theorem going (expression : ExpressionText text tree) : nul ∉ text :=
  expression.clean.elim fun _ clean => clean.going

/-- The text is one expression of the grammar, and the tree is its own. -/
theorem derives (expression : ExpressionText text tree) :
    Derives [.part .expression] (scan text).ahead ∧ text.expression = tree := by
  obtain ⟨token, clean⟩ := expression.clean
  obtain ⟨rest, ran, last⟩ := (clean.within (Nat.lt_succ_self _)).expression expression.unsealed
  exact ⟨derives_of_run ran last, Text.expression_eq ran last⟩

/-- Several texts have no NUL, are expressions of the grammar, and have the trees for their own. -/
theorem all {texts : List Text} {trees : List Node} (expressions : List.Forall₂ ExpressionText texts trees) :
    (∀ text ∈ texts, nul ∉ text) ∧ (∀ text ∈ texts, Derives [.part .expression] (scan text).ahead) ∧
      texts.map Text.expression = trees := by
  induction expressions with
  | nil => exact ⟨List.forall_mem_nil _, List.forall_mem_nil _, rfl⟩
  | cons first _ ih =>
    obtain ⟨going, derives, same⟩ := ih
    obtain ⟨own, tree⟩ := first.derives
    exact ⟨List.forall_mem_cons.mpr ⟨first.going, going⟩, List.forall_mem_cons.mpr ⟨own, derives⟩,
      congrArg₂ List.cons tree same⟩

end ExpressionText

/-! The words of texts that are put together. -/
namespace Text

variable {text rest : Text} {texts : List Text}

theorem lexemes_between (going : nul ∉ text) (opens : Kind.ofSymbol? first = some kind)
    (closes : Kind.ofSymbol? last = some kind') (rest : Text) :
    lexemes (first :: (text ++ last :: rest)) =
      (kind, [first]) :: (text.lexemes ++ (kind', [last]) :: rest.lexemes) := by
  rw [lexemes_symbol opens, lexemes_append going (.symbol closes), lexemes_symbol closes]

theorem lexemes_grouped_append (going : nul ∉ text) (rest : Text) :
    (text.grouped ++ rest).lexemes = groupedWords text.lexemes ++ rest.lexemes := by
  rw [grouped, List.cons_append, List.append_assoc, List.singleton_append, lexemes_between going rfl rfl, groupedWords,
    List.cons_append, List.append_assoc, List.singleton_append]

theorem lexemes_braced_append (going : nul ∉ text) (rest : Text) :
    (text.braced ++ rest).lexemes = bracedWords text.lexemes ++ rest.lexemes := by
  rw [braced, List.cons_append, List.append_assoc, List.singleton_append, lexemes_between going rfl rfl, bracedWords,
    List.cons_append, List.append_assoc, List.singleton_append]

theorem lexemes_grouped (going : nul ∉ text) : text.grouped.lexemes = groupedWords text.lexemes := by
  have alone := lexemes_grouped_append going []
  rwa [List.append_nil, show lexemes [] = [] from rfl, List.append_nil] at alone

theorem lexemes_braced (going : nul ∉ text) : text.braced.lexemes = bracedWords text.lexemes := by
  have alone := lexemes_braced_append going []
  rwa [List.append_nil, show lexemes [] = [] from rfl, List.append_nil] at alone

theorem lexemes_word (lexical : Lexical kind text) (rest : Text) :
    (text ++ ' ' :: rest).lexemes = (kind, text) :: rest.lexemes := by
  rw [lexemes_lexical lexical apart_blank, lexemes_space (by decide)]

theorem lexemes_name (name : IsName text) : text.lexemes = [(.ident, text)] := by
  have alone := lexemes_lexical name.lexical (Fresh.nil _ _)
  rwa [List.append_nil] at alone

theorem lexemes_others (going : ∀ text ∈ texts, nul ∉ text) :
    lexemes (texts.flatMap (", ".toList ++ ·)) = (texts.map lexemes).flatMap (Kind.comma.word :: ·) ∧
      Fresh (texts.flatMap (", ".toList ++ ·)) := by
  induction texts with
  | nil => exact ⟨rfl, .nil⟩
  | cons text texts ih =>
    obtain ⟨own, others⟩ := List.forall_mem_cons.mp going
    obtain ⟨words, fresh⟩ := ih others
    have split : (text :: texts).flatMap (", ".toList ++ ·) =
        ',' :: ' ' :: (text ++ texts.flatMap (", ".toList ++ ·)) := rfl
    rw [split, lexemes_symbol rfl, lexemes_space (by decide), lexemes_append own fresh, words]
    exact ⟨rfl, .symbol rfl⟩

theorem lexemes_joined (going : ∀ text ∈ texts, nul ∉ text) :
    (joined ", ".toList texts).lexemes = commaWords (texts.map lexemes) := by
  cases texts with
  | nil => rfl
  | cons text texts =>
    obtain ⟨own, others⟩ := List.forall_mem_cons.mp going
    obtain ⟨words, fresh⟩ := lexemes_others others
    rw [joined_cons, lexemes_append own fresh, words]
    rfl

theorem nul_not_mem_joined (going : ∀ text ∈ texts, nul ∉ text) : nul ∉ joined ", ".toList texts := by
  cases texts with
  | nil => exact List.not_mem_nil
  | cons text texts =>
    obtain ⟨own, others⟩ := List.forall_mem_cons.mp going
    rw [joined_cons, List.mem_append, List.mem_flatMap]
    rintro (member | ⟨other, member, mid⟩)
    · exact own member
    · rcases List.mem_append.mp mid with separator | inner
      · exact absurd separator (by decide)
      · exact others other member inner

theorem lexemes_listed_append (going : ∀ text ∈ texts, nul ∉ text) (rest : Text) :
    (listed texts ++ rest).lexemes = groupedWords (commaWords (texts.map lexemes)) ++ rest.lexemes := by
  rw [listed, lexemes_grouped_append (nul_not_mem_joined going), lexemes_joined going]

section Forms

variable {text' body body' name : Text} {names : List Text} {operator : Kind} (going : nul ∉ text)

theorem lexemes_letStatement (own : IsName name) : (letStatement name text).lexemes =
    Kind.letKeyword.word :: (.ident, name) :: Kind.assign.word :: text.lexemes := by
  have assign : lexemes ('=' :: ' ' :: text) = Kind.assign.word :: text.lexemes := lexemes_word .assign text
  rw [letStatement, lexemes_word (.reserved rfl), lexemes_word own.lexical, assign]
  rfl

theorem lexemes_returnStatement : (returnStatement text).lexemes = Kind.returnKeyword.word :: text.lexemes :=
  lexemes_word (.reserved rfl) text

theorem lexemes_function (own : ∀ name ∈ names, IsName name) (going : nul ∉ body) :
    (function names body).lexemes = Kind.function.word ::
      (groupedWords (commaWords (names.map fun name => [(.ident, name)])) ++ bracedWords body.lexemes) := by
  have fresh : Fresh (listed names ++ ' ' :: body.braced) := .symbol (c := '(') rfl
  have names_going (name : Text) (member : name ∈ names) : nul ∉ name := (own name member).lexical.nul_not_mem
  have alone : names.map lexemes = names.map fun name => [(.ident, name)] :=
    List.map_congr_left fun name member => lexemes_name (own name member)
  rw [function, lexemes_lexical (.reserved rfl) (fresh _ _), lexemes_listed_append names_going, alone,
    lexemes_space (by decide), lexemes_braced going]
  rfl

include going

theorem lexemes_unary (own : operator ∈ unaryOperators) :
    (unary operator text).lexemes = (operator, operator.spelling) :: groupedWords text.lexemes := by
  rw [← lexemes_grouped going]
  exact lexemes_lexical (.of_operator (.inl own)) (Fresh.symbol rfl _ _)

theorem lexemes_binary (own : operator ∈ binaryOperators) (going' : nul ∉ text') :
    (binary text operator text').lexemes =
      groupedWords text.lexemes ++ ([(operator, operator.spelling)] ++ groupedWords text'.lexemes) := by
  rw [binary, lexemes_grouped_append going, lexemes_space (by decide), lexemes_word (.of_operator (.inr own)),
    lexemes_grouped going']
  rfl

theorem lexemes_call (arguments : ∀ text ∈ texts, nul ∉ text) :
    (call text texts).lexemes = groupedWords text.lexemes ++ (argumentLexemes texts ++ []) := by
  have listed := lexemes_listed_append arguments []
  rw [List.append_nil] at listed
  rw [call, lexemes_grouped_append going, listed]
  rfl

theorem lexemes_conditional_append (body_going : nul ∉ body) (rest : Text) :
    (conditional text body ++ rest).lexemes =
      Kind.ifKeyword.word :: (groupedWords text.lexemes ++ bracedWords body.lexemes) ++ rest.lexemes := by
  rw [conditional, List.append_assoc, List.cons_append, List.append_assoc, List.cons_append,
    lexemes_word (.reserved rfl), lexemes_grouped_append going, lexemes_space (by decide),
    lexemes_braced_append body_going, List.cons_append, List.append_assoc]
  rfl

theorem lexemes_conditional (body_going : nul ∉ body) : (conditional text body).lexemes =
    Kind.ifKeyword.word :: (groupedWords text.lexemes ++ bracedWords body.lexemes) := by
  have alone := lexemes_conditional_append going body_going []
  rwa [List.append_nil, show lexemes [] = [] from rfl, List.append_nil] at alone

theorem lexemes_conditionalElse (body_going : nul ∉ body) (other_going : nul ∉ body') :
    (conditionalElse text body body').lexemes =
      Kind.ifKeyword.word :: (groupedWords text.lexemes ++ bracedWords body.lexemes) ++
        Kind.elseKeyword.word :: bracedWords body'.lexemes := by
  rw [conditionalElse, lexemes_conditional_append going body_going, lexemes_space (by decide),
    lexemes_word (.reserved rfl), lexemes_braced other_going]
  rfl

end Forms

/-! One lemma for each way to put pieces together. -/

/-- The source is one statement that says what the given one does, without a fault, within every limit on nesting that
is not struck. -/
def States (source : Text) (statement : Node) : Prop :=
  ∀ limit, (parseWithin limit source).Unstruck → (parseWithin limit source).diagnostics = [] ∧
    ∃ node, (parseWithin limit source).program.statements = [node] ∧ node.Says statement

/-- What is read as a statement from the words of a source, up to the end, is what the source states. -/
theorem states_of_words {source : Text} {words : List Word} {statement : Node} (lexemes : source.lexemes = words)
    (yields : ∀ (levels : Nat) (stream beyond : TokenStream), words.length ≤ levels → stream.Leads words beyond →
      beyond.current.kind = .eof →
        ((Grammar.statement (Grammar.expression .standard (levels + 2))).run stream).Yields statement beyond) :
    source.States statement := by
  intro limit unstruck
  have larger : parseWithin (limit + words.length + 2) source = parseWithin limit source :=
    Parsed.ofStream_of_le unstruck (by omega)
  rw [← larger]
  obtain ⟨node, rest, ran, alike, after⟩ :=
    yields (limit + words.length) (scan source) _ (Nat.le_add_left _ _) (lexemes ▸ TokenStream.Leads.scan source) rfl
  obtain ⟨diagnostics, statements⟩ := Parsed.ofStream_statement ran (by rw [after]; rfl)
  exact ⟨diagnostics, node, statements, alike⟩

theorem count_eq (text : Text) : (scan text).count = text.lexemes.length := by
  rw [TokenStream.count_eq, lexemes, List.length_map]

end Text

section Composed

variable {text text' body body' name : Text} {texts names : List Text} {tree tree' : Node} {operator : Kind}
  {trees statements statements' : List Node}

theorem states_group (inner : ExpressionText text tree) : text.grouped.States (.expressionStatement none tree) := by
  obtain ⟨derives, rfl⟩ := inner.derives
  refine Text.states_of_words (Text.lexemes_grouped inner.going) fun levels stream beyond deep leads ended => ?_
  simp only [length_groupedWords, ← Text.count_eq] at deep
  exact statement_of_expression (expression_of_opened _ (yields_grouped derives (by omega) leads) ended) ended

theorem states_unary (own : operator ∈ unaryOperators) (right : ExpressionText text tree) :
    (Text.unary operator text).States (.expressionStatement none (.unary none operator.spelling tree)) := by
  obtain ⟨derives, rfl⟩ := right.derives
  refine Text.states_of_words (Text.lexemes_unary right.going own) fun levels stream beyond deep leads ended => ?_
  simp only [List.length_cons, length_groupedWords, ← Text.count_eq] at deep
  have shallow : (scan text).count < levels := by omega
  obtain ⟨kind, literal, leads⟩ := leads.cons
  have operand := expression_of_opened Level.unary.strength (yields_grouped derives shallow leads) ended
  exact statement_of_expression (expression_of_opened _ (yields_unary own kind literal operand) ended) ended

theorem states_binary (own : operator ∈ binaryOperators) (left : ExpressionText text tree)
    (right : ExpressionText text' tree') : (Text.binary text operator text').States
      (.expressionStatement none (.binary none tree operator.spelling tree')) := by
  obtain ⟨derives, rfl⟩ := left.derives
  obtain ⟨derives', rfl⟩ := right.derives
  refine Text.states_of_words (Text.lexemes_binary left.going own right.going)
    fun levels stream beyond deep leads ended => ?_
  simp only [List.length_append, length_groupedWords, List.length_singleton, ← Text.count_eq] at deep
  obtain ⟨middle, front, leads⟩ := leads.append
  obtain ⟨other, between, leads⟩ := leads.append
  exact statement_of_expression (yields_binary own (yields_grouped derives (by omega) front) between
    (yields_grouped derives' (by omega) leads) ended) ended

theorem states_call (callee : ExpressionText text tree) (arguments : List.Forall₂ ExpressionText texts trees) :
    (Text.call text texts).States (.expressionStatement none (.call none tree trees)) := by
  obtain ⟨derives, rfl⟩ := callee.derives
  obtain ⟨going, inner, rfl⟩ := ExpressionText.all arguments
  refine Text.states_of_words (Text.lexemes_call callee.going going) fun levels stream beyond deep leads ended => ?_
  simp only [List.length_append, length_groupedWords, ← Text.count_eq] at deep
  have shallow (argument : Text) (member : argument ∈ texts) : (scan argument).count < levels + 1 := by
    have shorter := argument_length member
    rw [← argument.count_eq] at shorter
    omega
  obtain ⟨middle, front, leads⟩ := leads.append
  exact statement_of_expression
    (yields_call (yields_grouped derives (by omega) front) inner shallow leads ended) ended

theorem states_conditional (condition : ExpressionText text tree) (consequence : CleanText body statements) :
    (Text.conditional text body).States
      (.expressionStatement none (.conditional none tree (.block none statements) none)) := by
  obtain ⟨derives, rfl⟩ := condition.derives
  refine Text.states_of_words (Text.lexemes_conditional condition.going consequence.going)
    fun levels stream beyond deep leads ended => ?_
  simp only [List.length_cons, List.length_append, length_groupedWords, length_bracedWords, ← Text.count_eq] at deep
  have clean : Clean (levels + 1) (scan body) statements := consequence.within (by omega)
  exact statement_of_expression (expression_of_opened _
    (yields_conditional derives (by omega) clean (by rw [ended]; decide) leads) ended) ended

theorem states_conditionalElse (condition : ExpressionText text tree) (consequence : CleanText body statements)
    (alternative : CleanText body' statements') : (Text.conditionalElse text body body').States
      (.expressionStatement none
        (.conditional none tree (.block none statements) (some (.block none statements')))) := by
  obtain ⟨derives, rfl⟩ := condition.derives
  refine Text.states_of_words (Text.lexemes_conditionalElse condition.going consequence.going alternative.going)
    fun levels stream beyond deep leads ended => ?_
  simp only [List.length_cons, List.length_append, length_groupedWords, length_bracedWords, ← Text.count_eq] at deep
  have clean : Clean (levels + 1) (scan body) statements := consequence.within (by omega)
  have clean' : Clean (levels + 1) (scan body') statements' := alternative.within (by omega)
  exact statement_of_expression (expression_of_opened _
    (yields_conditionalElse derives (by omega) clean clean' leads) ended) ended

theorem states_function (parameters : ∀ name ∈ names, IsName name) (clean : CleanText body statements) :
    (Text.function names body).States
      (.expressionStatement none (.function none (names.map (.identifier none)) (.block none statements))) := by
  refine Text.states_of_words (Text.lexemes_function parameters clean.going)
    fun levels stream beyond deep leads ended => ?_
  simp only [List.length_cons, List.length_append, length_bracedWords, ← Text.count_eq] at deep
  have inner : Clean (levels + 1) (scan body) statements := clean.within (by omega)
  exact statement_of_expression (expression_of_opened _ (yields_function inner leads) ended) ended

theorem states_letStatement (own : IsName name) (value : ExpressionText text tree) :
    (Text.letStatement name text).States (.letStatement none (.identifier none name) tree) := by
  obtain ⟨derives, rfl⟩ := value.derives
  refine Text.states_of_words (Text.lexemes_letStatement own) fun levels stream beyond deep leads ended => ?_
  simp only [List.length_cons, ← Text.count_eq] at deep
  exact yields_let derives (by omega) ended leads

theorem states_returnStatement (value : ExpressionText text tree) :
    (Text.returnStatement text).States (.returnStatement none tree) := by
  obtain ⟨derives, rfl⟩ := value.derives
  refine Text.states_of_words Text.lexemes_returnStatement fun levels stream beyond deep leads ended => ?_
  simp only [List.length_cons, ← Text.count_eq] at deep
  exact yields_return derives (by omega) ended leads

end Composed

/-- A text that is put together from pieces is one statement without faults, which is put together from what the pieces
are parsed as, unless the limit on nesting is struck. -/
theorem composed_parsed {limit : Nat} {source : Text} {statement : Node} (composed : Composed source statement)
    (unstruck : (parseWithin limit source).Unstruck) : (parseWithin limit source).diagnostics = [] ∧
      ∃ node, (parseWithin limit source).program.statements = [node] ∧ node.Says statement := by
  have states : source.States statement := by
    cases composed with
    | group inner => exact states_group inner
    | unary own right => exact states_unary own right
    | binary own left right => exact states_binary own left right
    | call callee arguments => exact states_call callee arguments
    | conditional condition consequence => exact states_conditional condition consequence
    | conditionalElse condition consequence alternative =>
      exact states_conditionalElse condition consequence alternative
    | function parameters clean => exact states_function parameters clean
    | letStatement own value => exact states_letStatement own value
    | returnStatement value => exact states_returnStatement value
  exact states limit unstruck

/-- Pieces may lack their semicolons, and may be empty. -/
theorem composed_parsed_conditional : ∃ tree statements, ExpressionText "a == b+c".toList tree ∧
    CleanText "let x = 5 y".toList statements ∧
    (parseWithin 9 "if (a == b+c) \x7blet x = 5 y\x7d else \x7b\x7d".toList).diagnostics = [] ∧
    ∃ node, (parseWithin 9 "if (a == b+c) \x7blet x = 5 y\x7d else \x7b\x7d".toList).program.statements = [node] ∧
      node.Says (.expressionStatement none
        (.conditional none tree (.block none statements) (some (.block none [])))) := by
  have condition : ExpressionText "a == b+c".toList _ :=
    ⟨⟨_, ⟨by decide, 9, rfl, rfl⟩⟩, by decide⟩
  have consequence : CleanText "let x = 5 y".toList _ := ⟨by decide, 9, rfl, rfl⟩
  have alternative : CleanText [] [] := ⟨List.not_mem_nil, 9, rfl, rfl⟩
  exact ⟨_, _, condition, consequence,
    composed_parsed (.conditionalElse condition consequence alternative) (by decide)⟩

end Mana

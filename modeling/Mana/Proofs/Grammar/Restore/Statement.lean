import Mana.Proofs.Grammar.Complete.Expression
import Mana.Proofs.Token.Spells
import Mana.Proofs.Tree.Says

/-! Restoring trees from their source texts. The forms of the language read the text of a well-formed tree,
whatever follows it, and come back with a tree that says the same. -/
namespace Mana.Grammar

open Parse

variable {stream : TokenStream} {rest : Text}

/-- A node that says what the tree does, and a stream that spells what follows. -/
def Leaves (tree : Node) (rest : Text) : Node → TokenStream → Prop :=
  fun node after => node.Says tree ∧ after.advanced.Spells rest

/-- A text that may follow an expression of a strength, and at which the expression ends. -/
structure Stops (strength : Int) (rest : Text) : Prop extends Joint rest where
  halts : ∀ stream : TokenStream, stream.Spells rest → Halts strength stream.current

theorem Stops.symbol (strength : Int) (found : Kind.ofSymbol? c = some kind)
    (none : Rules.standard.extension kind = none) : Stops strength (c :: rest) where
  toJoint := .symbol found
  halts _ spells := .inr (.inr ((spells.symbol found).1 ▸ none))

/-- What restores every well-formed expression, up to a text at which it ends. -/
def Nested.Restores (nested : Nested) : Prop :=
  ∀ tree : Node, tree.Fits .expression → ∀ strength stream rest, strength < Level.call.strength →
    Stops strength rest → stream.Spells (tree.source ++ rest) →
      ((nested strength).run stream).Accepts (Leaves tree rest)

theorem Nested.Restores.whole {nested : Nested} (restores : nested.Restores) {tree : Node}
    (fits : tree.Fits .expression) (stops : Stops Level.lowest.strength rest)
    (spells : stream.Spells (tree.source ++ rest)) :
    ((whole nested).run stream).Accepts (Leaves tree rest) :=
  restores tree fits _ stream rest (by decide) stops spells

theorem accepts_semicolon {post : Unit → TokenStream → Prop} (semicolon : stream.upcoming.kind = .semicolon)
    (holds : post () stream.advanced) : (acceptSemicolon.run stream).Accepts post := by
  simp only [acceptSemicolon, run_upcoming_bind, semicolon, ↓reduceIte]
  exact .done holds

/-! How the texts of trees begin. -/

/-- The source text of an expression begins an expression. -/
theorem expression_begins : (tree : Node) → (rest : Text) → tree.Fits .expression → Joint rest →
    stream.Spells (tree.source ++ rest) → ∃ opening, Rules.standard.opening stream.current.kind = some opening
  | .identifier token name, rest, fits, joint, spells => by
    rw [(spells.token fits.2.lexical (joint.apart_of _ (by decide))).1]
    exact ⟨_, rfl⟩
  | .integer token value, rest, fits, joint, spells => by
    rw [(spells.token fits.integer.lexical (joint.apart_of _ (by decide))).1]
    exact ⟨_, rfl⟩
  | .boolean token true, rest, fits, joint, spells => by
    have keyword : stream.Spells ("true".toList ++ rest) := spells
    rw [(keyword.token (.reserved rfl) (joint.apart_of _ (by decide))).1]
    exact ⟨_, rfl⟩
  | .boolean token false, rest, fits, joint, spells => by
    have keyword : stream.Spells ("false".toList ++ rest) := spells
    rw [(keyword.token (.reserved rfl) (joint.apart_of _ (by decide))).1]
    exact ⟨_, rfl⟩
  | .unary token operator right, rest, fits, joint, spells => by
    rw [Node.append_unary] at spells
    rw [(spells.symbol rfl).1]
    exact ⟨_, rfl⟩
  | .binary token left operator right, rest, fits, joint, spells => by
    rw [Node.append_binary] at spells
    rw [(spells.symbol rfl).1]
    exact ⟨_, rfl⟩
  | .conditional token condition consequence alternative, rest, fits, joint, spells => by
    rw [Node.append_conditional] at spells
    rw [(spells.token (.reserved rfl) apart_blank).1]
    exact ⟨_, rfl⟩
  | .function token parameters body, rest, fits, joint, spells => by
    rw [Node.append_function] at spells
    rw [(spells.token (.reserved rfl) ((Joint.symbol rfl).apart_of _ (by decide))).1]
    exact ⟨_, rfl⟩
  | .call token callee arguments, rest, fits, joint, spells => by
    rw [Node.append_call] at spells
    exact expression_begins callee _ fits.2.1 (.symbol rfl) spells
  | .bare _ _, _, fits, _, _ => fits.elim
  | .program _ _, _, fits, _, _ => nomatch fits.1
  | .letStatement _ _ _, _, fits, _, _ => nomatch fits.1
  | .returnStatement _ _, _, fits, _, _ => nomatch fits.1
  | .expressionStatement _ _, _, fits, _, _ => nomatch fits.1
  | .block _ _, _, fits, _, _ => nomatch fits.1

/-- A token that begins an expression is none of those that begin or close something else. -/
theorem opening_excludes (opening : ∃ opening, Rules.standard.opening kind = some opening) :
    kind ∉ [.letKeyword, .returnKeyword, .rbrace, .rparen, .eof] := by
  obtain ⟨opening, found⟩ := opening
  intro member
  simp only [List.mem_cons, List.not_mem_nil, or_false] at member
  rcases member with rfl | rfl | rfl | rfl | rfl <;> cases found

theorem statement_begins (tree : Node) (fits : tree.Fits .statement)
    (spells : stream.Spells (tree.source ++ rest)) :
    stream.current.kind ≠ .rbrace ∧ stream.current.kind ≠ .eof := by
  cases tree with
  | letStatement token name value =>
    rw [Node.append_letStatement] at spells
    simp [(spells.token (.reserved rfl) apart_blank).1]
  | returnStatement token value =>
    rw [Node.append_returnStatement] at spells
    simp [(spells.token (.reserved rfl) apart_blank).1]
  | expressionStatement token value =>
    rw [Node.append_expressionStatement] at spells
    have excludes := opening_excludes (expression_begins value _ fits.2 (.symbol rfl) spells)
    simp only [List.mem_cons, not_or] at excludes
    exact ⟨excludes.2.2.1, excludes.2.2.2.2.1⟩
  | bare => exact fits.elim
  | boolean => cases fits
  | identifier => exact absurd fits.1 (by simp)
  | _ => cases fits.1

namespace Nested.Restores

variable {nested : Nested} (restores : nested.Restores)
include restores

theorem letStatement {token : Option Token} {name value : Node}
    (fits : (Node.letStatement token name value).Fits .statement)
    (spells : stream.Spells ((Node.letStatement token name value).source ++ rest)) :
    ((letStatement nested).run stream).Accepts (Leaves (.letStatement token name value) rest) := by
  obtain ⟨_, nameFits, valueFits⟩ := fits
  obtain ⟨nameToken, text, rfl, isName⟩ := nameFits.name
  rw [Node.append_letStatement] at spells
  obtain ⟨_, _, spells⟩ := spells.token (.reserved rfl) apart_blank
  obtain ⟨named, literal, spells⟩ :=
    spells.blank.token isName.lexical apart_blank
  obtain ⟨assigned, _, spells⟩ := spells.blank.token .assign apart_blank
  refine accepts_expect named (accepts_expect assigned ?_)
  apply (restores.whole valueFits (.symbol _ rfl rfl) spells.blank).andThen
  intro node after ⟨alike, spells⟩
  obtain ⟨semicolon, _, spells⟩ := spells.symbol rfl
  refine (accepts_semicolon semicolon spells).andThen fun _ _ spells => .done ⟨.letStatement ?_ alike, spells⟩
  rw [literal]
  exact .identifier text

theorem returnStatement {token : Option Token} {value : Node}
    (fits : (Node.returnStatement token value).Fits .statement)
    (spells : stream.Spells ((Node.returnStatement token value).source ++ rest)) :
    ((returnStatement nested).run stream).Accepts (Leaves (.returnStatement token value) rest) := by
  rw [Node.append_returnStatement] at spells
  obtain ⟨_, _, spells⟩ := spells.token (.reserved rfl) apart_blank
  apply (restores.whole fits.2 (.symbol _ rfl rfl) spells.blank).andThen
  intro node after ⟨alike, spells⟩
  obtain ⟨semicolon, _, spells⟩ := spells.symbol rfl
  exact (accepts_semicolon semicolon spells).andThen fun _ _ spells => .done ⟨.returnStatement alike, spells⟩

theorem expressionStatement {token : Option Token} {value : Node}
    (fits : (Node.expressionStatement token value).Fits .statement)
    (spells : stream.Spells ((Node.expressionStatement token value).source ++ rest)) :
    ((expressionStatement nested).run stream).Accepts (Leaves (.expressionStatement token value) rest) := by
  rw [Node.append_expressionStatement] at spells
  apply (restores.whole fits.2 (.symbol _ rfl rfl) spells).andThen
  intro node after ⟨alike, spells⟩
  obtain ⟨semicolon, _, spells⟩ := spells.symbol rfl
  exact (accepts_semicolon semicolon spells).andThen fun _ _ spells =>
    .done ⟨.expressionStatement alike, spells⟩

theorem statement (tree : Node) (fits : tree.Fits .statement) (spells : stream.Spells (tree.source ++ rest)) :
    ((statement nested).run stream).Accepts (Leaves tree rest) := by
  simp only [Grammar.statement, run_current_bind]
  cases tree with
  | letStatement token name value =>
    have text := spells
    rw [Node.append_letStatement] at text
    rw [if_pos (text.token (.reserved rfl) apart_blank).1]
    exact restores.letStatement fits spells
  | returnStatement token value =>
    have text := spells
    rw [Node.append_returnStatement] at text
    have kind := (text.token (.reserved rfl) apart_blank).1
    rw [if_neg (by rw [kind]; decide), if_pos kind]
    exact restores.returnStatement fits spells
  | expressionStatement token value =>
    have text := spells
    rw [Node.append_expressionStatement] at text
    have excludes := opening_excludes (expression_begins value _ fits.2 (.symbol rfl) text)
    simp only [List.mem_cons, not_or] at excludes
    rw [if_neg excludes.1, if_neg excludes.2.1]
    exact restores.expressionStatement fits spells
  | bare => exact fits.elim
  | boolean => cases fits
  | identifier => exact absurd fits.1 (by simp)
  | _ => cases fits.1

theorem item (tree : Node) (fits : tree.Fits .statement) (spells : stream.Spells (tree.source ++ rest)) :
    ((strictItem nested).run stream).Accepts fun gain after =>
      ∃ node : Node, gain = .item node ∧ node.Says tree ∧ after.Spells rest :=
  (restores.statement tree fits spells).andThen fun node _ ⟨alike, spells⟩ => .done ⟨node, rfl, alike, spells⟩

end Nested.Restores

theorem restores_statements {round : Parse (Gain Node)} {statements : List Node}
    {blank tail : Text} (spaces : ∀ c ∈ blank, isSpace c = true)
    (passes : GainsPass round)
    (each : ∀ (tree : Node) (stream : TokenStream) (rest : Text), tree.Fits .statement →
      stream.Spells (tree.source ++ rest) → (round.run stream).Accepts fun gain after =>
        ∃ node : Node, gain = .item node ∧ node.Says tree ∧ after.Spells rest)
    (ends : ∀ stream : TokenStream, stream.Spells tail → round.run stream = ⟨.done .stop, stream, []⟩)
    (fits : Node.AllFit statements .statement)
    (spells : stream.Spells ((Node.sources statements).flatMap (blank ++ ·) ++ tail)) :
    ((collect round).run stream).Accepts fun nodes after =>
      Node.SayAll nodes statements ∧ after.Spells tail := by
  induction statements generalizing stream with
  | nil =>
    refine .collect ?_
    rw [ends stream spells]
    exact .done ⟨.nil, spells⟩
  | cons tree statements ih =>
    have text : stream.Spells (blank ++ (tree.source ++
        ((Node.sources statements).flatMap (blank ++ ·) ++ tail))) := by
      simpa [Node.sources] using spells
    refine .collect (((each tree stream _ fits.1 (text.spaces spaces)).ensured fun _ _ ran => passes ran).imp ?_)
    intro gain after leaves
    obtain ⟨⟨node, rfl, alike, spells⟩, passed⟩ := leaves
    exact ⟨passed.2, (ih fits.2 spells).imp fun nodes _ ⟨all, ended⟩ => ⟨.cons alike all, ended⟩⟩

namespace Nested.Restores

variable {nested : Nested} (restores : nested.Restores)
include restores

theorem blockRound (tree : Node) (stream : TokenStream) (rest : Text) (fits : tree.Fits .statement)
    (spells : stream.Spells (tree.source ++ rest)) :
    ((blockRound nested).run stream).Accepts fun gain after =>
      ∃ node : Node, gain = .item node ∧ node.Says tree ∧ after.Spells rest := by
  refine .resumed ?_ (blockRound_resumes nested stream)
  obtain ⟨brace, ended⟩ := statement_begins tree fits spells
  simp only [strictBlockRound, run_current_bind, if_neg brace, if_neg ended]
  exact restores.item tree fits spells

theorem programRound (tree : Node) (stream : TokenStream) (rest : Text) (fits : tree.Fits .statement)
    (spells : stream.Spells (tree.source ++ rest)) :
    ((programRound nested).run stream).Accepts fun gain after =>
      ∃ node : Node, gain = .item node ∧ node.Says tree ∧ after.Spells rest := by
  refine .resumed ?_ (programRound_resumes nested stream)
  have ended := (statement_begins tree fits spells).2
  simp only [strictProgramRound, run_current_bind, if_neg ended]
  exact restores.item tree fits spells

variable (ensures : nested.Ensures depth)
include ensures

theorem block {tree : Node} (fits : tree.Fits .block) (spells : stream.Spells (tree.source ++ rest)) :
    stream.current.kind = .lbrace ∧ ((block nested).run stream).Accepts (Leaves tree rest) := by
  obtain ⟨token, statements, rfl⟩ := fits.block
  rw [Node.append_block] at spells
  obtain ⟨brace, _, spells⟩ := spells.symbol rfl
  refine ⟨brace, ?_⟩
  refine (restores_statements (List.all_eq_true.mp rfl) ensures.blockRound_passes restores.blockRound
    (fun stream spells => ?_) fits.2 spells).andThen fun nodes after ⟨all, spells⟩ => ?_
  · exact Block.round_closed (spells.blank.symbol rfl).1
  · obtain ⟨_, _, spells⟩ := spells.blank.symbol rfl
    exact .done ⟨.block all, spells⟩

/-- A program reads the text of a tree of statements, and comes back with a tree that says the same. -/
theorem program {token : Option Token} {statements : List Node}
    (fits : (Node.program token statements).Fits .program)
    (spells : stream.Spells (Node.program token statements).source) :
    ((program nested).run stream).Accepts fun node _ => node.Says (.program token statements) := by
  have text : stream.Spells ((Node.sources statements).flatMap ([] ++ ·) ++ []) := by
    simpa [Node.source_program, List.flatMap_id'] using spells
  have passes : GainsPass (Grammar.programRound nested) := fun _ _ _ _ ran => (ensures.programRound ran).2
  refine (restores_statements (by simp) passes restores.programRound (fun stream spells => ?_) fits.2 text).andThen
    fun nodes after ⟨all, _⟩ => .done (.program all)
  exact Program.round_ended spells.ended

end Nested.Restores

end Mana.Grammar

import Mana.Proofs.Grammar.Complete.Expression
import Mana.Proofs.Nesting.Limit
import Mana.Proofs.Grammar.Tracked.Expression
import Mana.Proofs.Token.Leads

/-! Expressions alone and in front of something else. What a text means alone, its tokens mean wherever what
comes after them does not go on with the expression. -/
namespace Mana

open Grammar

/-- The step is done without a diagnostic right before what is beyond, with a node that says what the tree does. -/
def Step.Yields (step : Step Node) (tree : Node) (beyond : TokenStream) : Prop :=
  ∃ node rest, step = ⟨.done node, rest, []⟩ ∧ node.Says tree ∧ rest.advanced = beyond

/-- The tree of a text that is one expression. -/
def Text.expression (text : Text) : Node :=
  match (parseWithin ((scan text).count + 1) text).program.statements with
  | [.expressionStatement _ expression] => expression
  | _ => .bare none .expression

namespace Grammar

open Parse

variable {stream rest : TokenStream} {levels levels' : Nat} {strength : Int} {node : Node}

theorem expression_deep (deep : stream.count < levels) (deep' : stream.count < levels') :
    (expression .standard levels strength).run stream = (expression .standard levels' strength).run stream := by
  rcases Nat.le_total levels levels' with fewer | fewer
  · exact expression_eq_of_unstruck fewer (expression_unstruck deep)
  · exact (expression_eq_of_unstruck fewer (expression_unstruck deep')).symm

theorem opened_deep (deep : stream.count ≤ levels) (deep' : stream.count ≤ levels') :
    (opened .standard (expression .standard levels)).run stream =
      (opened .standard (expression .standard levels')).run stream := by
  rcases Nat.le_total levels levels' with fewer | fewer
  · exact opened_eq_of_unstruck fewer (opened_unstruck deep)
  · exact (opened_eq_of_unstruck fewer (opened_unstruck deep')).symm

theorem opening_of_done (ran : (expression .standard levels strength).run stream = ⟨.done node, rest, found⟩) :
    ∃ opening, Rules.standard.opening stream.current.kind = some opening := by
  cases levels with
  | zero => cases ran
  | succ levels =>
    obtain ⟨left, middle, own, later, first, _⟩ := bind_done_cases ran
    simp only [opened, run_current_bind] at first
    split at first
    · rename_i chosen
      exact ⟨_, chosen⟩
    · cases first

theorem begins_of_done (ran : (expression .standard levels strength).run stream = ⟨.done node, rest, found⟩) :
    stream.current.kind ≠ .letKeyword ∧ stream.current.kind ≠ .returnKeyword ∧ stream.current.kind ≠ .eof := by
  obtain ⟨opening, chosen⟩ := opening_of_done ran
  refine ⟨?_, ?_, ?_⟩ <;>
  · intro same
    rw [same] at chosen
    cases chosen

/-- An expression up to the end is a statement. -/
theorem statement_of_expression
    (yields : ((expression .standard levels Level.lowest.strength).run stream).Yields tree beyond)
    (ended : beyond.current.kind = .eof) :
    ((statement (expression .standard levels)).run stream).Yields (.expressionStatement none tree) beyond := by
  obtain ⟨node, rest, ran, alike, rfl⟩ := yields
  obtain ⟨notLet, notReturn, _⟩ := begins_of_done ran
  refine ⟨.expressionStatement (some stream.current) node, rest, ?_, .expressionStatement alike, rfl⟩
  rw [statement, run_current_bind, if_neg notLet, if_neg notReturn, expressionStatement, run_current_bind, whole,
    run_bind_done ran, run_acceptSemicolon_bind, if_neg (by rw [rest.upcoming_eq, ended]; decide)]
  rfl

/-- No statement begins with a closing brace or at the end. -/
theorem begins_of_statement
    (ran : (statement (expression .standard levels)).run stream = ⟨.done node, rest, found⟩) :
    stream.current.kind ∉ [.rbrace, .eof] := by
  intro member
  have plain : ∀ kind ∈ [Kind.rbrace, .eof], kind ≠ .letKeyword ∧ kind ≠ .returnKeyword ∧
      Rules.standard.opening kind = none := by decide
  obtain ⟨notLet, notReturn, none⟩ := plain _ member
  rw [statement, run_current_bind, if_neg notLet, if_neg notReturn, expressionStatement, run_current_bind] at ran
  obtain ⟨_, _, _, _, read, _, _⟩ := bind_done_cases ran
  obtain ⟨opening, chosen⟩ := opening_of_done read
  rw [none] at chosen
  cases chosen

theorem count_of_derives (derives : Derives [.token .eof] stream.advanced.tokens) (ending : AtEnding stream) :
    stream.count = 1 := by
  obtain ⟨token, later, split, _, _, none⟩ := Derives.token_iff.mp derives
  obtain rfl : later = [] := by
    cases none
    rfl
  have length := congrArg List.length split
  rw [TokenStream.length_tokens, TokenStream.advanced_count, List.length_singleton] at length
  have some := TokenStream.count_pos ending.going
  omega

theorem derives_ended (derives : Derives forms stream.ahead) : Derives (forms ++ [.token .eof]) stream.tokens :=
  derives.append (.token rfl nofun .nil)

theorem expression_opening (derives : Derives [.part .expression] stream.ahead) :
    ∃ opening, Rules.standard.opening stream.current.kind = some opening := by
  obtain ⟨more, split⟩ := stream.tokens_eq
  exact (Derives.expression_iff.mp (split ▸ derives_ended derives)).opening

theorem primary_current (derives : Derives [.part .primary] stream.ahead) :
    stream.current.kind ∉ unaryOperators ∧ stream.current.kind ≠ .eof := by
  obtain ⟨more, split⟩ := stream.tokens_eq
  exact (split ▸ derives_ended derives).primary_begins

end Grammar

namespace Parsed

open Grammar

variable {limit : Nat} {stream rest : TokenStream} {node : Node}

/-- A statement up to the last token is the only one. -/
theorem ofStream_statement (ran : (statement (expression .standard limit)).run stream = ⟨.done node, rest, found⟩)
    (ended : rest.advanced.current.kind = .eof) :
    (ofStream limit stream).diagnostics = found ∧ (ofStream limit stream).program.statements = [node] := by
  have going : stream.current.kind ≠ .eof := fun ended => begins_of_statement ran (by rw [ended]; decide)
  have within := ((expression_ensures limit).statement stream).within_of ran
  obtain ⟨statements, diagnostics⟩ := ofStream_done going ran
  obtain ⟨none, nothing⟩ := ofStream_ended limit ended
  rw [statements, diagnostics, none, nothing]
  exact ⟨List.append_nil found, rfl⟩

/-- An expression up to the last token is the only statement. -/
theorem ofStream_expression
    (ran : (expression .standard limit Level.lowest.strength).run stream = ⟨.done node, rest, found⟩)
    (last : rest.count = 1) :
    (ofStream limit stream).diagnostics = found ∧
      (ofStream limit stream).program.statements = [.expressionStatement (some stream.current) node] := by
  obtain ⟨notLet, notReturn, _⟩ := begins_of_done ran
  refine ofStream_statement ?_ (TokenStream.current_kind_of_count (by rw [TokenStream.advanced_count, last]))
  rw [statement, Parse.run_current_bind, if_neg notLet, if_neg notReturn, expressionStatement,
    Parse.run_current_bind, whole, Parse.run_bind_done ran, run_acceptSemicolon_bind,
    if_neg (by rw [upcoming_of_last (le_of_eq last)]; decide)]
  exact congrArg (Step.mk _ _) (List.append_nil found)

/-- Limits above the number of tokens, and those that are not struck, are all the same. -/
theorem ofStream_deep (unstruck : (ofStream limit stream).Unstruck) (deep : stream.count < levels) :
    ofStream levels stream = ofStream limit stream := by
  rcases Nat.le_total limit levels with fewer | fewer
  · exact ofStream_of_le unstruck fewer
  · exact (ofStream_of_le (unstruck_of_count_lt deep) fewer).symm

end Parsed

namespace Text

open Grammar

variable {text : Text} {levels : Nat}

theorem expression_eq
    (ran : (Grammar.expression .standard ((scan text).count + 1) Level.lowest.strength).run (scan text) =
      ⟨.done node, rest, []⟩)
    (last : rest.count = 1) : text.expression = node := by
  obtain ⟨_, statements⟩ := Parsed.ofStream_expression ran last
  rw [Text.expression, parseWithin, statements]

theorem expression_alone (derives : Derives [.part .expression] (scan text).ahead) (deep : (scan text).count < levels) :
    ∃ rest, (Grammar.expression .standard levels Level.lowest.strength).run (scan text) =
      ⟨.done text.expression, rest, []⟩ ∧ rest.count = 1 ∧ AtEnding rest := by
  have deepest : (scan text).count < (scan text).count + 1 := Nat.lt_succ_self _
  rcases (expression_accepts _).whole (.of_token (by decide)) (derives_ended derives) with strikes | read
  · exact absurd strikes (expression_unstruck deepest)
  · obtain ⟨node, rest, ran, left⟩ := read
    have ending : AtEnding rest := .of_begins (expression_ensures _ _ _) ran
    have last : rest.count = 1 := count_of_derives left ending
    rw [expression_eq ran last, expression_deep deep deepest]
    exact ⟨rest, ran, last, ending⟩

theorem primary_alone (derives : Derives [.part .primary] (scan text).ahead) (deep : (scan text).count ≤ levels) :
    ∃ rest, (opened .standard (Grammar.expression .standard levels)).run (scan text) =
      ⟨.done text.expression, rest, []⟩ ∧ rest.count = 1 ∧ AtEnding rest := by
  have whole : Derives [.part .primary, .token .eof] (scan text).tokens := derives_ended derives
  rw [(scan text).tokens_of_going (primary_current derives).2] at whole
  have notElse (token : Token) (more : List Token) (rest : Derives [.token .eof] (token :: more)) :
      token.kind ≠ .elseKeyword := by
    rw [(Derives.token_cons_iff.mp rest).1]
    decide
  rcases (expression_accepts _).primary (expression_ensures _) notElse whole with strikes | read
  · exact absurd strikes (opened_unstruck (Nat.le_refl _))
  · obtain ⟨node, rest, ran, left⟩ := read
    have ending : AtEnding rest := .of_begins ((expression_ensures _).opened _) ran
    have last : rest.count = 1 := count_of_derives left ending
    have extended : (Grammar.expression .standard ((scan text).count + 1) Level.lowest.strength).run (scan text) =
        ⟨.done node, rest, []⟩ := by
      rw [Grammar.expression, Parse.run_bind_done ran, run_extended_halts _ node (halts_last _ last)]
      rfl
    rw [expression_eq extended last, opened_deep deep (Nat.le_refl _)]
    exact ⟨rest, ran, last, ending⟩

variable {stream beyond : TokenStream}

theorem yields_of_tracks {parse : Parse Node} {meets : Prop}
    (ran : parse.run (scan text) = ⟨.done text.expression, rest, []⟩) (last : rest.count = 1) (ending : AtEnding rest)
    (within : rest.Within (scan text))
    (tracks : (Pairing.before (scan text) beyond).Abreast (scan text) stream →
      Step.Tracks (.before (scan text) beyond) Alike (fun _ => meets) (parse.run (scan text)) (parse.run stream))
    (leads : stream.Leads text.lexemes beyond) (met : meets) :
    (parse.run stream).Yields text.expression beyond := by
  have ends (token : Token) (final : [token] <:+ (scan text).ahead) : token.kind ≠ .lparen := by
    have suffix : [rest.current] <:+ (scan text).ahead := TokenStream.ahead_of_last last ▸ within.ahead
    have same := (List.singleton_suffix_iff_getLast?_eq_some.mp suffix).symm.trans
      (List.singleton_suffix_iff_getLast?_eq_some.mp final)
    intro opened
    rw [AtEnding, Option.some.inj same, opened] at ending
    exact absurd ending (by decide)
  have tracked := tracks (leads.abreast ends)
  rw [ran] at tracked
  generalize parse.run stream = step at tracked
  cases tracked with
  | stranded _ stranded =>
    cases stranded with
    | mentions mentions =>
      obtain ⟨diagnostic, member, _⟩ := mentions
      cases member
    | arrives _ _ _ _ _ unmet => exact absurd met unmet
  | done alike abreast covers reports =>
    cases reports
    exact ⟨_, _, rfl, alike, (abreast.advanced covers).beyond_eq (by rw [TokenStream.advanced_count, last])⟩

/-- An expression means what it means alone, in front of all that ends it. -/
theorem expression_yields (derives : Derives [.part .expression] (scan text).ahead) (deep : (scan text).count < levels)
    (leads : stream.Leads text.lexemes beyond) (next : beyond.current.kind ∈ [.comma, .rparen, .rbrace, .eof]) :
    ((Grammar.expression .standard levels Level.lowest.strength).run stream).Yields text.expression beyond := by
  obtain ⟨rest, ran, last, ending⟩ := expression_alone derives deep
  have within := (expression_ensures levels Level.lowest.strength (scan text)).within_of ran
  have meets : (Pairing.before (scan text) beyond).Meets Level.lowest.strength := .of_kind next
  exact yields_of_tracks ran last ending within (expression_tracks levels _ _ _) leads meets

/-- A primary expression means what it means alone, whatever calls and operations come after it. -/
theorem primary_yields (derives : Derives [.part .primary] (scan text).ahead) (deep : (scan text).count ≤ levels)
    (leads : stream.Leads text.lexemes beyond) (notElse : beyond.current.kind ≠ .elseKeyword) :
    ((opened .standard (Grammar.expression .standard levels)).run stream).Yields text.expression beyond := by
  obtain ⟨rest, ran, last, ending⟩ := primary_alone derives deep
  have within := ((expression_ensures levels).opened (scan text)).within_of ran
  obtain ⟨plain, going⟩ := primary_current derives
  have covers : (Pairing.before (scan text) beyond).Covers 0 (scan text) := .of_lt (TokenStream.count_pos going)
  refine yields_of_tracks ran last ending within (fun abreast => ?_) leads notElse
  exact (expression_tracks levels).openedPrimary (expression_ensures levels) abreast covers
    plain

end Text

end Mana

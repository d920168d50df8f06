import Mana.Proofs.Grammar.Alone
import Mana.Proofs.PrintedWords
import Mana.Proofs.Token.Composed
import Mana.Proofs.Tree.Braces

/-! Blocks in broken sources. Recovery takes the next closing brace for the end of a block, without counting the
opening braces that it gives up. A block ends at its own brace where it gives up none. -/
namespace Mana

open Grammar Parse
open Node (Formed)

/-- A function without parameters, and the text of its block. -/
def functionText (body : Text) : Text := "fn() \x7b".toList ++ (body ++ ['\x7d'])

theorem kinds_scanFrom (location : Location) (text : Text) : (scanFrom location 0 text).kinds = (scan text).kinds := by
  have moved := (scanFrom_moved location .start (by decide) 0 text).1
  rw [location.moved_start] at moved
  rw [TokenStream.kinds, moved, List.map_map]
  rfl

/-- The kinds of a function without parameters, around those of its block. -/
def functionKinds (kinds : List Kind) : List Kind :=
  .function :: .lparen :: .rparen :: .lbrace :: (kinds ++ [.rbrace])

theorem scan_functionText (going : nul ∉ body) :
    (scan (functionText body)).kinds = functionKinds (scan body).kinds := by
  have split : (scan (functionText body)).kinds = .function :: .lparen :: .rparen :: .lbrace ::
      (scanFrom (Location.start.past "fn() \x7b".toList) 0 (body ++ ['\x7d'])).kinds := rfl
  rw [split, TokenStream.kinds, (scanFrom_append going (.symbol rfl) _).1, List.map_append, ← TokenStream.kinds,
    ← TokenStream.kinds, kinds_scanFrom, kinds_scanFrom]
  rfl

namespace Grammar

variable {levels : Nat} {stream rest : TokenStream} {kinds : List Kind} {body : Node}

theorem block_closed {nested : Nested} (ran : (block nested).run stream = ⟨.done body, rest, found⟩) :
    rest.current.kind = .rbrace ∧ 0 < (kindsOf body.words).count .lbrace := by
  rw [run_block] at ran
  obtain ⟨statements, _, _, _, collected, done, _⟩ := andThen_done_cases ran
  cases done
  exact ⟨collect_stopped (fun _ _ _ => Block.round_stopped) collected, List.count_pos_iff.mpr List.mem_cons_self⟩

section Block

variable (tokens : stream.Genuine) (kind : stream.current.kind = .lbrace)
  (split : stream.advanced.kinds = kinds ++ [.rbrace]) (balanced : Balanced kinds)
include tokens kind split balanced

theorem block_ne_failed : (block (expression .standard levels)).run stream ≠ ⟨.failed, rest, found⟩ := by
  intro ran
  have within := ((expression_ensures levels).block kind).within_of ran
  have opens : stream.advanced.Opens (-1) .due := by
    change excess stream.advanced.kinds ≤ -1
    rw [split, excess_append, balanced.closed]
    decide
  have collected := Step.Opens.collect (fun _ opens => (expression_ensures levels).blockRound_opens opens) opens
  rw [run_block] at ran
  rcases andThen_failed_cases ran with first | ⟨_, _, _, _, _, later⟩
  · have ended : rest.current.kind = .eof := collect_failed (fun _ _ _ => Block.round_failed_at) first
    have none : rest.kinds = [] := congrArg (List.map _) (TokenStream.Genuine.ahead_of_ended (tokens.within within) ended)
    rw [first] at collected
    have left : excess rest.kinds ≤ -1 := collected.failed rfl
    rw [none] at left
    exact absurd left (by decide)
  · cases later

/-- A block whose opening braces all come into the tree ends with the last brace. -/
theorem block_ends (ran : (block (expression .standard levels)).run stream = ⟨.done body, rest, found⟩)
    (kept : kinds.count .lbrace < (kindsOf body.words).count .lbrace + rest.advanced.kinds.count .lbrace) :
    rest.advanced.kinds = [] := by
  have ensures := (expression_ensures levels).block kind
  rw [ran] at ensures
  obtain ⟨word, spans, _, formed⟩ := ensures.read body rfl
  obtain ⟨passed, among, sublist⟩ := spans.among
  have own : ∀ token ∈ word, token.Genuine := fun token member => tokens token (spans.sublist.subset member)
  have fits : body.Fits .block := (formed.fits own).1
  have whole : .lbrace :: (kinds ++ [.rbrace]) = passed.map Token.kind ++ rest.advanced.kinds := by
    rw [← split, ← kind, ← TokenStream.kinds_of_going (by rw [kind]; decide)]
    exact (congrArg (List.map Token.kind) among).trans List.map_append
  have opened : kinds.count .lbrace + 1 = (passed.map Token.kind).count .lbrace + rest.advanced.kinds.count .lbrace := by
    simpa using congrArg (List.count .lbrace) whole
  have closed : kinds.count .rbrace + 1 = (passed.map Token.kind).count .rbrace + rest.advanced.kinds.count .rbrace := by
    simpa using congrArg (List.count .rbrace) whole
  have keptClosed : (kindsOf body.words).count .rbrace ≤ (passed.map Token.kind).count .rbrace := by
    rw [formed.words_one own, count_words word rfl]
    exact (sublist.map Token.kind).count_le .rbrace
  have partners := (excess_eq _).symm.trans fits.excess_words
  have balance := (excess_eq _).symm.trans balanced.closed
  obtain ⟨before, parts⟩ := split ▸ ensures.within.both_advanced.kinds_suffix
  have beyond := congrArg excess parts
  rw [excess_append, excess_append, excess_eq rest.advanced.kinds, balanced.closed,
    show excess [.rbrace] = -1 from rfl] at beyond
  exact balanced.end_of_closed parts.symm (by omega)

end Block

/-- A function without parameters is its block. -/
theorem run_function (nested : Nested) (split : stream.kinds = functionKinds kinds) :
    (opened .standard nested).run stream = ((block nested).run stream.advanced.advanced.advanced).andThen
      fun body rest => ⟨.done (.function (some stream.current) [] body), rest, []⟩ := by
  obtain ⟨keyword, split⟩ := TokenStream.kinds_cons split
  obtain ⟨paren, split⟩ := TokenStream.kinds_cons split
  obtain ⟨closed, split⟩ := TokenStream.kinds_cons split
  obtain ⟨brace, _⟩ := TokenStream.kinds_cons split
  rw [opened, run_current_bind, keyword]
  change (function nested).run stream = _
  rw [function, run_current_bind, run_expect_bind, if_pos (stream.upcoming_eq ▸ paren)]
  have none : (series parameter .rparen).run stream.advanced = ⟨.done [], stream.advanced.advanced, []⟩ := by
    simp only [series, run_upcoming_bind]
    rw [if_pos (stream.advanced.upcoming_eq ▸ closed)]
    rfl
  rw [run_bind_done none, run_expect_bind, if_pos (stream.advanced.advanced.upcoming_eq ▸ brace), Step.since_nil]
  rfl

/-- A function with its closing brace at the end is read up to a closing brace, which is that one if all opening braces
of its block come into the tree. -/
theorem opened_function (tokens : stream.Genuine) (balanced : Balanced kinds)
    (split : stream.kinds = functionKinds kinds) (deep : stream.count ≤ levels) :
    ∃ body rest found, (opened .standard (expression .standard levels)).run stream =
        ⟨.done (.function (some stream.current) [] body), rest, found⟩ ∧
      rest.current.kind = .rbrace ∧ 0 < (kindsOf body.words).count .lbrace ∧
      (kinds.count .lbrace < (kindsOf body.words).count .lbrace + rest.advanced.kinds.count .lbrace →
        rest.advanced.kinds = []) := by
  have opened := run_function (expression .standard levels) split
  obtain ⟨_, split⟩ := TokenStream.kinds_cons split
  obtain ⟨_, split⟩ := TokenStream.kinds_cons split
  obtain ⟨_, split⟩ := TokenStream.kinds_cons split
  obtain ⟨brace, split⟩ := TokenStream.kinds_cons split
  have inner : stream.advanced.advanced.advanced.Genuine := tokens.advanced.advanced.advanced
  rcases ran : (block (expression .standard levels)).run stream.advanced.advanced.advanced with ⟨outcome, rest, found⟩
  rw [ran] at opened
  cases outcome with
  | failed => exact absurd ran (block_ne_failed inner brace split balanced)
  | struck => exact absurd (opened ▸ Step.strikes_struck) (opened_unstruck deep)
  | done body =>
    obtain ⟨closed, braced⟩ := block_closed ran
    exact ⟨body, rest, _, opened, closed, braced, block_ends inner brace split balanced ran⟩

/-- What comes after the first operand of an expression statement. -/
def lengthened (levels : Nat) (token : Token) (left : Node) : Parse Node := do
  let expression ← extended .standard (expression .standard levels) Level.lowest.strength left
  acceptSemicolon
  return .expressionStatement (some token) expression

/-- A statement that begins with neither keyword is an operand and what comes after it. -/
theorem run_statement_plain (levels : Nat) (notLet : stream.current.kind ≠ .letKeyword)
    (notReturn : stream.current.kind ≠ .returnKeyword) :
    (statement (expression .standard (levels + 1))).run stream =
      ((opened .standard (expression .standard levels)).run stream).andThen fun left =>
        (lengthened levels stream.current left).run := by
  rw [statement, run_current_bind, if_neg notLet, if_neg notReturn, expressionStatement, run_current_bind, whole,
    expression, bind_assoc]
  rfl

theorem lengthened_ensures (levels : Nat) (stream : TokenStream) (token : Token) (left : Node) :
    ((lengthened levels token left).run stream).Ensures (levels + 1) stream .read .read fun node word =>
      ∀ more, Formed .one .expression [left] (token :: more) →
        Formed .one .statement [node] (token :: (more ++ word)) := by
  apply ((expression_ensures levels).extended Level.lowest.strength left).andThen
  intro expression word rest longer
  refine ensures_acceptSemicolon.andThen fun _ last rest ends => .done fun more formed => ?_
  simpa using Formed.expressionStatement (longer _ formed) ends

end Grammar

namespace Parsed

open Grammar

variable {limit : Nat} {stream rest : TokenStream}

theorem words_statements (limit : Nat) (stream : TokenStream) : (ofStream limit stream).program.words =
    (ofStream limit stream).program.statements.flatMap Node.words := by
  rw [program_eq, Node.words_program, Node.wordLists_eq, List.flatMap_def]
  rfl

theorem count_words_le (limit : Nat) (tokens : stream.Genuine) (spoken : kind.isSilent = false) :
    (kindsOf (ofStream limit stream).program.words).count kind ≤ stream.kinds.count kind :=
  count_words stream.ahead spoken ▸ ((words_gathered limit tokens).1.map Prod.fst).count_le kind

/-- Of an operand and what comes after it, no more words come into the tree than the operand has, and there are tokens
after it. -/
theorem count_words_opened {left : Node} (tokens : stream.Genuine)
    (ran : (opened .standard (expression .standard levels)).run stream = ⟨.done left, rest, found⟩)
    (unstruck : (ofStream (levels + 1) stream).Unstruck)
    (begins : stream.current.kind ∉ [.letKeyword, .returnKeyword, .eof])
    (other : rest.current.kind ≠ kind) (spoken : kind.isSilent = false) :
    (kindsOf (ofStream (levels + 1) stream).program.words).count kind ≤
      (kindsOf left.words).count kind + rest.advanced.kinds.count kind := by
  simp only [List.mem_cons, List.not_mem_nil, or_false, not_or] at begins
  obtain ⟨notLet, notReturn, going⟩ := begins
  have operand := (expression_ensures levels).opened stream
  have statement := run_statement_plain levels notLet notReturn
  rw [ran] at operand
  rw [ran, Step.andThen_done] at statement
  have inner : rest.Genuine := tokens.within operand.within
  have ensures := lengthened_ensures levels rest stream.current left
  rcases after : (lengthened levels stream.current left).run rest with ⟨outcome, last, own⟩
  rw [after] at ensures statement
  have later : last.Within rest := ensures.within
  cases outcome with
  | struck => exact absurd unstruck (not_unstruck going statement)
  | failed =>
    have beyond : (recovered stream [] last).advanced.Within rest :=
      (TokenStream.Within.advanced _).trans ((recovered_within stream [] last).trans later)
    have same : (ofStream (levels + 1) stream).program.words =
        (ofStream (levels + 1) (recovered stream [] last).advanced).program.words := by
      rw [words_statements, (ofStream_failed going statement).1, ← words_statements]
    calc (kindsOf (ofStream (levels + 1) stream).program.words).count kind
        ≤ (recovered stream [] last).advanced.kinds.count kind := same ▸ count_words_le _ (inner.within beyond) spoken
      _ ≤ rest.kinds.count kind := beyond.kinds_suffix.sublist.count_le kind
      _ ≤ (kindsOf left.words).count kind + rest.advanced.kinds.count kind :=
          TokenStream.count_kinds other ▸ Nat.le_add_left _ _
  | done node =>
    obtain ⟨_, first, _, more, rfl, formed⟩ := operand.read left rfl
    obtain ⟨word, second, _, tells⟩ := ensures.read node rfl
    obtain ⟨passed, split, sublist⟩ := second.among
    have own : ∀ token ∈ stream.current :: more, token.Genuine := fun token member =>
      tokens token (first.sublist.subset member)
    have longer : ∀ token ∈ stream.current :: (more ++ word), token.Genuine :=
      List.forall_mem_append.mpr ⟨own, fun token member => inner.advanced token (second.sublist.subset member)⟩
    have words : node.words = left.words ++ word.flatMap Token.words := by
      rw [(tells more formed).words_one longer, formed.words_one own, ← List.flatMap_append, List.cons_append]
    have kept : (word.map Token.kind).count kind ≤ (passed.map Token.kind).count kind :=
      (sublist.map Token.kind).count_le kind
    have counts : rest.advanced.kinds.count kind =
        (passed.map Token.kind).count kind + last.advanced.kinds.count kind := by
      rw [← List.count_append]
      exact congrArg (List.count kind) ((congrArg (List.map Token.kind) split).trans List.map_append)
    have others := count_words_le (levels + 1) (inner.within later).advanced spoken
    have same : (ofStream (levels + 1) stream).program.words =
        left.words ++ word.flatMap Token.words ++ (ofStream (levels + 1) last.advanced).program.words := by
      rw [words_statements, (ofStream_done going statement).1, List.flatMap_cons, ← words_statements, words]
    rw [same, kindsOf_append, kindsOf_append, List.count_append, List.count_append, count_words word spoken]
    omega

/-- A function in balance is the only statement if no opening brace of its block is given up. -/
theorem ofStream_function {kinds : List Kind} (tokens : stream.Genuine) (balanced : Balanced kinds)
    (split : stream.kinds = functionKinds kinds) (unstruck : (ofStream limit stream).Unstruck)
    (kept : kinds.count .lbrace = 0 ∨
      kinds.count .lbrace < (kindsOf (ofStream limit stream).program.words).count .lbrace) :
    ∃ body, (ofStream limit stream).program.statements =
      [.expressionStatement (some stream.current) (.function (some stream.current) [] body)] := by
  have larger : ofStream (limit + stream.count + 1) stream = ofStream limit stream :=
    ofStream_of_le unstruck (by omega)
  rw [← larger] at unstruck kept ⊢
  obtain ⟨body, rest, found, ran, closed, braced, ends⟩ :=
    opened_function tokens balanced split (Nat.le_add_left _ limit)
  have last : rest.advanced.kinds = [] := by
    apply ends
    rcases kept with none | kept
    · omega
    · have begins : stream.current.kind ∉ [.letKeyword, .returnKeyword, .eof] := by
        rw [(TokenStream.kinds_cons split).1]
        decide
      have other : rest.current.kind ≠ .lbrace := by
        rw [closed]
        decide
      have bound := count_words_opened tokens ran unstruck begins other rfl
      rw [Node.words_function, kindsOf_cons, List.count_cons_of_ne (by decide)] at bound
      exact Nat.lt_of_lt_of_le kept bound
  have count : rest.count = 1 := by
    have whole := congrArg List.length
      (TokenStream.kinds_of_going (show rest.current.kind ≠ .eof by rw [closed]; decide))
    rwa [last, TokenStream.kinds, List.length_map, ← TokenStream.count_eq] at whole
  have halted : (expression .standard (limit + stream.count + 1) Level.lowest.strength).run stream =
      ⟨.done (.function (some stream.current) [] body), rest, found⟩ := by
    rw [expression, run_bind_done ran, run_extended_halts _ _ (halts_last _ count)]
    exact congrArg (Step.mk _ _) (List.append_nil found)
  exact ⟨body, (ofStream_expression halted count).2⟩

end Parsed

/-- A function whose block is in balance is one statement, whatever else is wrong in the block, as long as no opening
brace in it is given up. -/
theorem function_closed (limit : Nat) {body : Text} (going : nul ∉ body) (balanced : Balanced (scan body).kinds)
    (unstruck : (parseWithin limit (functionText body)).Unstruck)
    (kept : (scan body).kinds.count .lbrace = 0 ∨ (scan body).kinds.count .lbrace <
      (kindsOf (parseWithin limit (functionText body)).program.words).count .lbrace) :
    ∃ token fn block, (parseWithin limit (functionText body)).program.statements =
      [.expressionStatement token (.function fn [] block)] := by
  obtain ⟨block, only⟩ := Parsed.ofStream_function (scan_genuine _) balanced (scan_functionText going) unstruck kept
  exact ⟨_, _, block, only⟩

/-- Broken statements before, in and after nested blocks leave the function whole. -/
theorem function_closed_broken : ∃ token fn block,
    (parseWithin 9 (functionText "let x 5; if (a) { ) b; } else { c }; (".toList)).program.statements =
      [.expressionStatement token (.function fn [] block)] :=
  function_closed 9 (by decide) (by decide) (by decide) (.inr (by decide))

/-- A block is left at the closing brace of an opening brace that is given up in it. -/
theorem function_not_closed : ¬ ∀ (limit : Nat) (body : Text), nul ∉ body → Balanced (scan body).kinds →
    (parseWithin limit (functionText body)).Unstruck →
      ∃ token fn block, (parseWithin limit (functionText body)).program.statements =
        [.expressionStatement token (.function fn [] block)] := by
  intro closed
  obtain ⟨token, fn, block, only⟩ :=
    closed 9 "{} x".toList (by decide) (by decide) (by decide)
  have two : (parseWithin 9 (functionText "{} x".toList)).program.statements.length = 2 := rfl
  rw [only] at two
  cases two

end Mana

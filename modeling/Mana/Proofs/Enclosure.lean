import Mana.Proofs.Blocks
import Mana.Proofs.Grammar.Enclosing
import Mana.Proofs.Token.Composed

/-! Broken statements in a block. What a source without braces means alone, with everything that is wrong in it, it
means in a block as well. -/
namespace Mana

open Grammar Parse
open TokenStream (Enclosed outer)

namespace Grammar

variable {beyond stream other start start' : TokenStream} {levels : Nat}

/-- A statement is given up at the same token, or at the end alone and at the brace in the block. -/
theorem enclosed_recovered (starts : Enclosed beyond start start') (some : 0 < start.count)
    (enclosed : Enclosed beyond stream other) :
    Enclosed beyond (recovered start [] stream) (recovered start' [.rbrace] other) := by
  unfold recovered
  simp only [(starts.current some).1, starts.count_eq_iff enclosed]
  split
  · exact enclosed
  · refine enclosed.skippedTo (fun kind plain => ?_) rfl
    revert plain
    cases kind <;> decide

theorem enclosed_going (enclosed : Enclosed beyond stream other) (going : stream.current.kind ≠ .eof) :
    other.current.kind ≠ .rbrace ∧ other.current.kind ≠ .eof := by
  have some := TokenStream.count_pos going
  have plain := enclosed.going some
  simp only [outer, List.mem_cons, List.not_mem_nil, or_false, not_or] at plain
  rw [(enclosed.current some).1]
  exact plain.2

/-- A statement of the block is parsed as it is alone. -/
theorem statement_enclosed (enclosed : Enclosed beyond stream other) (going : stream.current.kind ≠ .eof)
    (ran : (statement (expression .standard levels)).run stream = step) :
    ∃ outcome rest found, rest.Within other ∧
      (statement (expression .standard levels)).run other = ⟨outcome, rest, found⟩ ∧
        step.Encloses beyond Alike ⟨outcome, rest, found⟩ := by
  have one := (expression_encloses levels).statement stream other enclosed (TokenStream.count_pos going)
  rcases ran' : (statement (expression .standard levels)).run other with ⟨outcome, rest, found⟩
  rw [ran, ran'] at one
  exact ⟨outcome, rest, found, ((expression_ensures levels).statement other).within_of ran', rfl, one⟩

/-- What is collected in the block up to the brace are the statements and the diagnostics that are parsed alone. -/
def CollectsAlone (levels : Nat) (beyond stream other : TokenStream) : Prop :=
  ∃ nodes found, (collect (blockRound (expression .standard levels))).run other = ⟨.done nodes, beyond, found⟩ ∧
    Node.SayAll nodes (Parsed.ofStream levels stream).program.statements ∧
    Enclosing (Parsed.ofStream levels stream).diagnostics found

namespace CollectsAlone

variable {rest rest' : TokenStream} {found found' : List Diagnostic}

theorem ended (enclosed : Enclosed beyond stream other) (ended : stream.current.kind = .eof) :
    CollectsAlone levels beyond stream other := by
  obtain ⟨none, nothing⟩ := Parsed.ofStream_ended levels ended
  rw [CollectsAlone, enclosed.eq_beyond (enclosed.count_of_ended ended), Block.run_closed enclosed.closed, none, nothing]
  exact ⟨[], [], rfl, .nil, .nil⟩

variable (going : stream.current.kind ≠ .eof) (faults : Enclosing found found')
include going faults

theorem done (ran : (statement (expression .standard levels)).run stream = ⟨.done node, rest, found⟩)
    (run : (collect (blockRound (expression .standard levels))).run other =
      (((collect (blockRound (expression .standard levels))).run rest'.advanced).map (node' :: ·)).since found')
    (alike : node'.Says node) (later : CollectsAlone levels beyond rest.advanced rest'.advanced) :
    CollectsAlone levels beyond stream other := by
  obtain ⟨nodes, others, collected, all, reports⟩ := later
  rw [CollectsAlone, run, collected, (Parsed.ofStream_done going ran).1, (Parsed.ofStream_done going ran).2]
  exact ⟨_, _, rfl, .cons alike all, faults.append reports⟩

theorem failed (ran : (statement (expression .standard levels)).run stream = ⟨.failed, rest, found⟩)
    (run : (collect (blockRound (expression .standard levels))).run other =
      ((collect (blockRound (expression .standard levels))).run rest').since found')
    (later : CollectsAlone levels beyond (recovered stream [] rest).advanced rest') :
    CollectsAlone levels beyond stream other := by
  obtain ⟨nodes, others, collected, all, reports⟩ := later
  rw [CollectsAlone, run, collected, (Parsed.ofStream_failed going ran).1, (Parsed.ofStream_failed going ran).2]
  exact ⟨_, _, rfl, all, faults.append reports⟩

end CollectsAlone

/-- The statements of a block are those that are parsed alone, unless the limit on nesting is struck. -/
theorem collects_alone (enclosed : Enclosed beyond stream other)
    (unstruck : ¬ ((collect (blockRound (expression .standard levels))).run other).Strikes) :
    CollectsAlone levels beyond stream other := by
  induction stream using Parsed.induct levels generalizing other with
  | ended stream ended => exact .ended enclosed ended
  | done stream rest node found going within ran ih =>
    obtain ⟨_, rest', _, within', ran', one⟩ := statement_enclosed enclosed going ran
    cases one with
    | done alike later some faults =>
      have run := Block.run_done (enclosed_going enclosed going) within' ran'
      exact .done going faults ran run alike
        (ih (later.advanced some) fun strikes => unstruck (run ▸ (strikes.map _).since _))
  | failed stream rest found going within ran ih =>
    obtain ⟨_, rest', _, within', ran', one⟩ := statement_enclosed enclosed going ran
    cases one with
    | failed later faults =>
      have run := Block.run_failed (enclosed_going enclosed going) within' ran'
      have given := enclosed_recovered enclosed (TokenStream.count_pos going) later
      rcases Nat.eq_zero_or_pos (recovered stream [] rest).count with ended | some
      · have last : (recovered stream [] rest).advanced.current.kind = .eof :=
          TokenStream.current_kind_of_count (by rw [TokenStream.advanced_count, ended])
        rw [given.eq_beyond ended, if_pos given.closed, ← Block.run_closed given.closed] at run
        obtain ⟨none, nothing⟩ := Parsed.ofStream_ended levels last
        exact .failed going faults ran run ⟨[], [], Block.run_closed given.closed, none ▸ .nil, nothing ▸ .nil⟩
      · have closes : ¬ (recovered other [.rbrace] rest').current.kind = .rbrace :=
          (given.current some).1 ▸ fun closed => given.going some (closed ▸ by decide)
        rw [if_neg closes] at run
        exact .failed going faults ran run (ih (given.advanced some) fun strikes => unstruck (run ▸ strikes.since _))
  | struck stream rest found going within ran ih =>
    obtain ⟨_, _, _, _, ran', one⟩ := statement_enclosed enclosed going ran
    cases one with
    | struck => exact absurd (Block.run_struck (enclosed_going enclosed going) ran' ▸ Step.strikes_struck) unstruck

end Grammar

namespace Parsed

variable {stream beyond : TokenStream} {levels : Nat} {kinds : List Kind} {nodes : List Node} {found : List Diagnostic}

theorem block_unstruck (split : stream.kinds = functionKinds kinds) (unstruck : (ofStream (levels + 1) stream).Unstruck) :
    ¬ ((collect (blockRound (expression .standard levels))).run
      stream.advanced.advanced.advanced.advanced).Strikes := by
  intro strikes
  have keyword := (TokenStream.kinds_cons split).1
  have statement := @run_statement_plain stream levels (by rw [keyword]; decide) (by rw [keyword]; decide)
  refine not_unstruck_of_strikes (by rw [keyword]; decide) ?_ unstruck
  rw [statement, run_function (expression .standard levels) split, run_block]
  exact ((strikes.andThen _).andThen _).andThen _

theorem ofStream_block (split : stream.kinds = functionKinds kinds)
    (collected : (collect (blockRound (expression .standard levels))).run stream.advanced.advanced.advanced.advanced =
      ⟨.done nodes, beyond, found⟩) (last : beyond.count = 1) :
    (ofStream (levels + 1) stream).diagnostics = found ∧
      (ofStream (levels + 1) stream).program.statements = [.expressionStatement (some stream.current)
        (.function (some stream.current) [] (.block (some stream.advanced.advanced.advanced.current) nodes))] := by
  have opened := run_function (expression .standard levels) split
  rw [run_block, collected] at opened
  have ran : (expression .standard (levels + 1) Level.lowest.strength).run stream = _ := run_bind_done opened _
  rw [run_extended_halts _ _ (halts_last _ last)] at ran
  obtain ⟨diagnostics, statements⟩ := ofStream_expression ran last
  exact ⟨diagnostics.trans (by simp), statements⟩

end Parsed

theorem lexemes_functionText (going : nul ∉ body) : (functionText body).lexemes =
    (.function, "fn".toList) :: (.lparen, ['(']) :: (.rparen, [')']) :: (.lbrace, ['\x7b']) ::
      (body.lexemes ++ [(.rbrace, ['\x7d'])]) := by
  have split : (functionText body).lexemes =
      (.function, "fn".toList) :: (.lparen, ['(']) :: (.rparen, [')']) :: (.lbrace, ['\x7b']) ::
        (scanFrom (Location.start.past "fn() \x7b".toList) 0 (body ++ ['\x7d'])).ahead.map Token.lexeme := rfl
  rw [split, lexemes_scanFrom, Text.lexemes_append going (.symbol rfl)]
  rfl

/-- In a function without parameters, a source without braces is parsed as it is alone, whatever is wrong in it: the
statements of the block are its statements, and the faults are its faults, where the brace takes the place of the
end. -/
theorem function_recovers {limit : Nat} {body : Text} (going : nul ∉ body)
    (plain : ∀ token ∈ (scan body).ahead, token.kind ∉ [.lbrace, .rbrace])
    (unstruck : (parseWithin limit (functionText body)).Unstruck) :
    ∃ token fn brace statements, (parseWithin limit (functionText body)).program.statements =
        [.expressionStatement token (.function fn [] (.block brace statements))] ∧
      Node.SayAll statements (parseWithin limit body).program.statements ∧
      (parseWithin limit (functionText body)).diagnostics.map Diagnostic.message =
        (parseWithin limit body).diagnostics.map fun diagnostic => diagnostic.fault.enclosed.message := by
  have leads := TokenStream.Leads.scan (functionText body)
  rw [lexemes_functionText going] at leads
  obtain ⟨keyword, _, leads⟩ := leads.cons
  obtain ⟨_, _, leads⟩ := leads.cons
  obtain ⟨_, _, leads⟩ := leads.cons
  obtain ⟨_, _, leads⟩ := leads.cons
  obtain ⟨beyond, inner, closing⟩ := leads.append
  obtain ⟨closed, _, ended⟩ := closing.cons
  have last : beyond.count = 1 := closing.count
  have enclosed : Enclosed beyond (scan body) (scan (functionText body)).advanced.advanced.advanced.advanced := by
    refine ⟨inner, fun token member => ?_, closed⟩
    have real := (scan_genuine body token member).kind_ne_eof
    have own := plain token member
    simp only [List.mem_cons, List.not_mem_nil, or_false, not_or] at own
    simp [outer, own, real]
  have larger : Parsed.ofStream (limit + 1) (scan (functionText body)) = parseWithin limit (functionText body) :=
    Parsed.ofStream_of_le unstruck (Nat.le_succ limit)
  rw [← larger] at unstruck ⊢
  have kinds := scan_functionText going
  obtain ⟨nodes, found, collected, all, faults⟩ :=
    collects_alone enclosed (Parsed.block_unstruck kinds unstruck)
  obtain ⟨diagnostics, statements⟩ := Parsed.ofStream_block kinds collected last
  refine ⟨_, _, _, nodes, statements, all, ?_⟩
  have messages := congrArg (List.map Fault.message) faults
  rw [List.map_map, List.map_map] at messages
  rw [diagnostics]
  exact messages

/-- Complaints about other tokens than the end stay as they are; those about the end turn into ones about the brace. -/
theorem function_recovers_broken : ∃ token fn brace statements,
    (parseWithin 9 (functionText "let x 5; ) a; if (b) c; return".toList)).program.statements =
        [.expressionStatement token (.function fn [] (.block brace statements))] ∧
      Node.SayAll statements (parseWithin 9 "let x 5; ) a; if (b) c; return".toList).program.statements ∧
      (parseWithin 9 (functionText "let x 5; ) a; if (b) c; return".toList)).diagnostics.map Diagnostic.message =
        (parseWithin 9 "let x 5; ) a; if (b) c; return".toList).diagnostics.map fun diagnostic =>
          diagnostic.fault.enclosed.message :=
  function_recovers (by decide) (by decide) (by decide)

end Mana

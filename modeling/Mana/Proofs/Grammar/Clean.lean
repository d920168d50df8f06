import Mana.Proofs.Grammar.Alone
import Mana.Proofs.Grammar.Sound.Expression

/-! Streams without faults. All their statements are good, and in a block they are read as they are alone. -/
namespace Mana

namespace Grammar

open Parse

variable {nested : Nested} {levels : Nat} {strength : Int} {stream rest : TokenStream} {node tree : Node}

/-! The last token of a statement. -/

/-- The current token may be the last one of a statement. -/
def AtClose (stream : TokenStream) : Prop := stream.current.kind ∈ .semicolon :: Node.endings

theorem AtClose.going (ends : AtClose stream) : stream.current.kind ≠ .eof := fun ended => by
  rw [AtClose, ended] at ends
  exact absurd ends (by decide)

theorem AtClose.of_statement (ran : (statement (expression .standard levels)).run stream = ⟨.done node, rest, found⟩) :
    AtClose rest := by
  have ensures := (expression_ensures levels).statement stream
  rw [ran] at ensures
  obtain ⟨word, spans, _, formed⟩ := ensures.read node rfl
  exact formed.closes spans.last

theorem statement_expression
    (ran : (statement nested).run stream = ⟨.done (.expressionStatement token tree), rest, []⟩) :
    ∃ middle, (whole nested).run stream = ⟨.done tree, middle, []⟩ ∧
      rest = if middle.upcoming.kind = .semicolon then middle.advanced else middle := by
  rw [statement, run_current_bind] at ran
  split at ran
  · obtain ⟨_, _, _, _, _, ran, _⟩ := bind_done_cases ran
    obtain ⟨_, _, _, _, _, ran, _⟩ := bind_done_cases ran
    obtain ⟨_, _, _, _, _, ran, _⟩ := bind_done_cases ran
    obtain ⟨_, _, _, _, _, ran, _⟩ := bind_done_cases ran
    obtain ⟨_, _, _, _, _, ran, _⟩ := bind_done_cases ran
    obtain ⟨_, _, _, _, _, ran, _⟩ := bind_done_cases ran
    obtain ⟨_, _, _, _, _, ran, _⟩ := bind_done_cases ran
    cases ran
  · split at ran
    · obtain ⟨_, _, _, _, _, ran, _⟩ := bind_done_cases ran
      obtain ⟨_, _, _, _, _, ran, _⟩ := bind_done_cases ran
      obtain ⟨_, _, _, _, _, ran, _⟩ := bind_done_cases ran
      obtain ⟨_, _, _, _, _, ran, _⟩ := bind_done_cases ran
      cases ran
    · rw [expressionStatement, run_current_bind] at ran
      obtain ⟨value, middle, own, later, first, second, none⟩ := bind_done_cases ran
      obtain ⟨rfl, rfl⟩ := List.append_eq_nil_iff.mp none.symm
      rw [run_acceptSemicolon_bind] at second
      cases second
      exact ⟨middle, first, rfl⟩

/-- What is read as an expression up to the last token is derived as one. -/
theorem derives_of_run (ran : (expression .standard levels strength).run stream = ⟨.done node, rest, []⟩)
    (last : rest.count = 1) : Derives [.part .expression] stream.ahead := by
  cases expression_judges levels strength stream with
  | struck strikes =>
    rw [ran, Step.strikes_done] at strikes
    obtain ⟨_, member, _⟩ := strikes
    cases member
  | rejects word offender more split viable rejects =>
    obtain ⟨fault, others, found⟩ := rejects more stream split
    rw [ran] at found
    cases found
  | reads word result next more split extensible reads =>
    obtain ⟨left, ran', rest⟩ := reads more stream split
    rw [ran] at ran'
    cases ran'
    obtain rfl : more = [] := by
      have length := congrArg List.length rest
      rw [TokenStream.left_read, TokenStream.length_tokens, TokenStream.advanced_count, last] at length
      exact List.length_eq_zero_iff.mp (Nat.succ.inj length).symm
    exact (List.append_inj' split rfl).1 ▸ extensible.derives

end Grammar

/-- The stream is read as the statements, one after the other, and nothing is wrong with them. -/
inductive Clean (limit : Nat) : TokenStream → List Node → Prop where
  | ended (empty : stream.count = 0) : Clean limit stream []
  | done {stream rest : TokenStream} (going : stream.current.kind ≠ .eof) (within : rest.Within stream)
      (ran : (Grammar.statement (Grammar.expression .standard limit)).run stream = ⟨.done node, rest, []⟩)
      (others : Clean limit rest.advanced nodes) : Clean limit stream (node :: nodes)

namespace Clean

open Grammar Parse

variable {limit : Nat} {stream rest : TokenStream} {tree : Node} {trees : List Node}

theorem of_diagnostics (genuine : stream.Genuine) (clear : (Parsed.ofStream limit stream).diagnostics = []) :
    Clean limit stream (Parsed.ofStream limit stream).program.statements := by
  induction stream using Parsed.induct limit with
  | ended stream ended =>
    rw [(Parsed.ofStream_ended limit ended).1]
    exact .ended (genuine.count_of_ended ended)
  | done stream rest node found going within ran ih =>
    obtain ⟨statements, diagnostics⟩ := Parsed.ofStream_done going ran
    obtain ⟨rfl, others⟩ := List.append_eq_nil_iff.mp (diagnostics.symm.trans clear)
    rw [statements]
    exact .done going within ran (ih (genuine.within within).advanced others)
  | failed stream rest found going within ran ih =>
    obtain ⟨rfl, _⟩ := List.append_eq_nil_iff.mp ((Parsed.ofStream_failed going ran).2.symm.trans clear)
    have ensures := (expression_ensures limit).statement stream
    rw [ran] at ensures
    exact absurd rfl (ensures.failed rfl)
  | struck stream rest found going within ran ih =>
    have diagnostics := (Parsed.ofStream_struck going ran).2.symm.trans clear
    simp at diagnostics

/-- The last token is no opening parenthesis. -/
theorem not_opened (clean : Clean limit stream trees) :
    ∀ token, [token] <:+ stream.ahead → token.kind ≠ .lparen := by
  induction clean with
  | ended empty =>
    intro token last
    have length := last.length_le
    rw [← TokenStream.count_eq, empty] at length
    exact absurd length (Nat.not_succ_le_zero _)
  | @done node trees stream rest _ within ran _ ih =>
    intro token last
    have ends : AtClose rest := .of_statement ran
    have split := TokenStream.ahead_of_going ends.going
    have inner : [token] <:+ rest.ahead :=
      List.suffix_of_suffix_length_le last within.ahead (by rw [split]; simp)
    rw [split] at inner
    rcases List.suffix_cons_iff.mp inner with same | later
    · obtain ⟨rfl, _⟩ := List.cons.inj same
      intro opened
      rw [AtClose, opened] at ends
      exact absurd ends (by decide)
    · exact ih token later

theorem expression (clean : Clean limit stream [.expressionStatement token tree])
    (unsealed : ∀ token ∈ stream.ahead.getLast?, token.kind ≠ .semicolon) :
    ∃ rest, (expression .standard limit Level.lowest.strength).run stream = ⟨.done tree, rest, []⟩ ∧
      rest.count = 1 := by
  cases clean with
  | @done _ _ _ rest _ within ran others =>
    cases others with
    | ended empty =>
      have ends : AtClose rest := .of_statement ran
      have last : rest.count = 1 := by
        have some := TokenStream.count_pos ends.going
        rw [TokenStream.advanced_count] at empty
        omega
      obtain ⟨middle, read, left⟩ := statement_expression ran
      split at left
      · rename_i semicolon
        subst left
        have final : middle.advanced.current ∈ stream.ahead.getLast? :=
          List.singleton_suffix_iff_getLast?_eq_some.mp (TokenStream.ahead_of_last last ▸ within.ahead)
        exact absurd semicolon (unsealed _ final)
      · exact ⟨middle, read, left ▸ last⟩

theorem block {pairing : Pairing} {other : TokenStream} (clean : Clean limit stream trees)
    (abreast : pairing.Abreast stream other) (closed : pairing.beyond.current.kind = .rbrace) :
    ∃ nodes, (collect (blockRound (Grammar.expression .standard limit))).run other =
        ⟨.done nodes, pairing.beyond, []⟩ ∧ Node.SayAll nodes trees := by
  have meets : pairing.Meets Level.lowest.strength := .of_kind (by rw [closed]; decide)
  have unsealed : pairing.beyond.current.kind ≠ .semicolon := by
    rw [closed]
    decide
  induction clean generalizing other with
  | ended empty =>
    rw [abreast.beyond_eq empty, Block.run_closed closed]
    exact ⟨[], rfl, .nil⟩
  | @done node trees stream rest going within ran others ih =>
    have covers : pairing.Covers 0 stream := .of_lt (TokenStream.count_pos going)
    have going' : other.current.kind ≠ .rbrace ∧ other.current.kind ≠ .eof := by
      rw [(abreast.current covers).kind]
      exact ⟨fun closed => begins_of_statement ran (by rw [closed]; decide), going⟩
    have one := statement_tracks limit abreast covers
    rcases ran' : (statement (Grammar.expression .standard limit)).run other with ⟨outcome', rest', found'⟩
    have within' := ((expression_ensures limit).statement other).within_of ran'
    rw [ran, ran'] at one
    cases one with
    | stranded _ stranded =>
      cases stranded with
      | mentions mentions =>
        obtain ⟨_, member, _⟩ := mentions
        cases member
      | arrives _ _ _ _ _ unmet => exact absurd (.inr ⟨unsealed, meets⟩) unmet
    | done alike later reaches reports =>
      cases reports
      obtain ⟨nodes, collected, all⟩ := ih (later.advanced reaches)
      rw [Block.run_done going' within' ran', collected]
      exact ⟨_, rfl, .cons alike all⟩

end Clean

end Mana

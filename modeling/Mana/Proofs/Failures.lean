import Mana.Proofs.Grammar.Candour

/-! Failures are never silent. Whatever form is parsed at whatever token, a failure comes with a diagnostic at a token
in view, and a result without blocks comes with none. -/
namespace Mana

/-- Unless it is struck, the step fails just where it ends at the end of the tokens, and otherwise ends at a closing
brace. -/
def Step.Closes (step : Step Node) : Prop :=
  step.outcome ≠ .struck → (step.outcome = .failed ↔ step.rest.current.kind = .eof) ∧
    (step.outcome ≠ .failed → step.rest.current.kind = .rbrace)

namespace Grammar

open Parse

theorem block_closes (nested : Nested) (stream : TokenStream) : ((block nested).run stream).Closes := by
  intro unstruck
  rcases observed : (block nested).run stream with ⟨outcome, rest, found⟩
  rw [observed] at unstruck
  rw [run_block] at observed
  cases outcome with
  | struck => exact absurd rfl unstruck
  | failed =>
    have ended : rest.current.kind = .eof := by
      rcases andThen_failed_cases observed with collected | ⟨_, _, _, _, _, later⟩
      · exact collect_failed (fun _ _ _ => Block.round_failed_at) collected
      · cases later
    exact ⟨⟨fun _ => ended, fun _ => rfl⟩, fun going => absurd rfl going⟩
  | done body =>
    obtain ⟨statements, _, _, _, collected, done, _⟩ := andThen_done_cases observed
    cases done
    have closed : rest.current.kind = .rbrace := collect_stopped (fun _ _ _ => Block.round_stopped) collected
    refine ⟨⟨nofun, fun ended => ?_⟩, fun _ => closed⟩
    cases closed.symm.trans ended

/-- Failures are never silent, at any token and with any limit on nesting. A form of the language that fails has last
complained about one of the two tokens in view, and one that is done has found nothing, unless its result has a block
that was not in the expression on its left. A block fails just at the end of the tokens, and is otherwise done at a
closing brace. -/
theorem failure_explained (levels : Nat) (stream : TokenStream) :
    (∀ opening : Opening, opening ≠ .program →
        ((opening.parse (expression .standard levels)).run stream).Candid 0 Node.blocks) ∧
      (∀ (extension : Extension) (left : Node),
        ((extension.parse (expression .standard levels) left).run stream).Candid left.blocks Node.blocks) ∧
      (∀ strength, ((expression .standard levels strength).run stream).Candid 0 Node.blocks) ∧
      (∀ (item : Parse Node) (closing : Kind), item.Candid 0 Node.blocks →
        ((series item closing).run stream).Candid 0 Node.blocksOf) ∧
      ((block (expression .standard levels)).run stream).Closes := by
  have candid := expression_candid levels
  refine ⟨fun opening inner => ?_, fun extension left => ?_, fun strength => ?_, fun item closing each => ?_, ?_⟩
  · exact candid.opening opening inner stream
  · exact candid.extension extension left stream
  · exact candid strength stream
  · exact candid_series each closing stream
  · exact block_closes _ stream

/-- A parameter that is no name is complained about where it stands, and so are the parameters and the function. A block
that is not closed fails at the end. -/
theorem failure_explained_parameters :
    Opening.function ≠ .program ∧ parameter.Candid 0 Node.blocks ∧
      ((function (expression .standard 3)).run (scan "fn(a, 1) \x7b \x7d".toList)).outcome = .failed ∧
      ((function (expression .standard 3)).run (scan "fn(a, 1) \x7b \x7d".toList)).found =
        [⟨.expected .ident .int, ⟨1, 7⟩⟩] ∧
      ((function (expression .standard 3)).run (scan "fn(a, 1) \x7b \x7d".toList)).Explains ∧
      ((series parameter .rparen).run (scan "(a, 1) \x7b \x7d".toList)).Explains ∧
      ((block (expression .standard 3)).run (scan "\x7b a; b".toList)).outcome ≠ .struck ∧
      ((block (expression .standard 3)).run (scan "\x7b a; b".toList)).rest.current.kind = .eof := by
  obtain ⟨openings, _, _, _, _⟩ := failure_explained 3 (scan "fn(a, 1) \x7b \x7d".toList)
  obtain ⟨_, _, _, serial, _⟩ := failure_explained 3 (scan "(a, 1) \x7b \x7d".toList)
  obtain ⟨_, _, _, _, closes⟩ := failure_explained 3 (scan "\x7b a; b".toList)
  have unstruck : ((block (expression .standard 3)).run (scan "\x7b a; b".toList)).outcome ≠ .struck := by
    intro struck
    cases struck
  exact ⟨by decide, candid_parameter, rfl, rfl, (openings .function (by decide)).explains,
    (serial parameter .rparen candid_parameter).explains, unstruck, (closes unstruck).1.mp rfl⟩

end Grammar

end Mana

import Mana.Proofs.Grammar.Dispatch
import Mana.Proofs.Token.Window

/-! The rounds of blocks and programs, by what becomes of their next statement. -/
namespace Mana.Grammar

open Parse

variable {nested : Nested} {stream rest : TokenStream} {found : List Diagnostic} {node : Node}

/-- To give up a statement is to pass tokens. -/
theorem recovered_within (start : TokenStream) (stops : List Kind) (stream : TokenStream) :
    (recovered start stops stream).Within stream := by
  unfold recovered
  split
  · exact .refl stream
  · exact .skippedTo _ stream

theorem left_within (start : TokenStream) (stops : List Kind) (within : rest.Within stream) :
    (recovered start stops rest).advanced.Within stream :=
  (TokenStream.Within.advanced _).trans ((recovered_within start stops rest).trans within)

/-- After a statement was given up, parsing goes on behind the place where that is over. -/
theorem recovered_shorter (start : TokenStream) (stops : List Kind) (within : rest.Within stream)
    (going : stream.current.kind ≠ .eof) :
    (recovered start stops rest).advanced.count < stream.count :=
  ((recovered_within start stops rest).trans within).advanced_count_lt (TokenStream.count_pos going)

/-- A block is what is collected after its opening brace. -/
theorem run_block (nested : Nested) (stream : TokenStream) :
    (block nested).run stream = ((collect (blockRound nested)).run stream.advanced).andThen
      fun statements rest => ⟨.done (.block (some stream.current) statements), rest, []⟩ := rfl

namespace Block

theorem round_closed (closed : stream.current.kind = .rbrace) :
    (blockRound nested).run stream = ⟨.done .stop, stream, []⟩ := by
  simp only [blockRound, run_position_bind, if_pos closed]
  rfl

theorem round_ended (ended : stream.current.kind = .eof) :
    (blockRound nested).run stream = ⟨.failed, stream, [⟨.expected .rbrace .eof, stream.current.location⟩]⟩ := by
  simp only [blockRound, run_position_bind, ended]
  rfl

theorem run_closed (closed : stream.current.kind = .rbrace) :
    (collect (blockRound nested)).run stream = ⟨.done [], stream, []⟩ := by
  rw [run_collect, round_closed closed]
  rfl

theorem run_ended (ended : stream.current.kind = .eof) :
    (collect (blockRound nested)).run stream =
      ⟨.failed, stream, [⟨.expected .rbrace .eof, stream.current.location⟩]⟩ := by
  rw [run_collect, round_ended ended]
  rfl

variable (going : stream.current.kind ≠ .rbrace ∧ stream.current.kind ≠ .eof)
include going

theorem round_done (ran : (statement nested).run stream = ⟨.done node, rest, found⟩) :
    (blockRound nested).run stream = ⟨.done (.item node), rest.advanced, found⟩ := by
  simp only [blockRound, run_position_bind, if_neg going.1, if_neg going.2]
  rw [run_bind_done (run_attempt_done ran)]
  exact congrArg (Step.mk _ _) (List.append_nil found)

theorem round_failed (ran : (statement nested).run stream = ⟨.failed, rest, found⟩) :
    (blockRound nested).run stream = if (recovered stream [.rbrace] rest).current.kind = .rbrace then
        ⟨.done .stop, recovered stream [.rbrace] rest, found⟩
      else ⟨.done .nothing, (recovered stream [.rbrace] rest).advanced, found⟩ := by
  simp only [blockRound, run_position_bind, if_neg going.1, if_neg going.2]
  rw [run_bind_done (run_attempt_failed ran), run_bind_done (run_recover _ _ _), run_current_bind]
  split <;> exact congrArg (Step.mk _ _) (List.append_nil found)

theorem round_struck (ran : (statement nested).run stream = ⟨.struck, rest, found⟩) :
    (blockRound nested).run stream = ⟨.struck, rest, found⟩ := by
  simp only [blockRound, run_position_bind, if_neg going.1, if_neg going.2]
  rw [run_bind, run_attempt_struck ran]
  rfl

theorem run_done (within : rest.Within stream) (ran : (statement nested).run stream = ⟨.done node, rest, found⟩) :
    (collect (blockRound nested)).run stream =
      (((collect (blockRound nested)).run rest.advanced).map (node :: ·)).since found := by
  have shorter := within.advanced_count_lt (TokenStream.count_pos going.2)
  rw [run_collect, round_done going ran, Step.andThen_done]
  simp only [shorter, ↓reduceIte]

theorem run_failed (within : rest.Within stream) (ran : (statement nested).run stream = ⟨.failed, rest, found⟩) :
    (collect (blockRound nested)).run stream =
      (if (recovered stream [.rbrace] rest).current.kind = .rbrace then
        ⟨.done [], recovered stream [.rbrace] rest, []⟩
      else (collect (blockRound nested)).run (recovered stream [.rbrace] rest).advanced).since found := by
  have shorter := recovered_shorter stream [.rbrace] within going.2
  rw [run_collect, round_failed going ran]
  split
  · rfl
  · rw [Step.andThen_done]
    simp only [shorter, ↓reduceIte]

theorem run_struck (ran : (statement nested).run stream = ⟨.struck, rest, found⟩) :
    (collect (blockRound nested)).run stream = ⟨.struck, rest, found⟩ := by
  rw [run_collect, round_struck going ran]
  rfl

omit going

theorem round_stopped (ran : (blockRound nested).run stream = ⟨.done .stop, rest, found⟩) :
    rest.current.kind = .rbrace := by
  by_cases closed : stream.current.kind = .rbrace
  · cases (round_closed closed).symm.trans ran
    exact closed
  by_cases ended : stream.current.kind = .eof
  · cases (round_ended ended).symm.trans ran
  rcases one : (statement nested).run stream with ⟨outcome, left, own⟩
  cases outcome with
  | done node => cases (round_done ⟨closed, ended⟩ one).symm.trans ran
  | struck => cases (round_struck ⟨closed, ended⟩ one).symm.trans ran
  | failed =>
    rw [round_failed ⟨closed, ended⟩ one] at ran
    split at ran
    · rename_i found
      cases ran
      exact found
    · cases ran

/-- A block fails only at the end of the tokens. -/
theorem round_failed_at (ran : (blockRound nested).run stream = ⟨.failed, rest, found⟩) :
    rest.current.kind = .eof := by
  by_cases closed : stream.current.kind = .rbrace
  · cases (round_closed closed).symm.trans ran
  by_cases ended : stream.current.kind = .eof
  · cases (round_ended ended).symm.trans ran
    exact ended
  rcases one : (statement nested).run stream with ⟨outcome, left, own⟩
  cases outcome with
  | done node => cases (round_done ⟨closed, ended⟩ one).symm.trans ran
  | struck => cases (round_struck ⟨closed, ended⟩ one).symm.trans ran
  | failed =>
    rw [round_failed ⟨closed, ended⟩ one] at ran
    split at ran <;> cases ran

end Block

namespace Program

theorem round_ended (ended : stream.current.kind = .eof) :
    (programRound nested).run stream = ⟨.done .stop, stream, []⟩ := by
  simp only [programRound, run_position_bind, if_pos ended]
  rfl

theorem run_ended (ended : stream.current.kind = .eof) :
    (collect (programRound nested)).run stream = ⟨.done [], stream, []⟩ := by
  rw [run_collect, round_ended ended]
  rfl

variable (going : stream.current.kind ≠ .eof)
include going

theorem round_done (ran : (statement nested).run stream = ⟨.done node, rest, found⟩) :
    (programRound nested).run stream = ⟨.done (.item node), rest.advanced, found⟩ := by
  simp only [programRound, run_position_bind, if_neg going]
  rw [run_bind_done (run_orWhenStruck_done (run_attempt_done ran) _)]
  exact congrArg (Step.mk _ _) (List.append_nil found)

theorem round_failed (ran : (statement nested).run stream = ⟨.failed, rest, found⟩) :
    (programRound nested).run stream = ⟨.done .nothing, (recovered stream [] rest).advanced, found⟩ := by
  simp only [programRound, run_position_bind, if_neg going]
  rw [run_bind_done (run_orWhenStruck_done (run_attempt_failed ran) _), run_bind_done (run_recover _ _ _)]
  exact congrArg (Step.mk _ _) (List.append_nil found)

theorem round_struck (ran : (statement nested).run stream = ⟨.struck, rest, found⟩) :
    (programRound nested).run stream = ⟨.done .nothing, (recovered stream [] rest).advanced,
      found ++ [⟨.tooDeep, stream.current.location⟩]⟩ := by
  simp only [programRound, run_position_bind, if_neg going]
  rw [run_bind_done (run_orWhenStruck_struck (run_attempt_struck ran) _), run_bind_done (run_recover _ _ _)]
  exact congrArg (Step.mk _ _) (List.append_nil _)

omit going

theorem round_stopped (ran : (programRound nested).run stream = ⟨.done .stop, rest, found⟩) :
    rest.current.kind = .eof := by
  by_cases ended : stream.current.kind = .eof
  · cases (round_ended ended).symm.trans ran
    exact ended
  rcases one : (statement nested).run stream with ⟨outcome, left, own⟩
  cases outcome with
  | done node => cases (round_done ended one).symm.trans ran
  | failed => cases (round_failed ended one).symm.trans ran
  | struck => cases (round_struck ended one).symm.trans ran

end Program

end Mana.Grammar

import Mana.Proofs.Token.Window

/-! What is left of a stream while a form is parsed. A form is due at the token that it begins with, and
read once the current token is its last one. -/
namespace Mana

/-- Whether the current token is still to be read. -/
inductive Stage where
  | due | read

namespace TokenStream

variable {rest stream : TokenStream}

/-- The tokens that are left at a stage, up to and including the end. -/
def left (stream : TokenStream) : Stage → List Token
  | .due => stream.tokens
  | .read => stream.advanced.tokens

/-- The first token that is left at a stage. -/
def next (stream : TokenStream) : Stage → Token
  | .due => stream.current
  | .read => stream.upcoming

@[simp] theorem left_due (stream : TokenStream) : stream.left .due = stream.tokens := rfl

@[simp] theorem left_read (stream : TokenStream) : stream.left .read = stream.advanced.tokens := rfl

theorem tokens_eq (stream : TokenStream) : ∃ more, stream.tokens = stream.current :: more := by
  cases split : stream.ahead with
  | nil => exact ⟨[], by simp [tokens, current, split]⟩
  | cons token rest => exact ⟨rest ++ [stream.final], by simp [tokens, current, split]⟩

theorem left_eq (stream : TokenStream) (stage : Stage) :
    ∃ more, stream.left stage = stream.next stage :: more := by
  cases stage with
  | due => exact stream.tokens_eq
  | read => exact stream.advanced.tokens_eq

theorem next_eq (split : stream.left stage = token :: more) : stream.next stage = token := by
  obtain ⟨others, same⟩ := stream.left_eq stage
  rw [same] at split
  exact (List.cons.inj split).1

/-- A current token before the end is one of the tokens, and those after it remain. -/
theorem tokens_of_going (going : stream.current.kind ≠ .eof) :
    stream.tokens = stream.current :: stream.advanced.tokens := by
  rw [tokens, ahead_of_going going]
  rfl

theorem tokens_advanced (split : stream.tokens = token :: follower :: more) :
    stream.advanced.tokens = follower :: more := by
  cases ahead : stream.ahead with
  | nil => simp [tokens, ahead] at split
  | cons first rest =>
    simp only [tokens, ahead, List.cons_append, List.cons.injEq] at split
    simpa [tokens, ahead, advanced, final] using split.2

theorem length_tokens (stream : TokenStream) : stream.tokens.length = stream.count + 1 := by
  rw [tokens, List.length_append, stream.count_eq, List.length_singleton]

/-- A stream with fewer tokens left has fewer tokens ahead. -/
theorem count_lt_of_left (shorter : (rest.left stage).length < (stream.left stage).length) :
    rest.count < stream.count := by
  cases stage with
  | due =>
    rw [left_due, left_due, length_tokens, length_tokens] at shorter
    omega
  | read =>
    rw [left_read, left_read, length_tokens, length_tokens, advanced_count, advanced_count] at shorter
    omega

end TokenStream

end Mana

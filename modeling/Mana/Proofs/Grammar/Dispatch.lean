import Mana.Proofs.Parse.Run
import Mana.Grammar.Expression

/-! Which forms the rules of the language choose, and how the choice of a wanted token runs. -/
namespace Mana

/-- The operators before an operand. -/
def unaryOperators : List Kind := [.bang, .minus]

/-- The operators between operands. -/
def binaryOperators : List Kind := [.plus, .minus, .asterisk, .slash, .eq, .notEq, .lt, .gt]

namespace Grammar

open Parse

theorem Rules.opening_cases {opening : Opening} (found : standard.opening kind = some opening) :
    (opening = .identifier ∧ kind = .ident) ∨ (opening = .integer ∧ kind = .int) ∨
      (opening = .boolean ∧ kind ∈ [.trueKeyword, .falseKeyword]) ∨
      (opening = .unary ∧ kind ∈ unaryOperators) ∨ (opening = .grouped ∧ kind = .lparen) ∨
      (opening = .conditional ∧ kind = .ifKeyword) ∨ (opening = .function ∧ kind = .function) := by
  cases kind <;> cases found <;> simp [unaryOperators]

theorem Rules.opening_unary (operator : kind ∈ unaryOperators) : standard.opening kind = some .unary := by
  simp only [unaryOperators, List.mem_cons, List.not_mem_nil, or_false] at operator
  rcases operator with same | same <;> rw [same] <;> rfl

theorem Rules.extension_binary (operator : kind ∈ binaryOperators) : standard.extension kind = some .binary := by
  revert operator
  cases kind <;> decide

/-- Nothing begins an expression at the end. -/
theorem Rules.ne_eof_of_opening {opening : Opening} (found : standard.opening kind = some opening) : kind ≠ .eof := by
  rintro rfl
  cases found

/-- Nothing goes on with an expression at the end. -/
theorem Rules.ne_eof_of_extension {extension : Extension} (found : standard.extension kind = some extension) :
    kind ≠ .eof := by
  rintro rfl
  cases found

theorem ne_eof_of_unary (operator : kind ∈ unaryOperators) : kind ≠ .eof :=
  Rules.ne_eof_of_opening (Rules.opening_unary operator)

theorem ne_eof_of_binary (operator : kind ∈ binaryOperators) : kind ≠ .eof :=
  Rules.ne_eof_of_extension (Rules.extension_binary operator)

theorem Rules.extension_cases {extension : Extension} (found : standard.extension kind = some extension) :
    (extension = .binary ∧ kind ∈ binaryOperators) ∨ (extension = .call ∧ kind = .lparen) := by
  cases kind <;> cases found <;> simp [binaryOperators]

/-- To pass on to a wanted token is to pass it, or to complain and fail. -/
theorem expect_bind (wanted : Kind) (follow : Unit → Parse α) :
    expect wanted >>= follow = upcoming >>= fun next =>
      if next.kind = wanted then advance >>= follow
      else complain (.expected wanted next.kind) next >>= fun _ => fail := by
  apply Parse.ext
  intro stream
  rw [run_bind]
  simp only [expect, run_upcoming_bind]
  split <;> rfl

theorem run_expect_bind (wanted : Kind) (follow : Unit → Parse α) (stream : TokenStream) :
    (expect wanted >>= follow).run stream =
      if stream.upcoming.kind = wanted then (follow ()).run stream.advanced
      else ⟨.failed, stream, [⟨.expected wanted stream.upcoming.kind, stream.upcoming.location⟩]⟩ := by
  rw [expect_bind, run_upcoming_bind]
  split <;> rfl

/-- A semicolon that is next is passed. -/
theorem run_acceptSemicolon_bind (follow : Unit → Parse α) (stream : TokenStream) :
    (acceptSemicolon >>= follow).run stream =
      (follow ()).run (if stream.upcoming.kind = .semicolon then stream.advanced else stream) := by
  rw [run_bind]
  simp only [acceptSemicolon, run_upcoming_bind]
  split <;> rfl

/-- Where parsing goes on after the statement that began at a position was given up. -/
def recovered (start : TokenStream) (stops : List Kind) (stream : TokenStream) : TokenStream :=
  if stream.count = start.count ∧ start.current.kind ≠ .letKeyword ∧ start.current.kind ≠ .returnKeyword then
    stream
  else stream.skippedTo fun kind => kind = .semicolon || kind = .eof || stops.contains kind

theorem run_recover (start : TokenStream) (stops : List Kind) (stream : TokenStream) :
    (recover start stops).run stream = ⟨.done (), recovered start stops stream, []⟩ := by
  have same : (stream.count = start.count && start.current.kind != .letKeyword &&
      start.current.kind != .returnKeyword) = true ↔ stream.count = start.count ∧
        start.current.kind ≠ .letKeyword ∧ start.current.kind ≠ .returnKeyword := by
    simp [and_assoc]
  simp only [recover, run_position_bind, recovered, same]
  split <;> rfl

end Grammar

end Mana

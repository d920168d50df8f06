import Mana.Proofs.Grammar.Tracked.Expression

/-! Expressions step by step: what begins at the current token, and one extension after the other. -/
namespace Mana.Grammar

open Parse

variable {nested : Nested} {strength : Int} {token : Token} {stream rest : TokenStream} {left longer : Node}

/-- An expression is what begins at the current token, extended as far as tokens bind. -/
theorem run_expression (levels : Nat) (strength : Int) (stream : TokenStream) :
    (expression .standard (levels + 1) strength).run stream =
      ((opened .standard (expression .standard levels)).run stream).andThen fun left =>
        (extended .standard (expression .standard levels) strength left).run := rfl

/-- A token that does not end an expression has a rule to extend it. -/
theorem extension_of_not_halts (going : ¬ Halts strength token) :
    ∃ extension, Rules.standard.extension token.kind = some extension :=
  Option.ne_none_iff_exists'.mp fun none => going (.inr (.inr none))

/-- An upcoming token that does not end the expression extends it by its rule, and what comes of that is extended
again. -/
theorem run_extended_going (going : ¬ Halts strength stream.upcoming)
    (chosen : Rules.standard.extension stream.upcoming.kind = some extension) :
    (extended .standard nested strength left).run stream =
      ((extension.parse nested left).run stream.advanced).andThen fun longer rest =>
        if rest.count < stream.count then (extended .standard nested strength longer).run rest
        else ⟨.struck, rest, []⟩ := by
  obtain ⟨plain, binds⟩ := not_or.mp going
  have round : (extendedRound .standard nested strength left).run stream =
      ((extension.parse nested left).run stream.advanced).andThen fun longer rest =>
        ⟨.done (.again longer id), rest, []⟩ := by
    simp only [extendedRound, run_upcoming_bind]
    rw [if_neg (by simpa [plain] using (not_or.mp binds).1), chosen]
    rfl
  rw [extended, run_iterate, round, Step.andThen_assoc]
  congr 1
  funext longer rest
  simp only [Step.andThen_done, Step.since_nil, Step.map_id]
  rfl

/-- Where a token binds and its extension is done without a diagnostic, the longer expression is extended from there. -/
theorem run_extended_again (chosen : Rules.standard.extension stream.upcoming.kind = some extension)
    (binds : strength < stream.upcoming.kind.strength)
    (ran : (extension.parse nested left).run stream.advanced = ⟨.done longer, rest, []⟩)
    (shorter : rest.count < stream.count) :
    (extended .standard nested strength left).run stream = (extended .standard nested strength longer).run rest := by
  have going : ¬ Halts strength stream.upcoming := by
    rintro (plain | weak | none)
    · rw [plain] at chosen
      cases chosen
    · exact absurd binds (Int.not_lt.mpr weak)
    · rw [none] at chosen
      cases chosen
  rw [run_extended_going going chosen, ran, Step.andThen_done, if_pos shorter, Step.since_nil]

end Mana.Grammar

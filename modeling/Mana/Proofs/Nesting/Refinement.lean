import Mana.Proofs.Grammar.Concurring

/-! What a larger limit on nesting can change: nothing in a step that does not strike the limit. -/
namespace Mana.Grammar

open Parse

variable {levels more : Nat}

theorem routines_accord (fewer : levels ≤ more) (routine : Routine) (stream : TokenStream) :
    ((Nested.routines (expression .standard levels) routine).run stream).Coincides True
      ((Nested.routines (expression .standard more) routine).run stream) stream := by
  generalize same : Visit.mk routine stream = visit
  induction visit using Visit.below_wellFounded.induction generalizing routine stream levels more with
  | _ visit ih =>
    subst same
    by_cases whole : ∃ strength, routine = .expression strength
    · obtain ⟨strength, rfl⟩ := whole
      cases levels with
      | zero => exact .inl ⟨trivial, Step.strikes_struck⟩
      | succ levels =>
        obtain ⟨more, rfl⟩ := Nat.exists_eq_succ_of_ne_zero (Nat.ne_of_gt (Nat.lt_of_lt_of_le levels.succ_pos fewer))
        have own (levels : Nat) : Nested.routines (expression .standard levels.succ) (.expression strength) =
            (Routine.expression strength).body (Nested.routines (expression .standard levels)) :=
          (Routine.body_expression levels strength).symm
        rw [own, own]
        exact Routine.body_accords _ fun inner rest below =>
          ih ⟨inner, rest⟩ below (Nat.le_of_succ_le_succ fewer) inner rest rfl
    · have other (strength : Int) : routine ≠ .expression strength := fun same => whole ⟨strength, same⟩
      rw [← Routine.body_routines _ _ other, ← Routine.body_routines _ _ other]
      exact routine.body_accords fun inner rest below => ih ⟨inner, rest⟩ below fewer inner rest rfl

/-- A larger limit changes nothing in an expression that does not strike the limit. -/
theorem expression_eq_of_unstruck (fewer : levels ≤ more)
    (unstruck : ¬ ((expression .standard levels strength).run stream).Strikes) :
    (expression .standard levels strength).run stream = (expression .standard more strength).run stream :=
  (routines_accord fewer (.expression strength) stream).eq_of_unstruck unstruck

theorem opened_eq_of_unstruck (fewer : levels ≤ more)
    (unstruck : ¬ ((opened .standard (expression .standard levels)).run stream).Strikes) :
    (opened .standard (expression .standard levels)).run stream =
      (opened .standard (expression .standard more)).run stream :=
  (Routines.accords_opened fun form _ _ => routines_accord fewer (.opening form) stream).eq_of_unstruck unstruck

theorem program_eq_of_unstruck (fewer : levels ≤ more)
    (unstruck : ¬ ((program (expression .standard levels)).run stream).Strikes) :
    (program (expression .standard levels)).run stream = (program (expression .standard more)).run stream :=
  (routines_accord fewer (.opening .program) stream).eq_of_unstruck unstruck

theorem programRound_eq_of_unstruck (fewer : levels ≤ more)
    (unstruck : ¬ ((programRound (expression .standard levels)).run stream).Strikes) :
    (programRound (expression .standard levels)).run stream = (programRound (expression .standard more)).run stream :=
  (Routines.accords_programRound (routines_accord fewer (.opening .statement) stream)).eq_of_unstruck unstruck

end Mana.Grammar

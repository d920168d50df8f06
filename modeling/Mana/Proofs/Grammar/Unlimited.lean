import Mana.Proofs.Grammar.Concurring

/-! The parser without a limit on nesting. Its routines are what they do over each other, and nothing else is. Where the
parser with a limit has levels enough, it does the same. -/
namespace Mana.Grammar

open Parse

/-- A routine run without a limit on nesting. To define it, calls that are not below are struck. -/
def Routine.runUnlimited (routine : Routine) (stream : TokenStream) : Step Node :=
  (routine.body fun inner => ⟨fun rest =>
    if Visit.Below ⟨inner, rest⟩ ⟨routine, stream⟩ then inner.runUnlimited rest else ⟨.struck, rest, []⟩⟩).run stream
termination_by Visit.mk routine stream
decreasing_by assumption

/-- The routines of the parser without a limit on nesting. -/
def unlimited : Routines := fun routine => ⟨routine.runUnlimited⟩

variable {routine : Routine} {stream : TokenStream}

/-- Every routine without a limit is what it does over the routines without a limit, and is not struck. -/
theorem unlimited_concurs (routine : Routine) (stream : TokenStream) :
    ((unlimited routine).run stream).Concurs ((routine.body unlimited).run stream) stream fun _ _ => True := by
  generalize same : Visit.mk routine stream = visit
  induction visit using Visit.below_wellFounded.induction generalizing routine stream with
  | _ visit ih =>
    subst same
    have run : (unlimited routine).run stream = routine.runUnlimited stream := rfl
    rw [run, Routine.runUnlimited]
    refine Step.Accords.concurs (routine.body_accords fun inner rest below => ?_)
    have later := ih ⟨inner, rest⟩ below inner rest rfl
    simp only [below, ↓reduceIte]
    exact .inr (later.trans later.same.symm)

theorem unlimited_accords_self (routine : Routine) (stream : TokenStream) :
    ((unlimited routine).run stream).Coincides False ((unlimited routine).run stream) stream :=
  .inr ((unlimited_concurs routine stream).trans (unlimited_concurs routine stream).same.symm)

/-- The routines without a limit are a solution. -/
theorem unlimited_eq (routine : Routine) : unlimited routine = routine.body unlimited :=
  Parse.ext fun stream => (unlimited_concurs routine stream).same

/-- What a routine without a limit does depends only on the visits below its own. -/
theorem run_unlimited_of_below {routines : Routines}
    (below : ∀ inner rest, Visit.Below ⟨inner, rest⟩ ⟨routine, stream⟩ →
      (routines inner).run rest = (unlimited inner).run rest) :
    (routine.body routines).run stream = (unlimited routine).run stream := by
  rw [unlimited_eq]
  refine (Step.Accords.concurs (routine.body_accords fun inner rest lower => ?_)).same.symm
  rw [below inner rest lower]
  exact unlimited_accords_self inner rest

/-- There is no other solution. -/
theorem eq_unlimited {solution : Routines} (solves : ∀ routine, solution routine = routine.body solution) :
    solution = unlimited := by
  funext routine
  refine Parse.ext fun stream => ?_
  generalize same : Visit.mk routine stream = visit
  induction visit using Visit.below_wellFounded.induction generalizing routine stream with
  | _ visit ih =>
    subst same
    rw [solves]
    exact run_unlimited_of_below fun inner rest below => ih ⟨inner, rest⟩ below inner rest rfl

/-- Every loop passes a token in each round that goes on. -/
structure Routines.Passing (routines : Routines) : Prop where
  program : ∀ stream gain rest found, routines.programRound.run stream = ⟨.done gain, rest, found⟩ →
    Gain.Passes (fun _ => True) stream gain rest
  block : ∀ stream gain rest found, routines.blockRound.run stream = ⟨.done gain, rest, found⟩ →
    Gain.Passes (fun _ => True) stream gain rest
  series : ∀ item stream gain rest found, (seriesRound (routines item)).run stream = ⟨.done gain, rest, found⟩ →
    Gain.Passes (fun _ => True) stream gain rest
  extension : ∀ strength left stream decision rest found,
    (routines.extendedRound strength left).run stream = ⟨.done decision, rest, found⟩ →
      Round.Passes (fun _ => True) (fun _ => True) stream decision rest

theorem unlimited_passing : unlimited.Passing where
  program stream _ _ _ ran := (Routines.accords_programRound (unlimited_accords_self _ stream)).concurs.result_of ran
  block stream _ _ _ ran := (Routines.accords_blockRound fun _ => unlimited_accords_self _ stream).concurs.result_of ran
  series item stream _ _ _ ran :=
    (accords_seriesRound (fun place _ => unlimited_accords_self item place) (.refl stream)).concurs.result_of ran
  extension strength left stream _ _ _ ran :=
    (Routines.accords_extendedRound strength left fun _ _ =>
      unlimited_accords_self _ stream.advanced).concurs.result_of ran

/-- The levels that are enough for a visit: as many as there are tokens ahead, and one more for what may begin with an
expression. -/
def Visit.levels (visit : Visit) : Nat :=
  if visit.routine.rank false < 3 then max visit.stream.count 1 else visit.stream.count + 1

namespace Visit

variable {inner outer : Visit}

theorem levels_pos (visit : Visit) : 0 < visit.levels := by
  unfold levels
  split <;> omega

theorem le_levels (visit : Visit) : visit.stream.count ≤ visit.levels := by
  unfold levels
  split <;> omega

theorem levels_le (visit : Visit) : visit.levels ≤ visit.stream.count + 1 := by
  unfold levels
  split <;> omega

/-- For the same tokens a visit comes below another at the end, where one level is enough for each, or by the rank that
its routine has before the end. -/
theorem Below.cases (below : inner.Below outer) :
    inner.stream.count < outer.stream.count ∨ inner.stream.count = outer.stream.count ∧
      (outer.stream.count = 0 ∧ inner.rank < outer.rank ∨
        0 < outer.stream.count ∧ inner.routine.rank false < outer.routine.rank false) := by
  refine below.imp_right fun lower => ⟨lower.1, ?_⟩
  obtain ⟨same, lower⟩ := lower
  by_cases ended : outer.stream.count = 0
  · exact .inl ⟨ended, lower⟩
  · have going : decide (outer.stream.count = 0) = false := decide_eq_false ended
    rw [rank, rank, same, going] at lower
    exact .inr ⟨Nat.pos_of_ne_zero ended, lower⟩

theorem Below.levels_le (below : inner.Below outer) : inner.levels ≤ outer.levels := by
  have most := inner.levels_le
  have least := outer.le_levels
  rcases below.cases with shorter | ⟨same, ⟨ended, _⟩ | ⟨going, lower⟩⟩
  · omega
  · have some := outer.levels_pos
    omega
  · unfold levels
    split <;> split <;> omega

theorem Below.levels_lt (below : inner.Below outer) (whole : outer.routine = .expression strength) :
    inner.levels < outer.levels := by
  have most := inner.levels_le
  have levels : outer.levels = outer.stream.count + 1 := by
    rw [Visit.levels, whole]
    exact if_neg (Nat.lt_irrefl 3)
  rcases below.cases with shorter | ⟨same, ⟨ended, lower⟩ | ⟨going, lower⟩⟩
  · omega
  · have none : outer.rank = 0 := by rw [rank, whole, ended]; rfl
    omega
  · rw [whole] at lower
    have handler : inner.levels = max inner.stream.count 1 := if_pos lower
    omega

end Visit

/-- Within levels enough the limit makes no difference. -/
theorem run_routines_eq (enough : Visit.levels ⟨routine, stream⟩ ≤ levels) :
    ((Nested.routines (expression .standard levels)) routine).run stream = (unlimited routine).run stream := by
  generalize same : Visit.mk routine stream = visit
  induction visit using Visit.below_wellFounded.induction generalizing routine stream levels with
  | _ visit ih =>
    subst same
    by_cases whole : ∃ strength, routine = .expression strength
    · obtain ⟨strength, rfl⟩ := whole
      have some : 0 < levels := Nat.lt_of_lt_of_le (Visit.levels_pos _) enough
      obtain ⟨fewer, rfl⟩ := Nat.exists_eq_succ_of_ne_zero (Nat.ne_of_gt some)
      have own : Nested.routines (expression .standard fewer.succ) (.expression strength) =
          (Routine.expression strength).body (Nested.routines (expression .standard fewer)) :=
        (Routine.body_expression fewer strength).symm
      rw [own]
      refine run_unlimited_of_below fun inner rest below => ?_
      exact ih ⟨inner, rest⟩ below (Nat.le_of_lt_succ (Nat.lt_of_lt_of_le (below.levels_lt rfl) enough)) rfl
    · rw [← Routine.body_routines _ _ fun strength same => whole ⟨strength, same⟩]
      exact run_unlimited_of_below fun inner rest below =>
        ih ⟨inner, rest⟩ below (Nat.le_trans below.levels_le enough) rfl

end Mana.Grammar

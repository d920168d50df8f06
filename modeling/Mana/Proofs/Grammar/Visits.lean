import Mana.Proofs.Grammar.Routines
import Mana.Proofs.Parse.Concurs

/-! Visits of routines to the tokens ahead. A routine calls others only for fewer tokens, or for the same tokens if they
come after it in an order of the routines, so that no routine is called again before a token is passed. -/
namespace Mana.Grammar

open Parse

variable {stream rest : TokenStream} {inner outer : Routine} {routines others : Routines}

/-- How many routines may be called one in another for the same tokens. At the end an expression calls nothing. -/
def Routine.rank (ended : Bool) : Routine → Nat
  | .opening .program => 6
  | .opening .statement => 5
  | .opening .letStatement | .opening .returnStatement | .opening .expressionStatement => 4
  | .opening .argument => if ended then 1 else 4
  | .expression _ => if ended then 0 else 3
  | .opening .unary | .opening .grouped | .opening .conditional | .opening .function | .extension .. => 2
  | .opening .block => 1
  | .opening .identifier | .opening .integer | .opening .boolean | .opening .parameter => 0

/-- A routine called for the tokens ahead. -/
structure Visit where
  routine : Routine
  stream : TokenStream

namespace Visit

def rank (visit : Visit) : Nat := visit.routine.rank (visit.stream.count = 0)

/-- A visit comes below another if it has fewer tokens ahead, or as many and a lower rank. -/
def Below (inner outer : Visit) : Prop :=
  inner.stream.count < outer.stream.count ∨ inner.stream.count = outer.stream.count ∧ inner.rank < outer.rank

instance (inner outer : Visit) : Decidable (inner.Below outer) := inferInstanceAs (Decidable (_ ∨ _))

theorem below_wellFounded : WellFounded Below := by
  have lexical : WellFounded (Prod.Lex (· < ·) (· < ·) : Nat × Nat → Nat × Nat → Prop) :=
    (Prod.lex Nat.lt_wfRel Nat.lt_wfRel).wf
  refine Subrelation.wf ?_ (InvImage.wf (fun visit : Visit => (visit.stream.count, visit.rank)) lexical)
  intro inner outer below
  exact Prod.lex_def.mpr below

instance : WellFoundedRelation Visit := ⟨Below, below_wellFounded⟩

theorem Below.trans {first second third : Visit} (lower : first.Below second) (upper : second.Below third) :
    first.Below third := by
  unfold Below at *
  omega

/-- A routine comes below itself only with fewer tokens ahead. -/
theorem Below.count_lt (below : Below ⟨outer, rest⟩ ⟨outer, stream⟩) : rest.count < stream.count := by
  rcases below with shorter | ⟨same, lower⟩
  · exact shorter
  · have equal : rest.count = stream.count := same
    simp only [rank, equal] at lower
    exact absurd lower (Nat.lt_irrefl _)

/-- What is called on a path of calls comes below where the path begins. -/
theorem below_of_path {first second : Visit} (path : Relation.TransGen Below first second) : first.Below second := by
  induction path with
  | single below => exact below
  | tail _ upper ih => exact ih.trans upper

/-- A routine of a lower rank comes below for the same tokens. -/
theorem below_of_within (within : rest.Within stream) (lower : ∀ ended, inner.rank ended < outer.rank ended) :
    Below ⟨inner, rest⟩ ⟨outer, stream⟩ := by
  rcases Nat.lt_or_eq_of_le within.count_le with shorter | same
  · exact .inl shorter
  · refine .inr ⟨same, ?_⟩
    simp only [rank, same]
    exact lower _

/-- Where a token is passed, only at the end the rank has to be lower. -/
theorem below_of_advanced (within : rest.Within stream.advanced) (lower : inner.rank true < outer.rank true) :
    Below ⟨inner, rest⟩ ⟨outer, stream⟩ := by
  have fewer := within.count_le
  rw [TokenStream.advanced_count] at fewer
  by_cases ended : stream.count = 0
  · have same : rest.count = 0 := by omega
    refine .inr ⟨same.trans ended.symm, ?_⟩
    simpa only [rank, same, ended, decide_true] using lower
  · exact .inl (show rest.count < stream.count by omega)

/-- Before the end an expression may call what ranks below it there. -/
theorem below_of_going (going : 0 < stream.count) (lower : inner.rank false < outer.rank false) :
    Below ⟨inner, stream⟩ ⟨outer, stream⟩ := by
  refine .inr ⟨rfl, ?_⟩
  have some : decide (stream.count = 0) = false := decide_eq_false (Nat.ne_of_gt going)
  simpa only [rank, some] using lower

end Visit

end Mana.Grammar

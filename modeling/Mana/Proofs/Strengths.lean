import Mana.Proofs.Grammar.Extended

/-! Expressions at two strengths. To parse an expression that binds weakly is to parse one that binds strongly, and then
to extend it by whatever binds less; and what comes after an expression binds no more tightly than was asked. -/
namespace Mana.Grammar

open Parse

variable {nested : Nested} {strength weaker stronger : Int} {token : Token} {stream : TokenStream} {left : Node}

theorem Halts.mono (halts : Halts weaker token) (fewer : weaker ≤ stronger) : Halts stronger token :=
  halts.imp_right (Or.imp_left fun weak => Int.le_trans weak fewer)

theorem strength_of_none (none : Rules.standard.extension kind = none) : kind.strength = Level.lowest.strength := by
  revert none
  cases kind <;> decide

theorem Halts.strength_le (halts : Halts strength token) :
    token.kind.strength ≤ max strength Level.lowest.strength := by
  rcases halts with semicolon | weak | none
  · rw [semicolon]
    exact Int.le_max_right strength _
  · exact Int.le_trans weak (Int.le_max_left strength _)
  · rw [strength_of_none none]
    exact Int.le_max_right strength _

/-- To extend an expression as far as tokens bind weakly is to extend it first as far as they bind strongly. -/
theorem run_extended_split (fewer : weaker ≤ stronger) (left : Node) (stream : TokenStream) :
    (extended .standard nested weaker left).run stream =
      ((extended .standard nested stronger left).run stream).andThen fun longer =>
        (extended .standard nested weaker longer).run := by
  induction stream using TokenStream.induct generalizing left with
  | fewer stream ih =>
    by_cases halts : Halts stronger stream.upcoming
    · rw [run_extended_halts nested left halts, Step.andThen_done, Step.since_nil]
    · have going : ¬ Halts weaker stream.upcoming := fun weak => halts (weak.mono fewer)
      obtain ⟨extension, chosen⟩ := extension_of_not_halts halts
      rw [run_extended_going going chosen, run_extended_going halts chosen, Step.andThen_assoc]
      congr 1
      funext longer rest
      by_cases shorter : rest.count < stream.count
      · simp only [shorter, ↓reduceIte]
        exact ih rest shorter longer
      · simp only [shorter, ↓reduceIte]
        rfl

/-- An expression that is done is extended up to a token that ends it. -/
theorem halts_of_extended
    (ran : (extended .standard nested strength left).run stream = ⟨.done result, rest, found⟩) :
    Halts strength rest.upcoming := by
  induction stream using TokenStream.induct generalizing left found with
  | fewer stream ih =>
    by_cases halts : Halts strength stream.upcoming
    · rw [run_extended_halts nested left halts] at ran
      obtain rfl : stream = rest := congrArg Step.rest ran
      exact halts
    · obtain ⟨extension, chosen⟩ := extension_of_not_halts halts
      rw [run_extended_going halts chosen] at ran
      obtain ⟨longer, middle, own, later, _, again, _⟩ := andThen_done_cases ran
      by_cases shorter : middle.count < stream.count
      · simp only [shorter, ↓reduceIte] at again
        exact ih middle shorter again
      · simp only [shorter, ↓reduceIte] at again
        cases again

/-- An expression that binds weakly is one that binds strongly, extended from there: both ways come to the same
result, tokens and diagnostics. Behind an expression the upcoming token binds no more tightly than was asked, or no
more tightly than any token. -/
theorem expression_split (levels : Nat) (stream : TokenStream) (fewer : weaker ≤ stronger) :
    (expression .standard (levels + 1) weaker).run stream =
        ((expression .standard (levels + 1) stronger).run stream).andThen
          (fun left => (extended .standard (expression .standard levels) weaker left).run) ∧
      ∀ result rest found, (expression .standard (levels + 1) weaker).run stream = ⟨.done result, rest, found⟩ →
        rest.upcoming.kind.strength ≤ max weaker Level.lowest.strength := by
  constructor
  · rw [run_expression, run_expression, Step.andThen_assoc]
    congr 1
    funext left rest
    exact run_extended_split fewer left rest
  · intro result rest found ran
    rw [run_expression] at ran
    obtain ⟨left, middle, own, later, _, longer, _⟩ := andThen_done_cases ran
    exact (halts_of_extended longer).strength_le

/-- At the strength of a sum a product stands alone, and the plus sign behind it is still to come. -/
theorem expression_split_product :
    Level.lowest.strength ≤ Level.sum.strength ∧
      ((expression .standard 3 Level.sum.strength).run (scan "a * b + c < d;".toList)).rest.upcoming.kind = .plus ∧
      (expression .standard 3 Level.lowest.strength).run (scan "a * b + c < d;".toList) =
        ((expression .standard 3 Level.sum.strength).run (scan "a * b + c < d;".toList)).andThen
          (fun left => (extended .standard (expression .standard 2) Level.lowest.strength left).run) ∧
      ∃ result rest, (expression .standard 3 Level.lowest.strength).run (scan "a * b + c < d;".toList) =
          ⟨.done result, rest, []⟩ ∧
        rest.upcoming.kind.strength ≤ max Level.lowest.strength Level.lowest.strength := by
  have fewer : Level.lowest.strength ≤ Level.sum.strength := by decide
  obtain ⟨split, ended⟩ := expression_split 2 (scan "a * b + c < d;".toList) fewer
  have done : ∃ result rest, (expression .standard 3 Level.lowest.strength).run (scan "a * b + c < d;".toList) =
      ⟨.done result, rest, []⟩ := ⟨_, _, rfl⟩
  obtain ⟨result, rest, ran⟩ := done
  exact ⟨fewer, rfl, split, result, rest, ran, ended _ _ _ ran⟩

end Mana.Grammar

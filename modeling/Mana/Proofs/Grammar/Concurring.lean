import Mana.Proofs.Grammar.Dispatch
import Mana.Proofs.Grammar.Visits

/-! What a routine does depends only on the visits below its own. Where other routines accord there, so does what it
does over them, and only a limit may strike it: every loop passes a token whenever it goes on. -/
namespace Mana.Grammar

open Parse

variable {limited : Prop} {stream bound : TokenStream}

theorem accords_refusal {post : α → TokenStream → Prop} (fault : Fault) (token : Token) :
    ((complain fault token >>= fun _ => (fail : Parse α)).run stream).Accords limited
      ((complain fault token >>= fun _ => (fail : Parse α)).run stream) stream post :=
  .failed (.refl stream)

theorem accord_expect (wanted : Kind) : (expect wanted).Accord limited (expect wanted) bound := by
  refine .bind .upcoming fun next => ?_
  split
  · exact .advance
  · exact fun _ _ => accords_refusal _ _

theorem accord_acceptSemicolon : acceptSemicolon.Accord limited acceptSemicolon bound := by
  refine .bind .upcoming fun next => ?_
  split
  · exact .advance
  · exact .pure ()

theorem accord_recover (start : TokenStream) (stops : List Kind) :
    (recover start stops).Accord limited (recover start stops) bound := by
  intro stream _
  simp only [recover, run_position_bind]
  split
  · exact .done (.refl stream) trivial
  · exact .done (.skippedTo _ stream) trivial

theorem accords_integer : (integer.run stream).Coincides limited (integer.run stream) stream := by
  simp only [integer, run_current_bind]
  split
  · exact .done (.refl stream) trivial
  · exact accords_refusal _ _

theorem accords_parameter : (parameter.run stream).Coincides limited (parameter.run stream) stream := by
  simp only [parameter, run_current_bind]
  split
  · exact .done (.refl stream) trivial
  · exact accords_refusal _ _

theorem accords_expect {follow following : Unit → Parse α} {wanted : Kind}
    (second : (follow ()).Accord limited (following ()) stream.advanced) :
    ((expect wanted >>= follow).run stream).Coincides limited ((expect wanted >>= following).run stream) stream := by
  rw [run_expect_bind, run_expect_bind]
  split
  · exact (second stream.advanced (.refl _)).earlier (.advanced stream)
  · exact .failed (.refl stream)

theorem accords_advance {follow following : Unit → Parse α}
    (second : (follow ()).Accord limited (following ()) stream.advanced) :
    ((advance >>= follow).run stream).Coincides limited ((advance >>= following).run stream) stream :=
  (second stream.advanced (.refl _)).earlier (.advanced stream)

section Series

variable {item other : Parse Node} (each : item.Accord limited other bound)
include each

/-- A round of a series that goes on passes a comma. -/
theorem accords_seriesRound (inside : stream.Within bound) :
    ((seriesRound item).run stream).Accords limited ((seriesRound other).run stream) stream
      (Gain.Passes (fun _ => True) stream) := by
  simp only [seriesRound, run_upcoming_bind]
  split
  · rename_i comma
    have ahead : 1 < stream.count := TokenStream.one_lt_count (by rw [comma]; decide)
    have onward : stream.advanced.advanced.Within stream := .trans (.advanced _) (.advanced stream)
    refine .earlier ?_ onward
    apply (each _ (onward.trans inside)).andThen
    intro node rest within _
    have fewer := within.count_le
    simp only [TokenStream.advanced_count] at fewer
    exact .done (.refl rest) ⟨trivial, by omega⟩
  · exact .done (.refl stream) trivial

theorem accord_series (closing : Kind) : (series item closing).Accord limited (series other closing) bound := by
  refine .bind .upcoming fun next => ?_
  split
  · exact .bind .advance fun _ => .pure _
  · exact .bind .advance fun _ => .bind each fun _ =>
      .bind (.collect fun _ inside => accords_seriesRound each inside) fun _ =>
        .bind (accord_expect closing) fun _ => .pure _

end Series

theorem accords_series {item other : Parse Node} (each : item.Accord limited other stream.advanced) (closing : Kind) :
    ((series item closing).run stream).Coincides limited ((series other closing).run stream) stream := by
  simp only [series, run_upcoming_bind]
  split
  · exact .done (.advanced stream) trivial
  · exact accords_advance (.bind each fun _ => .bind (.collect fun _ inside => accords_seriesRound each inside) fun _ =>
      .bind (accord_expect closing) fun _ => .pure _)

section Nested

variable {nested other : Nested} (calls : ∀ strength, (nested strength).Accord limited (other strength) stream.advanced)
include calls

theorem accords_letStatement :
    ((letStatement nested).run stream).Coincides limited ((letStatement other).run stream) stream := by
  simp only [letStatement, run_current_bind]
  exact accords_expect (.bind .current fun _ => .bind (accord_expect _) fun _ => .bind .advance fun _ =>
    .bind (calls _) fun _ => .bind accord_acceptSemicolon fun _ => .pure _)

theorem accords_returnStatement :
    ((returnStatement nested).run stream).Coincides limited ((returnStatement other).run stream) stream := by
  simp only [returnStatement, run_current_bind]
  exact accords_advance (.bind (calls _) fun _ => .bind accord_acceptSemicolon fun _ => .pure _)

theorem accords_unary : ((unary nested).run stream).Coincides limited ((unary other).run stream) stream := by
  simp only [unary, run_current_bind]
  exact accords_advance (.bind (calls _) fun _ => .pure _)

theorem accords_grouped : ((grouped nested).run stream).Coincides limited ((grouped other).run stream) stream :=
  accords_advance (.bind (calls _) fun _ => .bind (accord_expect _) fun _ => .pure _)

theorem accords_binary (left : Node) :
    ((binary nested left).run stream).Coincides limited ((binary other left).run stream) stream := by
  simp only [binary, run_current_bind]
  exact accords_advance (.bind (calls _) fun _ => .pure _)

end Nested

theorem accords_expressionStatement {nested other : Nested}
    (calls : ∀ strength, (nested strength).Accord limited (other strength) stream) :
    ((expressionStatement nested).run stream).Coincides limited ((expressionStatement other).run stream) stream :=
  Accord.bind .current (fun _ => .bind (calls _) fun _ => .bind accord_acceptSemicolon fun _ => .pure _) stream
    (.refl stream)

namespace Routines

variable {routines others : Routines}

/-- Before the end of a block its rounds call for a statement. -/
theorem accords_blockRound
    (calls : 0 < stream.count → ((routines (.opening .statement)).run stream).Coincides limited
      ((others (.opening .statement)).run stream) stream) :
    (routines.blockRound.run stream).Accords limited (others.blockRound.run stream) stream
      (Gain.Passes (fun _ => True) stream) := by
  simp only [blockRound, run_position_bind]
  split
  · exact .done (.refl stream) trivial
  · split
    · exact accords_refusal _ _
    · rename_i going
      have ahead := TokenStream.count_pos going
      apply (calls ahead).attempt.andThen
      intro attempted rest within _
      cases attempted with
      | some node => exact .done (.advanced rest) ⟨trivial, within.advanced_count_lt ahead⟩
      | none =>
        apply (accord_recover stream _ rest (.refl rest)).andThen
        intro _ left later _
        simp only [run_current_bind]
        split
        · exact .done (.refl left) trivial
        · exact .done (.advanced left) ((later.trans within).advanced_count_lt ahead)

theorem accords_programRound
    (calls : ((routines (.opening .statement)).run stream).Coincides limited
      ((others (.opening .statement)).run stream) stream) :
    (routines.programRound.run stream).Accords limited (others.programRound.run stream) stream
      (Gain.Passes (fun _ => True) stream) := by
  simp only [programRound, run_position_bind]
  split
  · exact .done (.refl stream) trivial
  · rename_i going
    have ahead := TokenStream.count_pos going
    apply (calls.attempt.orWhenStruck _ _).andThen
    intro attempted rest within _
    cases attempted with
    | some node => exact .done (.advanced rest) ⟨trivial, within.advanced_count_lt ahead⟩
    | none =>
      apply (accord_recover stream _ rest (.refl rest)).andThen
      intro _ left later _
      exact .done (.advanced left) ((later.trans within).advanced_count_lt ahead)

/-- An expression calls for the form that begins before the end. -/
theorem accords_opened
    (calls : ∀ form, Rules.standard.opening stream.current.kind = some form → 0 < stream.count →
      ((routines (.opening form)).run stream).Coincides limited ((others (.opening form)).run stream) stream) :
    (routines.opened.run stream).Coincides limited (others.opened.run stream) stream := by
  simp only [opened, run_current_bind]
  split
  · rename_i form chosen
    exact calls form chosen (TokenStream.count_pos (Rules.ne_eof_of_opening chosen))
  · exact accords_refusal _ _

/-- A round that goes on has passed the token by which it extends. -/
theorem accords_extendedRound (strength : Int) (left : Node)
    (calls : ∀ form, stream.advanced.count < stream.count →
      ((routines (.extension form left)).run stream.advanced).Coincides limited
        ((others (.extension form left)).run stream.advanced) stream.advanced) :
    ((routines.extendedRound strength left).run stream).Accords limited ((others.extendedRound strength left).run stream)
      stream
      (Round.Passes (fun _ => True) (fun _ => True) stream) := by
  simp only [extendedRound, run_upcoming_bind]
  split
  · exact .done (.refl stream) trivial
  · split
    · exact .done (.refl stream) trivial
    · rename_i form chosen
      have ahead := TokenStream.one_lt_count (Rules.ne_eof_of_extension chosen)
      have shorter : stream.advanced.count < stream.count := by
        rw [TokenStream.advanced_count]
        omega
      refine .earlier ((calls form shorter).andThen fun longer rest within _ => ?_) (.advanced stream)
      exact .done (.refl rest) ⟨trivial, Nat.lt_of_le_of_lt within.count_le shorter, fun _ _ => trivial⟩

section

variable (expressions : ∀ strength, (routines.nested strength).Accord limited (others.nested strength) stream.advanced)
  (blocks : (routines (.opening .block)).Accord limited (others (.opening .block)) stream.advanced)
include blocks

theorem accords_function
    (parameters : (routines (.opening .parameter)).Accord limited (others (.opening .parameter)) stream.advanced) :
    (routines.function.run stream).Coincides limited (others.function.run stream) stream := by
  simp only [function, run_current_bind]
  exact accords_expect (.bind (accord_series parameters _) fun _ => .bind (accord_expect _) fun _ =>
    .bind blocks fun _ => .pure _)

include expressions

theorem accords_conditional :
    (routines.conditional.run stream).Coincides limited (others.conditional.run stream) stream := by
  simp only [conditional, run_current_bind]
  refine accords_expect (.bind .advance fun _ => .bind (expressions _) fun _ => .bind (accord_expect _) fun _ =>
    .bind (accord_expect _) fun _ => .bind blocks fun _ => .bind .upcoming fun next => ?_)
  split
  · exact .bind .advance fun _ => .bind (accord_expect _) fun _ => .bind blocks fun _ => .pure _
  · exact .pure _

end

/-- Two parsers of the routines accord on all visits below a visit. -/
def AccordBelow (limited : Prop) (routines others : Routines) (outer : Visit) : Prop :=
  ∀ inner rest, Visit.Below ⟨inner, rest⟩ outer →
    ((routines inner).run rest).Coincides limited ((others inner).run rest) rest

namespace AccordBelow

variable {outer : Routine} (calls : AccordBelow limited routines others ⟨outer, stream⟩)
include calls

theorem behind (inner : Routine) (lower : inner.rank true < outer.rank true) :
    (routines inner).Accord limited (others inner) stream.advanced :=
  fun _ within => calls inner _ (Visit.below_of_advanced within lower)

theorem within (inner : Routine) (lower : ∀ ended, inner.rank ended < outer.rank ended) :
    (routines inner).Accord limited (others inner) stream :=
  fun _ within => calls inner _ (Visit.below_of_within within lower)

end AccordBelow

theorem accords_block (calls : AccordBelow limited routines others ⟨.opening .block, stream⟩) :
    (routines.block.run stream).Coincides limited (others.block.run stream) stream := by
  have rounds : (collect routines.blockRound).Accord limited (collect others.blockRound) stream.advanced := by
    refine .collect fun place within => accords_blockRound fun ahead => calls _ _ (.inl ?_)
    have fewer := within.count_le
    rw [TokenStream.advanced_count] at fewer
    change place.count < stream.count
    omega
  simp only [block, run_current_bind]
  exact accords_advance (.bind rounds fun _ => .pure _)

end Routines

theorem Routine.rank_of_chosen (chosen : Rules.standard.opening kind = some form) :
    (Routine.opening form).rank false < 3 := by
  cases kind <;> cases chosen <;> decide

theorem Routine.rank_lt_argument (strength : Int) (ended : Bool) :
    (Routine.expression strength).rank ended < (Routine.opening .argument).rank ended := by
  cases ended with
  | false => exact Nat.lt_succ_self 3
  | true => exact Nat.succ_pos 0

theorem Routine.rank_lt_expressionStatement (strength : Int) (ended : Bool) :
    (Routine.expression strength).rank ended < (Routine.opening .expressionStatement).rank ended := by
  cases ended with
  | false => exact Nat.lt_succ_self 3
  | true => exact Nat.succ_pos 3

open Routines

/-- What a routine does over routines that accord below it is the same, and only a limit may strike it. -/
theorem Routine.body_accords {routines others : Routines} (routine : Routine)
    (calls : AccordBelow limited routines others ⟨routine, stream⟩) :
    ((routine.body routines).run stream).Coincides limited ((routine.body others).run stream) stream := by
  cases routine with
  | expression strength =>
    apply (accords_opened fun form chosen going =>
      calls _ _ (Visit.below_of_going going (rank_of_chosen chosen))).andThen
    intro left rest inside _
    refine Step.Accords.iterate (fun left place within => ?_) left rest inside
    exact accords_extendedRound strength left fun form shorter =>
      calls _ _ (.inl (Nat.lt_of_lt_of_le shorter within.count_le))
  | extension form left =>
    have expressions (strength : Int) := calls.behind (.expression strength) Nat.two_pos
    cases form with
    | binary => exact accords_binary expressions left
    | call =>
      have arguments := calls.behind (.opening .argument) (Nat.lt_succ_self 1)
      exact (accords_series arguments _).andThen fun arguments rest _ _ => .done (.refl rest) trivial
  | opening form =>
    cases form with
    | program =>
      have statements := calls.within (.opening .statement) fun _ => Nat.lt_succ_self 5
      refine Step.Accords.andThen (Step.Accords.collect (fun place within => ?_) stream (.refl stream))
        fun statements rest _ _ => .done (.refl rest) trivial
      exact accords_programRound (statements place within)
    | statement =>
      have forms (form : Opening) (lower : ∀ ended, (Routine.opening form).rank ended < 5) :=
        calls.within (.opening form) lower stream (.refl stream)
      simp only [Routine.body, Routines.statement, run_current_bind]
      split
      · exact forms _ fun _ => Nat.lt_succ_self 4
      · split
        · exact forms _ fun _ => Nat.lt_succ_self 4
        · exact forms _ fun _ => Nat.lt_succ_self 4
    | letStatement => exact accords_letStatement fun strength => calls.behind (.expression strength) (Nat.succ_pos 3)
    | returnStatement =>
      exact accords_returnStatement fun strength => calls.behind (.expression strength) (Nat.succ_pos 3)
    | expressionStatement =>
      exact accords_expressionStatement fun strength =>
        calls.within (.expression strength) (rank_lt_expressionStatement strength)
    | block => exact accords_block calls
    | identifier => exact .done (.refl stream) trivial
    | integer => exact accords_integer
    | boolean => exact .done (.refl stream) trivial
    | unary => exact accords_unary fun strength => calls.behind (.expression strength) Nat.two_pos
    | grouped => exact accords_grouped fun strength => calls.behind (.expression strength) Nat.two_pos
    | conditional =>
      exact accords_conditional (fun strength => calls.behind (.expression strength) Nat.two_pos)
        (calls.behind (.opening .block) (Nat.lt_succ_self 1))
    | function =>
      exact accords_function (calls.behind (.opening .block) (Nat.lt_succ_self 1))
        (calls.behind (.opening .parameter) Nat.two_pos)
    | parameter => exact accords_parameter
    | argument =>
      exact calls.within (.expression _) (rank_lt_argument _) stream (.refl stream)

end Mana.Grammar

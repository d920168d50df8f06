import Mana.Proofs.Grammar.Extended
import Mana.Proofs.Parse.Candid
import Mana.Proofs.Tree.Blocks

/-! The forms of the language are candid about faults, at any token. Only a block may be done with diagnostics, namely
those of the statements that were given up in it. -/
namespace Mana.Grammar

open Parse

variable {before : Nat} {stream : TokenStream}

theorem candid_refusal (fault : Fault) {blocks : α → Nat} (found : stream.current = token) :
    ((complain fault token >>= fun _ => (fail : Parse α)).run stream).Candid before blocks :=
  .failed (Step.Explains.refusal fault found) rfl

theorem candid_expect (wanted : Kind) : (expect wanted).Candid before fun _ => before := by
  intro stream
  simp only [expect, run_upcoming_bind]
  split
  · exact .done rfl
  · exact .failed (fun _ => ⟨[], ⟨_, stream.upcoming.location⟩, rfl, .inr rfl⟩) rfl

theorem candid_acceptSemicolon : acceptSemicolon.Candid before fun _ => before := by
  refine .bind .upcoming fun next => ?_
  split
  · exact .advance
  · exact .pure rfl

theorem explains_recover (start : TokenStream) (stops : List Kind) : (recover start stops).Explains := by
  refine .bind .position fun here => ?_
  split
  · exact .pure ()
  · exact fun _ => .done

theorem candid_integer : integer.Candid 0 Node.blocks := by
  intro stream
  simp only [integer, run_current_bind]
  split
  · exact .done rfl
  · exact candid_refusal _ rfl

theorem candid_parameter : parameter.Candid 0 Node.blocks := by
  intro stream
  simp only [parameter, run_current_bind]
  split
  · exact .done rfl
  · exact candid_refusal _ rfl

theorem candid_seriesRound {item : Parse Node} (each : item.Candid 0 Node.blocks) :
    (seriesRound item).Candid 0 Candid.gained := by
  refine .bind .upcoming fun next => ?_
  split
  · exact .bind .advance fun _ => .bind .advance fun _ => .bind each fun _ => .pure rfl
  · exact .pure rfl

/-- A series is as candid as its items. -/
theorem candid_series {item : Parse Node} (each : item.Candid 0 Node.blocks) (closing : Kind) :
    (series item closing).Candid 0 Node.blocksOf := by
  refine .bind .upcoming fun next => ?_
  split
  · exact .bind .advance fun _ => .pure rfl
  · exact .bind .advance fun _ => .bind each fun first =>
      .bind ((Candid.collect (candid_seriesRound each)).add first.blocks) fun others =>
        .bind (candid_expect closing) fun _ => .pure (Node.blocksOf_cons first others)

theorem explains_blockRound (nested : Nested) : (blockRound nested).Explains := by
  intro stream
  simp only [blockRound, run_position_bind]
  split
  · exact .done
  · split
    · exact .refusal _ rfl
    · refine Explains.bind (.attempt _) (fun attempted => ?_) stream
      cases attempted with
      | some node => exact .bind .advance fun _ => .pure _
      | none =>
        refine .bind (explains_recover _ _) fun _ => .bind .current fun token => ?_
        split
        · exact .pure _
        · exact .bind .advance fun _ => .pure _

theorem candid_block (nested : Nested) : (block nested).Candid 0 Node.blocks :=
  .bind .current fun token => .bind .advance fun _ =>
    .bind (.owing (.collect (explains_blockRound nested)) fun statements => Nat.succ_pos (Node.blocksOf statements))
      fun statements => .pure (Node.blocks_block (some token) statements)

theorem candid_function (nested : Nested) : (function nested).Candid 0 Node.blocks :=
  .bind .current fun _ => .bind (candid_expect _) fun _ => .bind (candid_series candid_parameter _) fun parameters =>
    .bind (candid_expect _) fun _ => .bind ((candid_block nested).add (Node.blocksOf parameters)) fun _ =>
      .pure (by simp)

theorem Rules.opening_ne_program {form : Opening} (chosen : standard.opening kind = some form) : form ≠ .program := by
  rintro rfl
  revert chosen
  cases kind <;> decide

/-- A parser of nested expressions is candid at every strength. -/
def Nested.Candid (nested : Nested) : Prop := ∀ strength, (nested strength).Candid 0 Node.blocks

namespace Nested.Candid

variable {nested : Nested} (candid : Nested.Candid nested)
include candid

theorem letStatement : (letStatement nested).Candid 0 Node.blocks :=
  .bind .current fun _ => .bind (candid_expect _) fun _ => .bind .current fun _ => .bind (candid_expect _) fun _ =>
    .bind .advance fun _ => .bind (candid _) fun _ => .bind candid_acceptSemicolon fun _ => .pure (by simp)

theorem returnStatement : (returnStatement nested).Candid 0 Node.blocks :=
  .bind .current fun _ => .bind .advance fun _ => .bind (candid _) fun _ =>
    .bind candid_acceptSemicolon fun _ => .pure (by simp)

theorem expressionStatement : (expressionStatement nested).Candid 0 Node.blocks :=
  .bind .current fun _ => .bind (candid _) fun _ => .bind candid_acceptSemicolon fun _ => .pure (by simp)

theorem statement : (statement nested).Candid 0 Node.blocks := by
  refine .bind .current fun token => ?_
  split
  · exact candid.letStatement
  · split
    · exact candid.returnStatement
    · exact candid.expressionStatement

theorem unary : (unary nested).Candid 0 Node.blocks :=
  .bind .current fun _ => .bind .advance fun _ => .bind (candid _) fun _ => .pure (by simp)

theorem grouped : (grouped nested).Candid 0 Node.blocks :=
  .bind .advance fun _ => .bind (candid _) fun _ => .bind (candid_expect _) fun _ => .pure rfl

theorem conditional : (conditional nested).Candid 0 Node.blocks := by
  refine .bind .current fun _ => .bind (candid_expect _) fun _ => .bind .advance fun _ =>
    .bind (candid _) fun condition => .bind (candid_expect _) fun _ => .bind (candid_expect _) fun _ =>
      .bind ((candid_block nested).add condition.blocks) fun consequence => .bind .upcoming fun next => ?_
  split
  · exact .bind .advance fun _ => .bind (candid_expect _) fun _ =>
      .bind ((candid_block nested).add (condition.blocks + consequence.blocks)) fun alternative => .pure (by simp)
  · exact .pure (by simp)

theorem opening (opening : Opening) (inner : opening ≠ .program) : (opening.parse nested).Candid 0 Node.blocks := by
  cases opening with
  | program => exact absurd rfl inner
  | statement => exact candid.statement
  | letStatement => exact candid.letStatement
  | returnStatement => exact candid.returnStatement
  | expressionStatement => exact candid.expressionStatement
  | block => exact candid_block nested
  | identifier => exact .bind .current fun _ => .pure rfl
  | integer => exact candid_integer
  | boolean => exact .bind .current fun _ => .pure rfl
  | unary => exact candid.unary
  | grouped => exact candid.grouped
  | conditional => exact candid.conditional
  | function => exact candid_function nested
  | parameter => exact candid_parameter
  | argument => exact candid _

theorem binary (left : Node) : (binary nested left).Candid left.blocks Node.blocks :=
  .bind .current fun _ => .bind .advance fun _ => .bind ((candid _).add left.blocks) fun _ => .pure (by simp)

theorem call (callee : Node) : (call nested callee).Candid callee.blocks Node.blocks :=
  .bind .current fun _ => .bind ((candid_series (candid _) _).add callee.blocks) fun _ => .pure (by simp)

theorem extension (extension : Extension) (left : Node) :
    (extension.parse nested left).Candid left.blocks Node.blocks := by
  cases extension with
  | binary => exact candid.binary left
  | call => exact candid.call left

theorem opened : (opened .standard nested).Candid 0 Node.blocks := by
  intro stream
  simp only [Grammar.opened, run_current_bind]
  split
  · rename_i chosen
    exact candid.opening _ (Rules.opening_ne_program chosen) stream
  · exact candid_refusal _ rfl

theorem extended (strength : Int) (left : Node) :
    (extended .standard nested strength left).Candid left.blocks Node.blocks := by
  intro stream
  induction stream using TokenStream.induct generalizing left with
  | fewer stream ih =>
    by_cases halts : Halts strength stream.upcoming
    · rw [run_extended_halts nested left halts]
      exact .done rfl
    · obtain ⟨extension, chosen⟩ := extension_of_not_halts halts
      rw [run_extended_going halts chosen]
      apply (candid.extension extension left stream.advanced).andThen
      intro longer rest
      by_cases shorter : rest.count < stream.count
      · simpa only [shorter, ↓reduceIte] using ih rest shorter longer
      · simpa only [shorter, ↓reduceIte] using .struck

end Nested.Candid

theorem expression_candid (levels : Nat) : Nested.Candid (expression .standard levels) := by
  induction levels with
  | zero => exact fun _ _ => .struck
  | succ levels ih => exact fun strength => .bind ih.opened fun left => ih.extended strength left

end Mana.Grammar

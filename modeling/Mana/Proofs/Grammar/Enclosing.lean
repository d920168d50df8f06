import Mana.Proofs.Grammar.Tracked.Expression
import Mana.Proofs.Parse.Encloses

/-! The forms of the language without braces, alone and in front of a closing brace. A form that needs an opening
brace fails at the same place in both. -/
namespace Mana.Grammar

open Parse
open TokenStream (Enclosed)

variable {beyond stream stream' : TokenStream}

theorem encloses_refused {same : α → α → Prop} {token token' : Token} {fault fault' : Fault}
    (faults : fault' = fault.enclosed) (least : Nat) :
    Encloses beyond least same (complain fault token >>= fun _ => fail) (complain fault' token' >>= fun _ => fail) :=
  fun _ _ enclosed _ => .failed enclosed (congrArg (fun fault => [fault]) faults)

theorem encloses_passed {same : α → α → Prop} {met met' : Unit → Parse α} {unmet unmet' : Token → Parse α}
    (plain : wanted ∉ [.eof, .rbrace]) (found : Encloses beyond 1 same (met ()) (met' ()))
    (missed : ∀ token token', token'.kind = token.kind.enclosed →
      Encloses beyond 1 same (unmet token) (unmet' token')) :
    Encloses beyond 1 same
      (upcoming >>= fun next => if next.kind = wanted then advance >>= met else unmet next)
      (upcoming >>= fun next => if next.kind = wanted then advance >>= met' else unmet' next) := by
  intro stream stream' enclosed some
  have kinds := (enclosed.advanced some).current_kind
  rw [run_upcoming_bind, run_upcoming_bind, stream'.upcoming_eq, stream.upcoming_eq, kinds]
  simp only [Kind.enclosed_eq_iff plain]
  split
  · rename_i same
    refine found _ _ (enclosed.advanced some) (TokenStream.count_pos fun ended => plain ?_)
    rw [← same, ended]
    exact List.mem_cons_self
  · exact missed _ _ kinds stream stream' enclosed some

theorem encloses_expect {same : α → α → Prop} {follow follow' : Unit → Parse α} (plain : wanted ∉ [.eof, .rbrace])
    (later : Encloses beyond 1 same (follow ()) (follow' ())) :
    Encloses beyond 1 same (expect wanted >>= follow) (expect wanted >>= follow') := by
  rw [expect_bind, expect_bind]
  exact encloses_passed plain later fun token token' kind =>
    encloses_refused (congrArg (Fault.expected wanted) kind) 1

theorem encloses_braced {same : α → α → Prop} {follow follow' : Unit → Parse α} :
    Encloses beyond 1 same (expect .lbrace >>= follow) (expect .lbrace >>= follow') := by
  intro stream stream' enclosed some
  have missing : stream.upcoming.kind ≠ .lbrace := by
    intro brace
    have going := (enclosed.advanced some).going (TokenStream.count_pos (by rw [← stream.upcoming_eq, brace]; decide))
    rw [← stream.upcoming_eq, brace] at going
    exact absurd going (by decide)
  have kinds : stream'.upcoming.kind = stream.upcoming.kind.enclosed := (enclosed.advanced some).current_kind
  rw [run_expect_bind, run_expect_bind, if_neg missing,
    if_neg (by rwa [kinds, Kind.enclosed_eq_iff (by decide)]), kinds]
  exact .failed enclosed rfl

theorem encloses_acceptSemicolon {same : α → α → Prop} {follow follow' : Unit → Parse α}
    (later : Encloses beyond 1 same (follow ()) (follow' ())) :
    Encloses beyond 1 same (acceptSemicolon >>= follow) (acceptSemicolon >>= follow') := by
  have bind (follow : Unit → Parse α) : acceptSemicolon >>= follow = upcoming >>= fun next =>
      if next.kind = .semicolon then advance >>= follow else follow () := by
    apply Parse.ext
    intro stream
    rw [run_acceptSemicolon_bind, run_upcoming_bind]
    split <;> rfl
  rw [bind, bind]
  exact encloses_passed (by decide) later fun _ _ _ => later

/-! Items between commas. -/

section Series

variable {item item' : Parse Node}

theorem encloses_seriesRound (each : Encloses beyond 0 Alike item item') :
    Encloses beyond 1 (Gain.Alike Alike) (seriesRound item) (seriesRound item') :=
  encloses_passed (by decide) (.advance_bind <| .bind each fun _ _ alike => .pure (.item alike))
    fun _ _ _ => .pure .stop

theorem encloses_series (each : Encloses beyond 0 Alike item item') (plain : closing ∉ [.eof, .rbrace]) :
    Encloses beyond 1 (List.Forall₂ Alike) (series item closing) (series item' closing) :=
  encloses_passed plain (.pure .nil) fun _ _ _ =>
    .advance_bind <| .bind each fun _ _ first => .bind (.collect (encloses_seriesRound each)) fun _ _ others =>
      encloses_expect plain (.pure (.cons first others))

end Series

theorem encloses_parameter : Encloses beyond 0 Alike parameter parameter := by
  intro stream stream' enclosed _
  simp only [parameter, run_current_bind, enclosed.current_kind]
  simp only [Kind.enclosed_eq_iff (show Kind.ident ∉ [.eof, .rbrace] by decide)]
  split
  · rename_i named
    have some : 0 < stream.count := TokenStream.count_pos (by rw [named]; decide)
    rw [(enclosed.current some).2.1]
    exact .done (.identifier _) enclosed some rfl
  · exact .failed enclosed rfl

/-- A parser of nested expressions does the same alone and in front of the brace. -/
def Nested.Encloses (beyond : TokenStream) (nested : Nested) : Prop :=
  ∀ strength, Parse.Encloses beyond 0 Alike (nested strength) (nested strength)

namespace Nested.Encloses

variable {nested : Nested} (encloses : nested.Encloses beyond)
include encloses

theorem letStatement : Parse.Encloses beyond 1 Alike (letStatement nested) (letStatement nested) := by
  refine .current_bind fun _ _ _ _ => encloses_expect (by decide) <| .current_bind fun name name' _ literal => ?_
  rw [literal]
  exact encloses_expect (by decide) <| .advance_bind <| .bind (encloses _) fun _ _ alike =>
    encloses_acceptSemicolon <| .pure (.letStatement (.identifier _) alike)

theorem returnStatement : Parse.Encloses beyond 1 Alike (returnStatement nested) (returnStatement nested) :=
  .current_bind fun _ _ _ _ => .advance_bind <| .bind (encloses _) fun _ _ alike =>
    encloses_acceptSemicolon <| .pure (.returnStatement alike)

theorem expressionStatement :
    Parse.Encloses beyond 1 Alike (expressionStatement nested) (expressionStatement nested) :=
  .current_bind fun _ _ _ _ => .bind (.of_any (encloses _)) fun _ _ alike =>
    encloses_acceptSemicolon <| .pure (.expressionStatement alike)

theorem statement : Parse.Encloses beyond 1 Alike (statement nested) (statement nested) := by
  refine .current_bind fun token token' kind _ => ?_
  rw [kind]
  split
  · exact encloses.letStatement
  · split
    · exact encloses.returnStatement
    · exact encloses.expressionStatement

theorem unary : Parse.Encloses beyond 1 Alike (unary nested) (unary nested) := by
  refine .current_bind fun token token' _ literal => ?_
  rw [literal]
  exact .advance_bind <| .bind (encloses _) fun _ _ alike => .pure (.unary _ alike)

theorem grouped : Parse.Encloses beyond 1 Alike (grouped nested) (grouped nested) :=
  .advance_bind <| .bind (encloses _) fun _ _ alike => encloses_expect (by decide) (.pure alike)

theorem conditional : Parse.Encloses beyond 1 Alike (conditional nested) (conditional nested) :=
  .current_bind fun _ _ _ _ => encloses_expect (by decide) <| .advance_bind <| .bind (encloses _) fun _ _ _ =>
    encloses_expect (by decide) encloses_braced

omit encloses in
theorem function : Parse.Encloses beyond 1 Alike (function nested) (function nested) :=
  .current_bind fun _ _ _ _ => encloses_expect (by decide) <|
    .bind (encloses_series encloses_parameter (by decide)) fun _ _ _ => encloses_braced

theorem binary {left left' : Node} (alike : Alike left left') :
    Parse.Encloses beyond 1 Alike (binary nested left) (binary nested left') := by
  refine .current_bind fun token token' kind literal => ?_
  rw [kind, literal]
  exact .advance_bind <| .bind (encloses _) fun _ _ right => .pure (.binary _ alike right)

theorem call {left left' : Node} (alike : Alike left left') :
    Parse.Encloses beyond 1 Alike (call nested left) (call nested left') :=
  .current_bind fun _ _ _ _ => .bind (encloses_series (encloses _) (by decide)) fun _ _ all =>
    .pure (.call alike (sayAll_of_alike all))

theorem opening {opening : Opening} (chosen : Rules.standard.opening kind = some opening) :
    Parse.Encloses beyond 1 Alike (opening.parse nested) (opening.parse nested) := by
  rcases Rules.opening_cases chosen with ⟨rfl, _⟩ | ⟨rfl, _⟩ | ⟨rfl, _⟩ | ⟨rfl, _⟩ | ⟨rfl, _⟩ | ⟨rfl, _⟩ | ⟨rfl, _⟩
  · refine .current_bind fun token token' _ literal => ?_
    rw [literal]
    exact .pure (.identifier _)
  · refine .current_bind fun token token' _ literal => ?_
    rw [literal]
    split
    · exact .pure (.integer literal)
    · exact encloses_refused rfl 1
  · refine .current_bind fun token token' kind _ => ?_
    rw [kind]
    exact .pure (.boolean _)
  · exact encloses.unary
  · exact encloses.grouped
  · exact encloses.conditional
  · exact function

theorem opened : Parse.Encloses beyond 0 Alike (opened .standard nested) (opened .standard nested) := by
  intro stream stream' enclosed _
  have same (kind : Kind) : Rules.standard.opening kind.enclosed = Rules.standard.opening kind := by cases kind <;> rfl
  simp only [Grammar.opened, run_current_bind, enclosed.current_kind, same]
  split
  · rename_i chosen
    refine encloses.opening chosen stream stream' enclosed (TokenStream.count_pos fun ended => ?_)
    rw [ended] at chosen
    cases chosen
  · exact .failed enclosed rfl

theorem extendedRound {left left' : Node} (strength : Int) (alike : Alike left left') :
    Parse.Encloses beyond 1 (Round.Alike Alike Alike) (extendedRound .standard nested strength left)
      (extendedRound .standard nested strength left') := by
  intro stream stream' enclosed some
  have kinds : stream'.upcoming.kind = stream.upcoming.kind.enclosed := (enclosed.advanced some).current_kind
  have strengths (kind : Kind) : kind.enclosed.strength = kind.strength := by cases kind <;> rfl
  have extensions (kind : Kind) : Rules.standard.extension kind.enclosed = Rules.standard.extension kind := by
    cases kind <;> rfl
  have semicolons := @Kind.enclosed_eq_iff stream.upcoming.kind .semicolon (by decide)
  simp only [Grammar.extendedRound, run_upcoming_bind, kinds, strengths, extensions, semicolons]
  split
  · exact .done (.stop alike) enclosed some rfl
  · split
    · exact .done (.stop alike) enclosed some rfl
    · rename_i extension chosen
      have parsed : Parse.Encloses beyond 1 Alike (extension.parse nested left) (extension.parse nested left') := by
        cases extension with
        | binary => exact encloses.binary alike
        | call => exact encloses.call alike
      have going : stream.upcoming.kind ≠ .eof := Rules.ne_eof_of_extension chosen
      have longer : Parse.Encloses beyond 1 (Round.Alike Alike Alike)
          (extension.parse nested left >>= fun longer => pure (.again longer id))
          (extension.parse nested left' >>= fun longer => pure (.again longer id)) :=
        .bind parsed fun _ _ alike => .pure (.again alike fun _ _ same => same)
      exact longer _ _ (enclosed.advanced some) (TokenStream.count_pos going)

theorem extended {left left' : Node} (strength : Int) (alike : Alike left left') :
    Parse.Encloses beyond 1 Alike (extended .standard nested strength left)
      (extended .standard nested strength left') :=
  .iterate Alike (fun _ _ alike => encloses.extendedRound strength alike) alike

end Nested.Encloses

/-- Within any limit on nesting, expressions are parsed alike alone and in front of the brace. -/
theorem expression_encloses (levels : Nat) : Nested.Encloses beyond (expression .standard levels) := by
  induction levels with
  | zero => exact fun _ _ _ _ _ => .struck
  | succ levels ih => exact fun strength => .bind ih.opened fun _ _ alike => ih.extended strength alike

end Mana.Grammar

import Mana.Proofs.Grammar.Rounds
import Mana.Proofs.Parse.Local

/-! The forms of the grammar look ahead by one token, under any rules. -/
namespace Mana.Grammar

open Parse

variable {token : Token}

theorem local_expect (wanted : Kind) : (expect wanted).Local .read fun _ => .read := by
  refine .upcoming_bind fun next => ?_
  split
  · exact .advance
  · exact .refused _

theorem local_acceptSemicolon : acceptSemicolon.Local .read fun _ => .read := by
  refine .upcoming_bind fun next => ?_
  split
  · exact .advance
  · exact .pure rfl

/-! Statements that are given up, where they began being looked back at. -/

theorem ranges_skip (stops : List Kind) (stream : TokenStream) :
    ((skip stops).run stream).Ranges stream .read fun _ => .read :=
  ⟨.skippedTo _ stream, (TokenStream.Within.skippedTo _ stream).both_advanced, List.forall_mem_nil _⟩

theorem ranges_recover (start : TokenStream) (stops : List Kind) (stream : TokenStream) :
    ((recover start stops).run stream).Ranges stream .read fun _ => .read := by
  rw [run_recover]
  have later := recovered_within start stops stream
  exact ⟨later, later.both_advanced, List.forall_mem_nil _⟩

/-- A statement is given up at the same token of both streams, or beyond those that they share. -/
theorem shares_recovered {fork : Fork} {word left : List Token} {start start' stream other : TokenStream}
    (starts : fork.Shares .due (token :: word) start start') (shares : fork.Shares .read left stream other)
    (stops : List Kind) :
    (∃ left, fork.Shares .read left (recovered start stops stream) (recovered start' stops other)) ∨
      (recovered start stops stream).Within fork.one ∧ (recovered start' stops other).Within fork.other := by
  obtain ⟨one, two⟩ : start.current = token ∧ start'.current = token := starts.next
  rw [recovered, recovered, one, two]
  simp only [starts.count_eq_iff shares]
  split
  · exact .inl ⟨left, shares⟩
  · exact shares.skippedTo _

theorem settles_recover {fork : Fork} {word left : List Token} {start start' stream other : TokenStream}
    (starts : fork.Shares .due (token :: word) start start') (shares : fork.Shares .read left stream other)
    (stops : List Kind) :
    ((recover start stops).run stream).Settles fork (fun _ => .read) ((recover start' stops).run other) := by
  rw [run_recover, run_recover]
  rcases shares_recovered starts shares stops with ⟨_, shared⟩ | ⟨within, within'⟩
  · exact .done shared
  · exact .apart (.of_ranges (.done rfl) ((TokenStream.Within.advanced _).trans within))
      (.of_ranges (.done rfl) ((TokenStream.Within.advanced _).trans within'))

theorem local_unless {kind : Kind} (other : Token → Parse α) {follow : TokenStream → Parse α} {after : α → Stage}
    (met : (other token).LocalAt token .due after)
    (unmet : (position >>= follow).LocalAt token .due after) :
    (position >>= fun start => if start.current.kind = kind then other start.current else follow start).LocalAt
      token .due after := by
  refine ⟨fun stream next => ?_, fun {_ _ stream stream'} shares => ?_⟩
  · obtain rfl : stream.current = token := next
    rw [run_position_bind]
    split
    · exact met.ranges stream rfl
    · exact unmet.ranges stream rfl
  · obtain ⟨one, two⟩ : stream.current = token ∧ stream'.current = token := shares.next
    rw [run_position_bind, run_position_bind, one, two]
    split
    · exact met.settles shares
    · exact unmet.settles shares

theorem local_salvage (tried : Token → Parse (Option α)) {follow : TokenStream → Option α → Parse β}
    {good : α → Parse β} {bad : Parse β} {after : β → Stage}
    (first : (tried token).LocalAt token .due fun _ => .read)
    (chosen : ∀ start value, follow start (some value) = good value)
    (given : ∀ start, follow start none = (recover start stops >>= fun _ => bad))
    (kept : ∀ value, (good value).Local .read after) (left : bad.Local .read after) :
    (position >>= fun start => tried start.current >>= follow start).LocalAt token .due after := by
  have ranges (start : TokenStream) (result : Option α) (rest : TokenStream) :
      ((follow start result).run rest).Ranges rest .read after := by
    cases result with
    | some value =>
      rw [chosen]
      exact (kept value).ranges rest
    | none =>
      rw [given]
      exact (ranges_recover start stops rest).andThen fun _ rest => left.ranges rest
  refine ⟨fun stream next => ?_, fun {_ _ stream other} shares => ?_⟩
  · obtain rfl : stream.current = token := next
    exact (first.ranges stream rfl).andThen (ranges stream)
  · obtain ⟨one, two⟩ : stream.current = token ∧ other.current = token := shares.next
    rw [run_position_bind, run_position_bind, one, two]
    refine (first.settles shares).andThen (fun result rest rest' word later => ?_) (ranges stream) (ranges other)
    cases result with
    | some value =>
      rw [chosen, chosen]
      exact (kept value).settles later
    | none =>
      rw [given, given]
      exact (settles_recover shares later stops).andThen (fun _ _ _ _ later => left.settles later)
        (fun _ rest => left.ranges rest) fun _ rest => left.ranges rest

/-- A parser of nested expressions looks ahead by one token. -/
def Nested.Local (nested : Nested) : Prop := ∀ strength, (nested strength).Local .due fun _ => .read

namespace Nested.Local

variable {nested : Nested} (settled : nested.Local)
include settled

theorem letStatement : (letStatement nested).Local .due fun _ => .read :=
  .current_bind fun _ => .take <| .bind (local_expect _) fun _ => .read_bind fun _ =>
    .bind (local_expect _) fun _ => .advance_bind <| .bind (settled _) fun _ =>
      .bind local_acceptSemicolon fun _ => .pure rfl

theorem returnStatement : (returnStatement nested).Local .due fun _ => .read :=
  .current_bind fun _ => .take <| .advance_bind <| .bind (settled _) fun _ =>
    .bind local_acceptSemicolon fun _ => .pure rfl

theorem expressionStatement : (expressionStatement nested).Local .due fun _ => .read :=
  .current_bind fun _ => .of_local <| .bind (settled _) fun _ => .bind local_acceptSemicolon fun _ => .pure rfl

theorem statement : (statement nested).Local .due fun _ => .read := by
  refine .current_bind fun token => ?_
  split
  · exact settled.letStatement token
  · split
    · exact settled.returnStatement token
    · exact settled.expressionStatement token

theorem blockRound : (blockRound nested).Local .due (Gain.after .due) := by
  intro token
  refine local_unless (fun _ => (pure .stop : Parse (Gain Node))) (.take (.pure rfl)) ?_
  refine local_unless (fun here => complain (.expected .rbrace .eof) here >>= fun _ => fail) (.refused _) ?_
  refine local_salvage (fun _ => attempt (Grammar.statement nested)) (settled.statement token).attempt
    (fun _ _ => rfl) (fun _ => rfl) (fun _ => ?_) (.read_bind fun here => ?_)
  · exact .advance_bind (.pure rfl)
  · split
    · exact .pure rfl
    · exact .advance_bind (.pure rfl)

theorem block : (block nested).Local .read fun _ => .read :=
  .read_bind fun _ => .advance_bind <| .bind (.collect settled.blockRound) fun _ => .pure rfl

theorem programRound : (programRound nested).Local .due (Gain.after .due) := by
  intro token
  refine local_unless (fun _ => (pure .stop : Parse (Gain Node))) (.take (.pure rfl)) ?_
  refine local_salvage (fun here => orWhenStruck (attempt (Grammar.statement nested))
    (complain .tooDeep here >>= fun _ => pure none)) ((settled.statement token).attempt.orWhenStruck none)
    (fun _ _ => rfl) (fun _ => rfl) (fun _ => ?_) ?_
  · exact .advance_bind (.pure rfl)
  · exact .advance_bind (.pure rfl)

theorem program : (program nested).Local .due fun _ => .read :=
  .current_bind fun _ => .of_local <| .bind (.collect settled.programRound) fun _ => .pure rfl

theorem unary : (unary nested).Local .due fun _ => .read :=
  .current_bind fun _ => .take <| .advance_bind <| .bind (settled _) fun _ => .pure rfl

theorem grouped : (grouped nested).Local .due fun _ => .read :=
  .take <| .advance_bind <| .bind (settled _) fun _ => .bind (local_expect _) fun _ => .pure rfl

theorem conditional : (conditional nested).Local .due fun _ => .read := by
  refine .current_bind fun _ => .take <| .bind (local_expect _) fun _ => .advance_bind <| .bind (settled _) fun _ =>
    .bind (local_expect _) fun _ => .bind (local_expect _) fun _ => .bind settled.block fun _ =>
      .upcoming_bind fun next => ?_
  split
  · exact .advance_bind <| .take <| .bind (local_expect _) fun _ => .bind settled.block fun _ => .pure rfl
  · exact .pure rfl

end Nested.Local

/-! Items between commas. -/

theorem local_seriesRound {item : Parse Node} (settled : item.Local .due fun _ => .read) :
    (seriesRound item).Local .read (Gain.after .read) := by
  refine .upcoming_bind fun next => ?_
  split
  · exact .advance_bind <| .take <| .advance_bind <| .bind settled fun _ => .pure rfl
  · exact .pure rfl

theorem local_series {item : Parse Node} (settled : item.Local .due fun _ => .read) (closing : Kind) :
    (series item closing).Local .read fun _ => .read := by
  refine .upcoming_bind fun next => ?_
  split
  · exact .advance_bind <| .take <| .pure rfl
  · exact .advance_bind <| .of_local <| .bind settled fun _ => .bind (.collect (local_seriesRound settled)) fun _ =>
      .bind (local_expect _) fun _ => .pure rfl

theorem local_integer : integer.Local .due fun _ => .read := by
  refine .current_bind fun token => ?_
  split
  · exact .take (.pure rfl)
  · exact .refused _

theorem local_parameter : parameter.Local .due fun _ => .read := by
  refine .current_bind fun token => ?_
  split
  · exact .take (.pure rfl)
  · exact .refused _

namespace Nested.Local

variable {nested : Nested} (settled : nested.Local)
include settled

theorem function : (function nested).Local .due fun _ => .read :=
  .current_bind fun _ => .take <| .bind (local_expect _) fun _ => .bind (local_series local_parameter _) fun _ =>
    .bind (local_expect _) fun _ => .bind settled.block fun _ => .pure rfl

theorem binary (left : Node) : (binary nested left).Local .due fun _ => .read :=
  .current_bind fun _ => .take <| .advance_bind <| .bind (settled _) fun _ => .pure rfl

theorem call (callee : Node) : (call nested callee).Local .due fun _ => .read :=
  .current_bind fun _ => .take <| .bind (local_series (settled _) _) fun _ => .pure rfl

theorem opening (opening : Opening) : (opening.parse nested).Local .due fun _ => .read := by
  cases opening with
  | program => exact settled.program
  | statement => exact settled.statement
  | letStatement => exact settled.letStatement
  | returnStatement => exact settled.returnStatement
  | expressionStatement => exact settled.expressionStatement
  | block => exact settled.block.take
  | identifier | boolean => exact .current_bind fun _ => .take (.pure rfl)
  | integer => exact local_integer
  | unary => exact settled.unary
  | grouped => exact settled.grouped
  | conditional => exact settled.conditional
  | function => exact settled.function
  | parameter => exact local_parameter
  | argument => exact settled _

theorem extension (left : Node) (extension : Extension) :
    (extension.parse nested left).Local .due fun _ => .read := by
  cases extension with
  | binary => exact settled.binary left
  | call => exact settled.call left

theorem opened (rules : Rules) : (opened rules nested).Local .due fun _ => .read := by
  refine .current_bind fun token => ?_
  split
  · exact .of_local (settled.opening _)
  · exact .refused _

theorem extended (rules : Rules) (strength : Int) (left : Node) :
    (extended rules nested strength left).Local .read fun _ => .read := by
  refine .iterate (fun left => .upcoming_bind fun next => ?_) left
  split
  · exact .pure rfl
  · split
    · exact .pure rfl
    · exact .advance_bind <| .of_local <| .bind (settled.extension left _) fun _ => .pure rfl

end Nested.Local

/-- Within any limit on nesting and under any rules, expressions look ahead by one token. -/
theorem expression_local (rules : Rules) (levels : Nat) : Nested.Local (expression rules levels) := by
  induction levels with
  | zero => exact fun _ _ => ⟨fun _ _ => .struck, fun _ => .strikes (.inl Step.strikes_struck)⟩
  | succ levels ih => exact fun strength => .bind (ih.opened rules) fun left => ih.extended rules strength left

end Mana.Grammar

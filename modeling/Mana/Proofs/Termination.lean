import Mana.Proofs.CursorCalls
import Mana.Proofs.CutOff
import Mana.Proofs.Grammar.Unlimited

/-! Parsing terminates at the end of the input, with no limit on nesting at all. Calls go down in a well-founded order
in which a token is passed before a routine is called again, and the program of a source ends with its tokens. -/
namespace Mana

namespace Cursor

variable {cursor : Cursor}

/-- The place where the tokens ahead end: the end of the source, or its next NUL. -/
def final (cursor : Cursor) : Cursor := cursor.moved cursor.ahead.beforeNul

theorem final_moved (inside : cursor.Inside) (divided : cursor.ahead = text ++ rest) (going : nul ∉ text) :
    (cursor.moved text).final = cursor.final := by
  rw [final, final, ahead_moved inside divided, divided, Text.beforeNul_append going, moved_append]

theorem calls_behind (start : 0 ≤ cursor.position) (number : Nat) :
    ∀ call ∈ (cursor.calls number).drop (scanFrom cursor.location 0 cursor.ahead).count,
      call = (.ok ⟨.eof, [], cursor.final.location⟩, cursor.final) := by
  induction number generalizing cursor with
  | zero => simp [calls]
  | succ number ih =>
    have inside : cursor.Inside := inside_of_le start
    obtain ⟨after, scanned, later, left⟩ := token_scanned start
    rcases Call.token_cases inside with ⟨text, rest, divided, passed, none, called⟩ |
      ⟨text, kind, literal, rest, divided, passed, _, lexical, apart, called⟩
    all_goals have blank : nul ∉ text := fun member => absurd (passed.spaces start _ member) (by decide)
    · have ended : (cursor.moved text).final = cursor.moved text := by
        rw [final, ahead_moved inside divided, none, moved_nil]
      rw [← final_moved inside divided blank, ended, divided, scanFrom_blank (passed.spaces start), scanFrom_ended none,
        calls, called]
      exact List.forall_mem_cons.mpr ⟨rfl, calls_stay (token_again called rfl) number⟩
    · obtain ⟨token, rfl⟩ := Prod.mk.inj (called.symm.trans scanned)
      have counted := congrArg TokenStream.count left
      have some : (scanFrom cursor.location 0 cursor.ahead).count ≠ 0 := fun none =>
        lexical.kind_ne_eof ((congrArg Token.kind (Except.ok.inj token)).trans (TokenStream.current_kind_of_count none))
      rw [TokenStream.advanced_count] at counted
      rw [calls, called, ← Nat.succ_pred_eq_of_ne_zero some, List.drop_succ_cons, Nat.pred_eq_sub_one, ← counted,
        ← final_moved inside divided blank, ← final_moved (inside.moved text) (ahead_moved inside divided) lexical.nul_not_mem]
      exact ih later

end Cursor

/-- From the start of a source all calls behind its tokens leave the cursor at its end or at its first NUL. -/
theorem calls_behind_scan (source : Text) (number : Nat) :
    ∀ call ∈ (Cursor.calls ⟨source, 0, .start⟩ number).drop (scan source).count,
      call = (.ok (scan source).final, ⟨source, source.beforeNul.length, (scan source).stop⟩) := by
  have start : (0 : Int) ≤ (Cursor.mk source 0 .start).position := Int.le_refl 0
  have ahead : Cursor.ahead ⟨source, 0, .start⟩ = source := Cursor.ahead_of_le start
  have final : Cursor.final ⟨source, 0, .start⟩ = ⟨source, source.beforeNul.length, (scan source).stop⟩ := by
    rw [Cursor.final, ahead, Cursor.moved, scan, scanFrom_stop, Int.zero_add]
  have behind := Cursor.calls_behind start number
  rw [ahead, final] at behind
  exact behind

open Grammar Parse

/-- How the parse of a source ends: done with a program, without a complaint about nesting, with the end of the source
as both tokens in view. Every call for a token behind those of the source leaves the cursor at the end of the source, or
at its first NUL. A limit that is larger than the number of tokens makes no difference. -/
structure Finishes (source : Text) (step : Step Node) : Prop where
  shallow : ∀ diagnostic ∈ step.found, diagnostic.fault ≠ .tooDeep
  current : step.rest.current = (scan source).final
  upcoming : step.rest.upcoming = (scan source).final
  cursor : ∀ number, ∀ call ∈ (Cursor.calls ⟨source, 0, .start⟩ number).drop (scan source).count,
    call = (.ok (scan source).final, ⟨source, source.beforeNul.length, (scan source).stop⟩)
  limited : ∃ program, step.outcome = .done program ∧ ∀ limit, (scan source).count < limit →
    parseWithin limit source = ⟨program, step.found, step.rest⟩

theorem unlimited_finishes (source : Text) : Finishes source ((unlimited (.opening .program)).run (scan source)) := by
  have unstruck : (parseWithin ((scan source).count + 1) source).Unstruck :=
    Parsed.unstruck_of_count_lt (Nat.lt_succ_self _)
  have rest := Parsed.rest_eq ((scan source).count + 1) source
  have ran : (unlimited (.opening .program)).run (scan source) =
      ⟨.done (parseWithin ((scan source).count + 1) source).program, .ofList [] (scan source).stop,
        (parseWithin ((scan source).count + 1) source).diagnostics⟩ := by
    rw [← rest, ← run_routines_eq (Nat.le_refl _)]
    exact Parsed.run_ofStream _ (scan source)
  rw [ran]
  refine ⟨unstruck, rfl, rfl, fun number => ?_, _, rfl, fun limit enough => ?_⟩
  · exact calls_behind_scan source number
  · have same : parseWithin limit source = parseWithin ((scan source).count + 1) source :=
      Parsed.ofStream_of_le unstruck enough
    rw [same, ← rest]

theorem Grammar.Routine.run_expression_ended (routines : Routines) (strength : Int)
    (ended : stream.current.kind = .eof) :
    ((Routine.expression strength).body routines).run stream =
      ⟨.failed, stream, [⟨.noOpening .eof, stream.current.location⟩]⟩ := by
  have opened : routines.opened.run stream = ⟨.failed, stream, [⟨.noOpening .eof, stream.current.location⟩]⟩ := by
    rw [Routines.opened, run_current_bind, ended]
    rfl
  rw [Routine.body, Routines.expression, run_bind, opened]
  rfl

/-- Parsing terminates at the end of the input, without a limit on nesting. What a routine does for some tokens depends
only on calls that come below in a well-founded order, where a path of calls from a routine back to itself passes a
token, and at the end of the tokens an expression calls nothing. -/
theorem parsing_terminates :
    WellFounded Visit.Below ∧
      (∀ routine stream rest, Relation.TransGen Visit.Below ⟨routine, rest⟩ ⟨routine, stream⟩ →
        rest.count < stream.count) ∧
      (∀ routine stream (routines : Routines),
        (∀ inner rest, Visit.Below ⟨inner, rest⟩ ⟨routine, stream⟩ →
          (routines inner).run rest = (unlimited inner).run rest) →
        (routine.body routines).run stream = (unlimited routine).run stream) ∧
      (∀ (routines : Routines) strength (stream : TokenStream), stream.current.kind = .eof →
        ((Routine.expression strength).body routines).run stream =
          ⟨.failed, stream, [⟨.noOpening .eof, stream.current.location⟩]⟩) ∧
      (∀ solution : Routines, (∀ routine, solution routine = routine.body solution) ↔ solution = unlimited) ∧
      (∀ routine stream, ((unlimited routine).run stream).outcome ≠ .struck) ∧
      unlimited.Passing ∧
      (∀ routine stream levels, stream.count < levels →
        (Nested.routines (expression .standard levels) routine).run stream = (unlimited routine).run stream) ∧
      ∀ source, Finishes source ((unlimited (.opening .program)).run (scan source)) := by
  refine ⟨Visit.below_wellFounded, fun routine stream rest path => (Visit.below_of_path path).count_lt,
    fun routine stream routines below => run_unlimited_of_below below,
    fun routines strength stream ended => Routine.run_expression_ended routines strength ended,
    fun solution => ⟨eq_unlimited, ?_⟩, fun routine stream => (unlimited_concurs routine stream).unstruck,
    unlimited_passing, fun routine stream levels enough => run_routines_eq ?_, unlimited_finishes⟩
  · rintro rfl routine
    exact unlimited_eq routine
  · exact Nat.le_trans (Visit.levels_le _) enough

/-- Behind an open parenthesis and a sign the parse ends at a NUL, where it complains, and so do all further calls for a
token. -/
theorem parsing_terminates_nul :
    (scan "(-\x00)".toList).count = 2 ∧ (parseWithin 3 "(-\x00)".toList).diagnostics = [⟨.noOpening .eof, ⟨1, 3⟩⟩] ∧
      ((unlimited (.opening .program)).run (scan "(-\x00)".toList)).found = [⟨.noOpening .eof, ⟨1, 3⟩⟩] ∧
      ((unlimited (.opening .program)).run (scan "(-\x00)".toList)).rest.upcoming = ⟨.eof, [], ⟨1, 3⟩⟩ ∧
      ∀ call ∈ (Cursor.calls ⟨"(-\x00)".toList, 0, .start⟩ 4).drop 2,
        call = (.ok ⟨.eof, [], ⟨1, 3⟩⟩, ⟨"(-\x00)".toList, 2, ⟨1, 3⟩⟩) := by
  obtain ⟨_, _, _, _, _, _, _, _, finishes⟩ := parsing_terminates
  obtain ⟨_, _, upcoming, cursor, program, _, limited⟩ := finishes "(-\x00)".toList
  have count : (scan "(-\x00)".toList).count = 2 := rfl
  have found : (parseWithin 3 "(-\x00)".toList).diagnostics = [⟨.noOpening .eof, ⟨1, 3⟩⟩] := rfl
  have same := congrArg Parsed.diagnostics (limited 3 (Nat.lt_of_le_of_lt (Nat.le_of_eq count) (by decide)))
  have ended := cursor 4
  rw [count] at ended
  exact ⟨count, found, same.symm.trans found, upcoming, ended⟩

end Mana

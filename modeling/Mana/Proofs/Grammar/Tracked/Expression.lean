import Mana.Proofs.Grammar.Tracked.Statement

/-! Expressions on streams side by side. Where the shorter stream ends in an expression, that mentions the end,
or might have gone on into what is beyond. -/
namespace Mana.Grammar

open Parse

variable {pairing : Pairing} {stream other : TokenStream} {meets : TokenStream → Prop}

/-! Items between commas, up to a closing token. -/

section Series

variable {item : Parse Node}

theorem run_seriesRound_last (last : stream.count = 1) :
    (seriesRound item).run stream = ⟨.done .stop, stream, []⟩ := by
  simp only [seriesRound, run_upcoming_bind]
  rw [if_neg (by rw [upcoming_of_last (le_of_eq last)]; decide)]
  rfl

variable (each : ∀ stream other, pairing.Abreast stream other → Step.Tracks pairing Alike (fun _ => False)
    (item.run stream) (item.run other))
  (abreast : pairing.Abreast stream other) (covers : pairing.Covers 0 stream)
include each abreast covers

theorem tracks_seriesRound : Step.Tracks pairing (Gain.Alike Alike) (fun _ => False)
    ((seriesRound item).run stream) ((seriesRound item).run other) := by
  by_cases more : pairing.Covers 1 stream
  · simp only [seriesRound, run_upcoming_bind]
    rw [(abreast.upcoming more).kind]
    split
    · have next := (abreast.advanced covers).advanced more.advanced
      refine (each _ _ next).andThen (fun node node' rest rest' alike abreast covers => ?_) ?_
      · exact .done (.item alike) abreast covers .nil
      · exact fun node rest _ last unmet => .arrives _ rest [] rfl last unmet
    · exact .done .stop abreast covers .nil
  · obtain ⟨apart, few⟩ := Pairing.not_covers_iff.mp more
    have some := covers.resolve_left apart
    have last : stream.count = 1 := by omega
    exact .stranded apart (.arrives _ stream [] (run_seriesRound_last last) last id)

/-- A series tracks, since it always ends with a token of its own, and what is beyond never comes right after
the token that opens it. -/
theorem tracks_series (passes : GainsPass (seriesRound item)) (closing : Kind) (going : closing ≠ .eof)
    (opened : stream.current.kind = .lparen) :
    Step.Tracks pairing (List.Forall₂ Alike) meets ((series item closing).run stream)
      ((series item closing).run other) := by
  have more := abreast.covers_opened covers opened
  simp only [series, run_upcoming_bind]
  rw [(abreast.upcoming more).kind]
  split
  · exact .done .nil (abreast.advanced covers) more.advanced .nil
  · have closes (nodes : List Node) (rest : TokenStream) (last : rest.count = 1) :
        ((expect closing >>= fun _ => pure nodes).run rest).Stranded meets :=
      .mentions (mentions_expect going (le_of_eq last))
    refine (each _ _ (abreast.advanced covers)).andThen (fun first first' rest rest' alike abreast covers => ?_) ?_
    · have others := Step.Tracks.collect Alike passes (fun _ _ => tracks_seriesRound each)
        (fun stream _ last => run_seriesRound_last last) abreast covers
      refine others.andThen (fun nodes nodes' rest rest' all abreast covers => ?_) ?_
      · exact tracks_expect going abreast covers fun abreast covers _ => .done (.cons alike all) abreast covers .nil
      · exact fun nodes rest _ last _ => closes (first :: nodes) rest last
    · intro first rest _ last _
      rw [run_bind, run_collect, run_seriesRound_last last]
      exact (closes [first] rest last).since []

end Series

theorem tracks_parameter (abreast : pairing.Abreast stream other) :
    Step.Tracks pairing Alike meets (parameter.run stream) (parameter.run other) := by
  simp only [parameter, run_current_bind]
  by_cases covers : pairing.Covers 0 stream
  · have pairs := abreast.current covers
    rw [pairs.kind, pairs.literal]
    split
    · exact .done (.identifier _) abreast covers .nil
    · exact .failed abreast covers (.cons ⟨rfl, pairs.located⟩ .nil)
  · obtain ⟨apart, few⟩ := Pairing.not_covers_iff.mp covers
    have ended := TokenStream.current_kind_of_count (Nat.le_zero.mp few)
    rw [if_neg (by rw [ended]; decide)]
    exact .mentions apart ⟨_, List.mem_singleton.mpr rfl, ended⟩

theorem run_extendedRound_halts (nested : Nested) (left : Node) (halts : Halts strength stream.upcoming) :
    (extendedRound .standard nested strength left).run stream = ⟨.done (.stop left), stream, []⟩ := by
  simp only [extendedRound, run_upcoming_bind]
  split
  · rfl
  · rename_i binds
    simp only [Bool.or_eq_true, decide_eq_true_eq, not_or] at binds
    have none : Rules.standard.extension stream.upcoming.kind = none :=
      (halts.resolve_left binds.1).resolve_left binds.2
    rw [none]
    rfl

theorem run_extended_halts (nested : Nested) (left : Node) (halts : Halts strength stream.upcoming) :
    (extended .standard nested strength left).run stream = ⟨.done left, stream, []⟩ := by
  rw [extended, run_iterate, run_extendedRound_halts nested left halts]
  rfl

/-- At the last token every expression halts. -/
theorem halts_last (strength : Int) (last : stream.count = 1) : Halts strength stream.upcoming := by
  right
  right
  rw [upcoming_of_last (le_of_eq last)]
  rfl

namespace Nested.Tracks

variable {nested : Nested} (tracks : nested.Tracks pairing)
  (ensures : nested.Ensures depth) (abreast : pairing.Abreast stream other) (covers : pairing.Covers 0 stream)
include tracks abreast covers

theorem unary : Step.Tracks pairing Alike (fun _ => pairing.Meets Level.unary.strength)
    ((unary nested).run stream) ((unary nested).run other) := by
  have literal := (abreast.current covers).literal
  refine (tracks _ _ _ (abreast.advanced covers)).andThen (fun right right' rest rest' alike abreast covers => ?_) ?_
  · refine .done ?_ abreast covers .nil
    rw [literal]
    exact .unary _ alike
  · exact fun right rest _ last unmet => .arrives _ rest [] rfl last unmet

theorem binary (left : Alike node node') :
    Step.Tracks pairing Alike (fun _ => pairing.Meets stream.current.kind.strength)
      ((binary nested node).run stream) ((binary nested node').run other) := by
  have pairs := abreast.current covers
  simp only [Grammar.binary, run_current_bind, pairs.kind, pairs.literal]
  refine (tracks _ _ _ (abreast.advanced covers)).andThen (fun right right' rest rest' alike abreast covers => ?_) ?_
  · exact .done (.binary _ left alike) abreast covers .nil
  · exact fun right rest _ last unmet => .arrives _ rest [] rfl last unmet

theorem grouped : Step.Tracks pairing Alike meets ((grouped nested).run stream) ((grouped nested).run other) := by
  refine (tracks _ _ _ (abreast.advanced covers)).andThen (fun inner inner' rest rest' alike abreast covers => ?_) ?_
  · exact tracks_expect (by decide) abreast covers fun abreast covers _ => .done alike abreast covers .nil
  · exact fun inner rest _ last _ => .mentions (mentions_expect (by decide) (le_of_eq last))

include ensures

theorem conditional : Step.Tracks pairing Alike (fun _ => pairing.beyond.current.kind ≠ .elseKeyword)
    ((conditional nested).run stream) ((conditional nested).run other) := by
  refine tracks_expect (by decide) abreast covers fun abreast covers _ => ?_
  refine (tracks _ _ _ (abreast.advanced covers)).andThen
    (fun condition condition' rest rest' conditions abreast covers => ?_) ?_
  · refine tracks_expect (by decide) abreast covers fun abreast covers _ => ?_
    refine tracks.expectBlock ensures abreast covers
      fun consequence consequence' rest rest' consequences abreast covers => ?_
    simp only [run_upcoming_bind]
    by_cases more : pairing.Covers 1 rest
    · rw [(abreast.upcoming more).kind]
      split
      · refine tracks.expectBlock ensures (abreast.advanced covers) more.advanced
          fun alternative alternative' rest rest' alternatives abreast covers => ?_
        exact .done (.conditionalElse conditions consequences alternatives) abreast covers .nil
      · exact .done (.conditional conditions consequences) abreast covers .nil
    · obtain ⟨apart, few⟩ := Pairing.not_covers_iff.mp more
      have some := covers.resolve_left apart
      have last : rest.count = 1 := by omega
      rw [if_neg (by rw [upcoming_of_last few]; decide), abreast.upcoming_beyond last]
      split
      · rename_i otherwise
        exact .stranded apart (.arrives _ rest [] rfl last fun notElse => notElse otherwise)
      · exact .done (.conditional conditions consequences) abreast covers .nil
  · exact fun condition rest _ last _ => .mentions (mentions_expect (by decide) (le_of_eq last))

theorem function : Step.Tracks pairing Alike meets ((function nested).run stream) ((function nested).run other) := by
  refine tracks_expect (by decide) abreast covers fun abreast covers opened => ?_
  have parameters : Step.Tracks pairing (List.Forall₂ Alike) (fun _ => True) _ _ :=
    tracks_series (fun _ _ => tracks_parameter) abreast covers parametersRound_passes .rparen (by decide) opened
  refine parameters.andThen (fun names names' rest rest' all abreast covers => ?_) ?_
  · exact tracks.expectBlock ensures abreast covers fun body body' rest rest' bodies abreast covers =>
      .done (.function (sayAll_of_alike all) bodies) abreast covers .nil
  · exact fun _ _ _ _ unmet => absurd trivial unmet

theorem call (callee : Alike node node') (opened : stream.current.kind = .lparen) :
    Step.Tracks pairing Alike meets ((call nested node).run stream) ((call nested node').run other) := by
  have each (stream other : TokenStream) (abreast : pairing.Abreast stream other) :
      Step.Tracks pairing Alike (fun _ => False) ((whole nested).run stream) ((whole nested).run other) :=
    (tracks _ stream other abreast).imp fun _ => False.elim
  have arguments : Step.Tracks pairing (List.Forall₂ Alike) (fun _ => True) _ _ :=
    tracks_series each abreast covers (seriesRound_passes (ensures.expression _)) .rparen (by decide) opened
  refine arguments.andThen (fun nodes nodes' rest rest' all abreast covers => ?_) ?_
  · exact .done (.call callee (sayAll_of_alike all)) abreast covers .nil
  · exact fun _ _ _ _ unmet => absurd trivial unmet

theorem primary {form : Opening} (chosen : Rules.standard.opening stream.current.kind = some form)
    (plain : stream.current.kind ∉ unaryOperators) :
    Step.Tracks pairing Alike (fun _ => pairing.beyond.current.kind ≠ .elseKeyword) ((form.parse nested).run stream)
      ((form.parse nested).run other) := by
  have pairs := abreast.current covers
  rcases Rules.opening_cases chosen with ⟨rfl, _⟩ | ⟨rfl, _⟩ | ⟨rfl, _⟩ | ⟨_, kind⟩ | ⟨rfl, _⟩ | ⟨rfl, _⟩ | ⟨rfl, _⟩
  · simp only [Opening.parse, identifier, run_current_bind, pairs.literal]
    exact .done (.identifier _) abreast covers .nil
  · simp only [Opening.parse, integer, run_current_bind, pairs.literal]
    split
    · exact .done (.integer pairs.literal) abreast covers .nil
    · exact .failed abreast covers (.cons ⟨rfl, pairs.located⟩ .nil)
  · simp only [Opening.parse, boolean, run_current_bind, pairs.kind]
    exact .done (.boolean _) abreast covers .nil
  · exact absurd kind plain
  · exact tracks.grouped abreast covers
  · exact tracks.conditional ensures abreast covers
  · exact tracks.function ensures abreast covers

/-- Where an operand begins without an operator, it goes on with a conditional at most. -/
theorem openedPrimary (plain : stream.current.kind ∉ unaryOperators) :
    Step.Tracks pairing Alike (fun _ => pairing.beyond.current.kind ≠ .elseKeyword)
      ((opened .standard nested).run stream) ((opened .standard nested).run other) := by
  have pairs := abreast.current covers
  simp only [Grammar.opened, run_current_bind, pairs.kind]
  split
  · rename_i chosen
    exact tracks.primary ensures abreast covers chosen plain
  · exact .failed abreast covers (.cons ⟨rfl, pairs.located⟩ .nil)

omit covers in
theorem opened : Step.Tracks pairing Alike (fun _ => pairing.Meets Level.unary.strength)
    ((opened .standard nested).run stream) ((opened .standard nested).run other) := by
  by_cases covers : pairing.Covers 0 stream
  · by_cases operator : stream.current.kind ∈ unaryOperators
    · simp only [Grammar.opened, run_current_bind, (abreast.current covers).kind, Rules.opening_unary operator]
      exact tracks.unary abreast covers
    · exact (tracks.openedPrimary ensures abreast covers operator).imp fun _ meets => meets.notElse
  · obtain ⟨apart, few⟩ := Pairing.not_covers_iff.mp covers
    have ended := TokenStream.current_kind_of_count (Nat.le_zero.mp few)
    simp only [Grammar.opened, run_current_bind, ended, Rules.standard]
    exact .mentions apart ⟨_, List.mem_singleton.mpr rfl, rfl⟩

theorem extendedRound {strength : Int} (left : Alike node node') :
    Step.Tracks pairing (Round.Alike Alike Alike) (fun _ => pairing.Meets strength)
      ((extendedRound .standard nested strength node).run stream)
      ((extendedRound .standard nested strength node').run other) := by
  by_cases more : pairing.Covers 1 stream
  · have pairs := abreast.upcoming more
    simp only [Grammar.extendedRound, run_upcoming_bind, pairs.kind]
    split
    · exact .done (.stop left) abreast covers .nil
    · rename_i binds
      split
      · exact .done (.stop left) abreast covers .nil
      · rename_i extension chosen
        have next := abreast.advanced covers
        have parsed : Step.Tracks pairing Alike (fun _ => pairing.Meets strength)
            ((extension.parse nested node).run stream.advanced)
            ((extension.parse nested node').run other.advanced) := by
          rcases Rules.extension_cases chosen with ⟨rfl, _⟩ | ⟨rfl, kind⟩
          · have stronger : strength ≤ stream.advanced.current.kind.strength := by
              simp only [Bool.or_eq_true, decide_eq_true_eq, not_or] at binds
              exact Int.le_of_lt (Int.not_le.mp binds.2)
            exact (tracks.binary next more.advanced left).imp fun _ meets => meets.mono stronger
          · exact tracks.call ensures next more.advanced left kind
        refine parsed.andThen (fun longer longer' rest rest' alike abreast covers => ?_) ?_
        · exact .done (.again alike fun _ _ same => same) abreast covers .nil
        · exact fun longer rest _ last unmet => .arrives _ rest [] rfl last unmet
  · obtain ⟨apart, few⟩ := Pairing.not_covers_iff.mp more
    have some := covers.resolve_left apart
    have last : stream.count = 1 := by omega
    have stopped := run_extendedRound_halts nested node (halts_last strength last)
    by_cases meets : pairing.Meets strength
    · rw [stopped, run_extendedRound_halts nested node' ((abreast.upcoming_beyond last).symm ▸ meets.halts)]
      exact .done (.stop left) abreast covers .nil
    · exact .stranded apart (.arrives _ stream [] stopped last meets)

theorem extended {strength : Int} (left : Alike node node') :
    Step.Tracks pairing Alike (fun _ => pairing.Meets strength) ((extended .standard nested strength node).run stream)
      ((extended .standard nested strength node').run other) :=
  .iterate Alike Alike (ensures.extendedRound_passes strength)
    (fun _ _ _ _ left abreast covers => tracks.extendedRound ensures abreast covers left)
    (fun left _ _ last => ⟨left, run_extendedRound_halts nested left (halts_last strength last)⟩) left abreast covers

end Nested.Tracks

/-- Within any limit on nesting, expressions track. -/
theorem expression_tracks (levels : Nat) : Nested.Tracks (expression .standard levels) pairing := by
  induction levels with
  | zero => exact fun strength stream other abreast => .struck abreast .nil
  | succ levels ih =>
    intro strength stream other abreast
    have ensures := expression_ensures levels
    refine (ih.opened ensures abreast).andThen (fun left left' rest rest' alike abreast covers => ?_) ?_
    · exact ih.extended ensures abreast covers alike
    · intro left rest _ last unmet
      exact .arrives left rest [] (run_extended_halts _ left (halts_last strength last)) last
        fun meets => unmet ⟨meets.operand, meets.operand, meets.notElse⟩

/-- Within any limit on nesting, a statement tracks. -/
theorem statement_tracks (levels : Nat) (abreast : pairing.Abreast stream other) (covers : pairing.Covers 0 stream) :
    Step.Tracks pairing Alike pairing.Seals ((statement (expression .standard levels)).run stream)
      ((statement (expression .standard levels)).run other) :=
  (expression_tracks levels).statement (expression_ensures levels) abreast covers

end Mana.Grammar

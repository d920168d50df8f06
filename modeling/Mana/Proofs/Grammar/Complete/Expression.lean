import Mana.Proofs.Grammar.Complete.Statement

/-! Completeness of the forms of expressions, and of whole programs within any limit on nesting. -/
namespace Mana.Grammar

open Parse

variable {stream : TokenStream} {stack : List Form}

/-! Items between commas, up to a closing parenthesis. -/

section Series

variable {item : Parse Node} {form : Form}
  (each : ∀ stream : TokenStream,
    Derives (form :: .many [.token .comma, form] :: .token .rparen :: stack) stream.tokens →
      (item.run stream).Accepts fun _ rest =>
        Derives (.many [.token .comma, form] :: .token .rparen :: stack) rest.advanced.tokens)
include each

theorem accepts_seriesRound
    (derives : Derives (.many [.token .comma, form] :: .token .rparen :: stack) stream.advanced.tokens) :
    ((seriesRound item).run stream).Accepts (Gain.Leads
      (fun rest => Derives (.many [.token .comma, form] :: .token .rparen :: stack) rest.advanced.tokens)
      fun rest => Derives (.token .rparen :: stack) rest.advanced.tokens) := by
  simp only [seriesRound, run_upcoming_bind]
  rcases Derives.many_iff.mp derives with rest | rest
  · have kind := (derives_token rest (by decide)).1
    rw [if_neg (by rw [stream.upcoming_eq, kind]; decide)]
    exact .done rest
  · obtain ⟨kind, _, rest⟩ := derives_token rest (by decide)
    rw [if_pos (stream.upcoming_eq ▸ kind)]
    exact (each _ rest).andThen fun _ _ derives => .done derives

theorem accepts_series (passes : GainsPass (seriesRound item))
    (begins : ∀ forms token more, Derives (form :: forms) (token :: more) → token.kind ≠ .rparen)
    (derives : Derives (.series form :: .token .rparen :: stack) stream.advanced.tokens) :
    ((series item .rparen).run stream).Accepts fun _ rest => Derives stack rest.advanced.tokens := by
  simp only [series, run_upcoming_bind]
  rcases Derives.optional_iff.mp derives with rest | rest
  · obtain ⟨kind, _, rest⟩ := derives_token rest (by decide)
    rw [if_pos (stream.upcoming_eq ▸ kind)]
    exact .done rest
  · obtain ⟨more, split⟩ := stream.advanced.tokens_eq
    rw [if_neg (stream.upcoming_eq ▸ begins _ _ more (split ▸ rest))]
    apply (each _ rest).andThen
    intro first rest derives
    apply (Step.Accepts.collect_while _ _ passes (fun _ => accepts_seriesRound each) derives).andThen
    intro others rest closed
    obtain ⟨kind, _, rest⟩ := derives_token closed (by decide)
    exact accepts_expect kind (.done rest)

end Series

theorem accepts_parameter (derives : Derives (.token .ident :: stack) stream.tokens) :
    (parameter.run stream).Accepts fun _ rest => Derives stack rest.advanced.tokens := by
  obtain ⟨kind, _, rest⟩ := derives_token derives (by decide)
  simp only [parameter, run_current_bind]
  rw [if_pos kind]
  exact .done rest

theorem accepts_integer (kind : stream.current.kind = .int) (range : stream.current.InRange)
    (derives : Derives stack stream.advanced.tokens) :
    (integer.run stream).Accepts fun _ rest => Derives stack rest.advanced.tokens := by
  obtain ⟨value, read⟩ := integerValue?_iff.mpr (range kind)
  simp only [integer, run_current_bind, read]
  exact .done derives

namespace Nested.Accepts

variable {nested : Nested} (accepts : nested.Accepts)
include accepts

theorem grouped (derives : Derives (.part .expression :: .token .rparen :: stack) stream.advanced.tokens) :
    ((grouped nested).run stream).Accepts fun _ rest => Derives stack rest.advanced.tokens := by
  apply (accepts.whole (.of_token (by decide)) derives).andThen
  intro inner rest derives
  obtain ⟨kind, _, left⟩ := derives_token derives (by decide)
  exact accepts_expect kind (.done left)

variable (ensures : nested.Ensures depth)
include ensures

theorem conditional (notElse : ∀ token more, Derives stack (token :: more) → token.kind ≠ .elseKeyword)
    (derives : Derives (.token .lparen :: .part .expression :: .token .rparen :: .part .block ::
      .optional [.token .elseKeyword, .part .block] :: stack) stream.advanced.tokens) :
    ((conditional nested).run stream).Accepts fun _ rest => Derives stack rest.advanced.tokens := by
  obtain ⟨opened, _, derives⟩ := derives_token derives (by decide)
  apply accepts_expect opened
  apply (accepts.whole (.of_token (by decide)) derives).andThen
  intro condition rest derives
  obtain ⟨closed, _, derives⟩ := derives_token derives (by decide)
  refine accepts_expect closed (accepts_expect (block_begins derives) ?_)
  apply (accepts.block ensures derives).andThen
  intro consequence rest derives
  simp only [run_upcoming_bind]
  rcases Derives.optional_iff.mp derives with left | left
  · obtain ⟨more, split⟩ := rest.advanced.tokens_eq
    rw [if_neg (notElse _ more (split ▸ left))]
    exact .done left
  · obtain ⟨kind, _, left⟩ := derives_token left (by decide)
    rw [if_pos (rest.upcoming_eq ▸ kind)]
    apply accepts_expect (block_begins left)
    exact (accepts.block ensures left).andThen fun alternative rest derives => .done derives

theorem function (derives : Derives (.token .lparen :: .series (.token .ident) :: .token .rparen ::
      .part .block :: stack) stream.advanced.tokens) :
    ((function nested).run stream).Accepts fun _ rest => Derives stack rest.advanced.tokens := by
  obtain ⟨opened, _, derives⟩ := derives_token derives (by decide)
  apply accepts_expect opened
  refine (accepts_series (fun _ => accepts_parameter) parametersRound_passes ?_ derives).andThen
    fun parameters rest derives => ?_
  · intro forms token more derives
    rw [(Derives.token_cons_iff.mp derives).1]
    decide
  · apply accepts_expect (block_begins derives)
    exact (accepts.block ensures derives).andThen fun body rest derives => .done derives

theorem call (callee : Node)
    (derives : Derives (.series (.part .expression) :: .token .rparen :: stack) stream.advanced.tokens) :
    ((call nested callee).run stream).Accepts fun _ rest => Derives stack rest.advanced.tokens := by
  refine (accepts_series (fun _ => accepts.whole (.of_series _ (by decide)))
    (seriesRound_passes (ensures.expression _)) ?_ derives).andThen fun _ _ derives => .done derives
  intro forms token more derives same
  obtain ⟨opening, found⟩ := (Derives.expression_iff.mp derives).opening
  rw [same] at found
  cases found

theorem primary (notElse : ∀ token more, Derives stack (token :: more) → token.kind ≠ .elseKeyword)
    (derives : Derives (.part .primary :: stack) (stream.current :: stream.advanced.tokens)) :
    ((opened .standard nested).run stream).Accepts fun _ rest => Derives stack rest.advanced.tokens := by
  have begins (opening : Opening) (found : Rules.standard.opening stream.current.kind = some opening)
      (accepts : ((opening.parse nested).run stream).Accepts fun _ rest => Derives stack rest.advanced.tokens) :
      ((Grammar.opened .standard nested).run stream).Accepts fun _ rest => Derives stack rest.advanced.tokens := by
    simp only [Grammar.opened, run_current_bind, found]
    exact accepts
  rcases derives.primary_cases with ⟨kind, rest⟩ | ⟨kind, range, rest⟩ | ⟨kind, rest⟩ | ⟨kind, rest⟩ |
    ⟨kind, rest⟩ | ⟨kind, rest⟩
  · exact begins .identifier (by rw [kind]; rfl) (.done rest)
  · exact begins .integer (by rw [kind]; rfl) (accepts_integer kind range rest)
  · refine begins .boolean ?_ (.done rest)
    simp only [List.mem_cons, List.not_mem_nil, or_false] at kind
    rcases kind with same | same <;> rw [same] <;> rfl
  · exact begins .grouped (by rw [kind]; rfl) (accepts.grouped rest)
  · exact begins .conditional (by rw [kind]; rfl) (accepts.conditional ensures notElse rest)
  · exact begins .function (by rw [kind]; rfl) (accepts.function ensures rest)

variable (absorbable : Absorbable stack)
include absorbable

theorem opened (derives : Derives (.part .unary :: .operations :: stack) stream.tokens) :
    ((opened .standard nested).run stream).Accepts fun _ rest =>
      Derives (.calls :: .operations :: stack) rest.advanced.tokens := by
  have going : stream.current.kind ≠ .eof := by
    obtain ⟨more, split⟩ := stream.tokens_eq
    obtain ⟨opening, found⟩ := (split ▸ derives).opening
    exact Rules.ne_eof_of_opening found
  rw [stream.tokens_of_going going] at derives
  rcases derives.unary_cases with ⟨kind, operand⟩ | primary
  · simp only [Grammar.opened, run_current_bind, Rules.opening_unary kind]
    exact (accepts _ stack _ absorbable operand).andThen fun _ _ left => .done left.1
  · exact accepts.primary ensures (fun token more derives => (absorbable.rest derives).1.notElse) primary

theorem extendedRound (strength : Int) (left : Node)
    (derives : Derives (.calls :: .operations :: stack) stream.advanced.tokens) :
    ((extendedRound .standard nested strength left).run stream).Accepts (Round.Leads
      (fun rest => Derives (.calls :: .operations :: stack) rest.advanced.tokens)
      fun rest => Derives (.calls :: .operations :: stack) rest.advanced.tokens ∧
        Halts strength rest.upcoming) := by
  simp only [Grammar.extendedRound, run_upcoming_bind]
  split
  · rename_i weak
    refine .done ⟨derives, ?_⟩
    simp only [Bool.or_eq_true, decide_eq_true_eq] at weak
    exact weak.imp_right .inl
  · split
    · rename_i none
      exact .done ⟨derives, .inr (.inr none)⟩
    · rename_i extension found
      have going : stream.advanced.current.kind ≠ .eof :=
        stream.upcoming_eq ▸ Rules.ne_eof_of_extension found
      have here := stream.advanced.tokens_of_going going
      have absorbs := (absorbable.rest (here ▸ derives)).1
      rw [stream.upcoming_eq] at found
      have parsed : ((extension.parse nested left).run stream.advanced).Accepts fun _ rest =>
          Derives (.calls :: .operations :: stack) rest.advanced.tokens := by
        rcases Rules.extension_cases found with ⟨rfl, kind⟩ | ⟨rfl, kind⟩
        · cases absorbs with
          | ends ends => exact absurd kind ends.2.1
          | call same _ => exact absurd kind (by rw [same]; decide)
          | operation _ operand =>
            exact (accepts _ stack _ absorbable operand).andThen fun _ _ left => .done left.1
        · cases absorbs with
          | ends ends => exact absurd kind ends.2.2
          | call _ arguments => exact accepts.call ensures left arguments
          | operation operator _ => exact absurd operator (by rw [kind]; decide)
      exact parsed.andThen fun longer rest derives => .done derives

theorem extended (strength : Int) (left : Node)
    (derives : Derives (.calls :: .operations :: stack) stream.advanced.tokens) :
    ((extended .standard nested strength left).run stream).Accepts fun _ rest =>
      Derives (.calls :: .operations :: stack) rest.advanced.tokens ∧ Halts strength rest.upcoming :=
  .iterate_while _ _ (ensures.extendedRound_passes strength)
    (fun left _ => accepts.extendedRound ensures absorbable strength left) derives

end Nested.Accepts

/-- Within any limit on nesting, expressions are accepted. -/
theorem expression_accepts (levels : Nat) : Nested.Accepts (expression .standard levels) := by
  induction levels with
  | zero => exact fun strength stack stream _ _ => .inl (.inl rfl)
  | succ levels ih =>
    intro strength stack stream absorbable derives
    have ensures := expression_ensures levels
    apply (ih.opened ensures absorbable derives).andThen
    exact fun left rest derives => ih.extended ensures absorbable strength left derives

/-- Within any limit on nesting, a program that the grammar derives is accepted. -/
theorem program_accepts (levels : Nat) (derives : Derives [.part .program] stream.ahead) :
    ((program (expression .standard levels)).run stream).Accepts fun _ rest => rest.current.kind = .eof := by
  have final : Derives [.token .eof] [stream.final] := .token rfl nofun .nil
  have whole : Derives (upTo .eof []) stream.tokens := by
    obtain ⟨rule, member, rest⟩ := Derives.part_iff.mp (derives.append final)
    cases List.mem_singleton.mp member
    exact rest
  apply ((expression_accepts levels).program (expression_ensures levels) whole).imp
  intro _ rest closed
  obtain ⟨more, split⟩ := rest.tokens_eq
  exact (Derives.token_cons_iff.mp (split ▸ closed)).1

end Mana.Grammar

import Mana.Proofs.Parse.Accepts
import Mana.Proofs.Grammar.Follow
import Mana.Proofs.Grammar.Ensured
import Mana.Proofs.Grammar.Sound.Statement

/-! Completeness. The forms of the language accept what its grammar derives. Every form is followed by a
stack of forms still to be derived from the tokens that it leaves, so that an expression may read more
than the grammar meant it to, if what is left is still derived by the rest of the stack. -/
namespace Mana.Grammar

open Parse

variable {stream : TokenStream} {stack : List Form}

theorem derives_token (derives : Derives (.token wanted :: stack) stream.tokens) (going : wanted ≠ .eof) :
    stream.current.kind = wanted ∧ stream.current.InRange ∧ Derives stack stream.advanced.tokens := by
  obtain ⟨more, split⟩ := stream.tokens_eq
  have kind := (Derives.token_cons_iff.mp (split ▸ derives)).1
  rw [stream.tokens_of_going (kind ▸ going)] at derives
  exact Derives.token_cons_iff.mp derives

theorem accepts_expect {follow : Unit → Parse α} {post : α → TokenStream → Prop}
    (same : stream.upcoming.kind = wanted) (second : ((follow ()).run stream.advanced).Accepts post) :
    ((expect wanted >>= follow).run stream).Accepts post := by
  rw [run_expect_bind, if_pos same]
  exact second

/-- A token at which an expression ends when it is to bind more tightly than a strength. -/
def Halts (strength : Int) (token : Token) : Prop :=
  token.kind = .semicolon ∨ token.kind.strength ≤ strength ∨ Rules.standard.extension token.kind = none

theorem Halts.not_extension (halts : Halts Level.lowest.strength token) :
    token.kind ∉ binaryOperators ∧ token.kind ≠ .lparen := by
  revert halts
  unfold Halts
  cases token.kind <;> decide

/-- What accepts operands and whatever extends them, as far as the strength goes. -/
def Nested.Accepts (nested : Nested) : Prop :=
  ∀ strength stack stream, Absorbable stack → Derives (.part .unary :: .operations :: stack) stream.tokens →
    ((nested strength).run stream).Accepts fun _ rest =>
      Derives (.calls :: .operations :: stack) rest.advanced.tokens ∧ Halts strength rest.upcoming

theorem Nested.Accepts.whole {nested : Nested} (accepts : nested.Accepts) (absorbable : Absorbable stack)
    (derives : Derives (.part .expression :: stack) stream.tokens) :
    ((whole nested).run stream).Accepts fun _ rest => Derives stack rest.advanced.tokens := by
  apply (accepts _ stack stream absorbable (Derives.expression_iff.mp derives)).imp
  intro _ rest leaves
  obtain ⟨left, halts⟩ := leaves
  obtain ⟨more, split⟩ := rest.advanced.tokens_eq
  rw [split] at left ⊢
  obtain ⟨absorbs, ended⟩ := absorbable.rest left
  obtain ⟨operator, call⟩ := halts.not_extension
  cases absorbs with
  | ends ends => exact ended ends
  | operation kind _ => exact absurd kind operator
  | call kind _ => exact absurd kind call

/-- Statements up to a closing token. -/
def upTo (closing : Kind) (stack : List Form) : List Form := .many [.part .statement] :: .token closing :: stack

/-- Blocks end at a closing brace, and programs at the end of the tokens. -/
def Closes (closing : Kind) : Prop := closing = .rbrace ∨ closing = .eof

theorem Closes.endsExpression (closes : Closes closing) : EndsExpression closing := by
  rcases closes with rfl | rfl <;> decide

theorem accepts_acceptSemicolon (closes : Closes closing)
    (derives : Derives (.optional [.token .semicolon] :: upTo closing stack) stream.advanced.tokens) :
    (acceptSemicolon.run stream).Accepts fun _ rest => Derives (upTo closing stack) rest.advanced.tokens := by
  simp only [acceptSemicolon, run_upcoming_bind]
  split
  · rename_i semicolon
    rcases Derives.optional_iff.mp derives with rest | rest
    · obtain ⟨more, split⟩ := stream.advanced.tokens_eq
      rw [split] at rest
      rcases Derives.many_iff.mp rest with rest | rest
      · have kind := (Derives.token_cons_iff.mp rest).1
        rw [← stream.upcoming_eq, semicolon] at kind
        rcases closes with rfl | rfl <;> cases kind
      · exact absurd semicolon rest.statement_begins.1
    · exact .done (derives_token rest (by decide)).2.2
  · rename_i other
    rcases Derives.optional_iff.mp derives with rest | rest
    · exact .done rest
    · exact absurd (derives_token rest (by decide)).1 other

namespace Nested.Accepts

variable {nested : Nested} (accepts : nested.Accepts) (closes : Closes closing)
include accepts closes

theorem value (finish : Node → Node)
    (derives : Derives (.part .expression :: .optional [.token .semicolon] :: upTo closing stack) stream.tokens) :
    ((Grammar.whole nested >>= fun value => acceptSemicolon >>= fun _ => pure (finish value)).run stream).Accepts
      fun _ rest => Derives (upTo closing stack) rest.advanced.tokens := by
  apply (accepts.whole (.of_statements closes.endsExpression) derives).andThen
  intro value rest derives
  exact (accepts_acceptSemicolon closes derives).andThen fun _ rest derives => .done derives

theorem letStatement (derives : Derives (.token .ident :: .token .assign :: .part .expression ::
      .optional [.token .semicolon] :: upTo closing stack) stream.advanced.tokens) :
    ((letStatement nested).run stream).Accepts fun _ rest =>
      Derives (upTo closing stack) rest.advanced.tokens := by
  obtain ⟨named, _, derives⟩ := derives_token derives (by decide)
  obtain ⟨assigned, _, derives⟩ := derives_token derives (by decide)
  exact accepts_expect named (accepts_expect assigned (accepts.value closes _ derives))

theorem returnStatement (derives : Derives (.part .expression ::
      .optional [.token .semicolon] :: upTo closing stack) stream.advanced.tokens) :
    ((returnStatement nested).run stream).Accepts fun _ rest =>
      Derives (upTo closing stack) rest.advanced.tokens :=
  accepts.value closes _ derives

theorem expressionStatement (derives : Derives (.part .expression ::
      .optional [.token .semicolon] :: upTo closing stack) stream.tokens) :
    ((expressionStatement nested).run stream).Accepts fun _ rest =>
      Derives (upTo closing stack) rest.advanced.tokens :=
  accepts.value closes _ derives

theorem statement (derives : Derives (.part .statement :: upTo closing stack) stream.tokens) :
    ((statement nested).run stream).Accepts fun _ rest =>
      Derives (upTo closing stack) rest.advanced.tokens := by
  have going : stream.current.kind ≠ .eof := by
    obtain ⟨more, split⟩ := stream.tokens_eq
    exact (split ▸ derives).statement_begins.2.2
  have here := stream.tokens_of_going going
  simp only [Grammar.statement, run_current_bind]
  rcases (here ▸ derives).statement_cases with ⟨kind, rest⟩ | ⟨kind, rest⟩ | rest
  · rw [if_pos kind]
    exact accepts.letStatement closes rest
  · rw [if_neg (by simp [kind]), if_pos kind]
    exact accepts.returnStatement closes rest
  · obtain ⟨opening, found⟩ := (Derives.expression_iff.mp rest).opening
    have noLet : stream.current.kind ≠ .letKeyword := fun same => by
      rw [same] at found
      cases found
    have noReturn : stream.current.kind ≠ .returnKeyword := fun same => by
      rw [same] at found
      cases found
    rw [if_neg noLet, if_neg noReturn]
    exact accepts.expressionStatement closes (here ▸ rest)

theorem item (derives : Derives (.part .statement :: upTo closing stack) stream.tokens) :
    ((strictItem nested).run stream).Accepts
      (Gain.Leads (fun rest => Derives (upTo closing stack) rest.tokens) ended) :=
  (accepts.statement closes derives).andThen fun _ _ derives => .done derives

end Nested.Accepts

theorem derives_block (derives : Derives (.part .block :: stack) word) :
    Derives (.token .lbrace :: upTo .rbrace stack) word := by
  obtain ⟨rule, member, rest⟩ := Derives.part_iff.mp derives
  cases List.mem_singleton.mp member
  exact rest

theorem block_begins (derives : Derives (.part .block :: stack) stream.tokens) :
    stream.current.kind = .lbrace := (derives_token (derives_block derives) (by decide)).1

theorem upTo_cases (derives : Derives (upTo closing stack) stream.tokens) :
    (stream.current.kind = closing ∧ Derives (.token closing :: stack) stream.tokens) ∨
      (stream.current.kind ≠ .rbrace ∧ stream.current.kind ≠ .eof ∧
        Derives (.part .statement :: upTo closing stack) stream.tokens) := by
  obtain ⟨more, split⟩ := stream.tokens_eq
  rcases Derives.many_iff.mp derives with rest | rest
  · exact .inl ⟨(Derives.token_cons_iff.mp (split ▸ rest)).1, rest⟩
  · obtain ⟨_, brace, ended⟩ := Derives.statement_begins (split ▸ rest)
    exact .inr ⟨brace, ended, rest⟩

namespace Nested.Accepts

variable {nested : Nested} (accepts : nested.Accepts)
include accepts

theorem blockRound (derives : Derives (upTo .rbrace stack) stream.tokens) :
    ((blockRound nested).run stream).Accepts (Gain.Leads (fun rest => Derives (upTo .rbrace stack) rest.tokens)
      fun rest => Derives (.token .rbrace :: stack) rest.tokens) := by
  refine .resumed ?_ (blockRound_resumes nested stream)
  simp only [strictBlockRound, run_current_bind]
  rcases upTo_cases derives with ⟨kind, rest⟩ | ⟨brace, ended, rest⟩
  · rw [if_pos kind]
    exact .done rest
  · rw [if_neg brace, if_neg ended]
    exact accepts.item (.inl rfl) rest

theorem programRound (derives : Derives (upTo .eof stack) stream.tokens) :
    ((programRound nested).run stream).Accepts (Gain.Leads (fun rest => Derives (upTo .eof stack) rest.tokens)
      fun rest => Derives (.token .eof :: stack) rest.tokens) := by
  refine .resumed ?_ (programRound_resumes nested stream)
  simp only [strictProgramRound, run_current_bind]
  rcases upTo_cases derives with ⟨kind, rest⟩ | ⟨_, ended, rest⟩
  · rw [if_pos kind]
    exact .done rest
  · rw [if_neg ended]
    exact accepts.item (.inr rfl) rest

variable (ensures : nested.Ensures depth)
include ensures

theorem block (derives : Derives (.part .block :: stack) stream.tokens) :
    ((block nested).run stream).Accepts fun _ rest => Derives stack rest.advanced.tokens := by
  obtain ⟨_, _, inner⟩ := derives_token (derives_block derives) (by decide)
  apply (Step.Accepts.collect_while _ _ ensures.blockRound_passes (fun _ => accepts.blockRound) inner).andThen
  intro statements rest closed
  exact .done (derives_token closed (by decide)).2.2

/-- A program accepts all tokens before the end. -/
theorem program (derives : Derives (upTo .eof stack) stream.tokens) :
    ((program nested).run stream).Accepts fun _ rest => Derives (.token .eof :: stack) rest.tokens :=
  (Step.Accepts.collect_while _ _ (fun _ _ _ _ ran => (ensures.programRound ran).2)
    (fun _ => accepts.programRound) derives).andThen fun _ _ closed => .done closed

end Nested.Accepts

end Mana.Grammar

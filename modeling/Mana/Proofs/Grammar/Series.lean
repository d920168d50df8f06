import Mana.Proofs.Grammar.Alone
import Mana.Proofs.Tree.Words

/-! Series in front of something else. Items that are read from their words wherever a comma or a closing parenthesis
comes after them are read one after the other, with commas in between. -/
namespace Mana

open Grammar Parse

/-- The item is read from the words as what the tree says, in front of a comma or a closing parenthesis. Its words do not
begin with one of those that end a series. -/
structure Parse.Itemizes (item : Parse Node) (words : List Word) (tree : Node) : Prop where
  begins : ∃ first others, words = first :: others ∧ first.1 ≠ .rparen
  yields : ∀ stream beyond, stream.Leads words beyond → beyond.current.kind ∈ [.comma, .rparen] →
    (item.run stream).Yields tree beyond

namespace Grammar

variable {item : Parse Node} {stream beyond : TokenStream} {first : List Word} {words : List (List Word)}
  {trees : List Node}

theorem item_ends (leads : stream.Leads (words.flatMap (Kind.comma.word :: ·) ++ [(.rparen, [')'])]) beyond) :
    stream.current.kind ∈ [.comma, .rparen] := by
  cases words with
  | nil =>
    rw [leads.cons.1]
    decide
  | cons first others =>
    rw [List.flatMap_cons, List.cons_append, List.cons_append] at leads
    rw [leads.cons.1]
    decide

theorem run_items (items : List.Forall₂ item.Itemizes words trees)
    (leads : stream.advanced.Leads (words.flatMap (Kind.comma.word :: ·) ++ [(.rparen, [')'])]) beyond) :
    ∃ nodes rest, (collect (seriesRound item)).run stream = ⟨.done nodes, rest, []⟩ ∧ Node.SayAll nodes trees ∧
      rest.advanced.Leads [(.rparen, [')'])] beyond := by
  induction items generalizing stream with
  | nil =>
    refine ⟨[], stream, ?_, .nil, leads⟩
    obtain ⟨closed, _, _⟩ := leads.cons
    rw [run_collect]
    simp only [seriesRound, run_upcoming_bind]
    rw [if_neg (by rw [stream.upcoming_eq, closed]; decide)]
    rfl
  | @cons first tree words trees one _ ih =>
    have total := leads.count
    rw [List.flatMap_cons, List.cons_append, List.cons_append, List.append_assoc] at leads
    obtain ⟨comma, _, leads⟩ := leads.cons
    obtain ⟨middle, front, leads⟩ := leads.append
    obtain ⟨node, rest, ran, alike, after⟩ := one.yields _ _ front (item_ends leads)
    have round : (seriesRound item).run stream = ⟨.done (.item node), rest, []⟩ := by
      have taken : (item >>= fun next => pure (Gain.item next)).run stream.advanced.advanced =
          ⟨.done (.item node), rest, []⟩ := by
        rw [run_bind_done ran]
        rfl
      simp only [seriesRound, run_upcoming_bind]
      rw [if_pos (by rw [stream.upcoming_eq, comma])]
      exact taken
    have shorter : rest.count < stream.count := by
      obtain ⟨_, others, rfl, _⟩ := one.begins
      have inner := front.count
      have left := congrArg TokenStream.count after
      simp only [TokenStream.advanced_count, List.length_cons] at inner left
      omega
    obtain ⟨nodes, last, collected, all, closed⟩ := ih (after ▸ leads)
    refine ⟨node :: nodes, last, ?_, .cons alike all, closed⟩
    rw [run_collect, round, Step.andThen_done]
    simp only [shorter, ↓reduceIte, collected]
    rfl

/-- A series is read up to the parenthesis after it, item by item. -/
theorem run_series (items : List.Forall₂ item.Itemizes words trees)
    (leads : stream.advanced.Leads (commaWords words ++ [(.rparen, [')'])]) beyond) :
    ∃ nodes rest, (series item .rparen).run stream = ⟨.done nodes, rest, []⟩ ∧ Node.SayAll nodes trees ∧
      rest.advanced = beyond := by
  cases items with
  | nil =>
    obtain ⟨closed, _, leads⟩ := leads.cons
    refine ⟨[], stream.advanced, ?_, .nil, leads.eq_rest⟩
    simp only [series, run_upcoming_bind]
    rw [if_pos (by rw [stream.upcoming_eq, closed])]
    rfl
  | @cons first tree words trees one others =>
    rw [commaWords, List.append_assoc] at leads
    have other : stream.upcoming.kind ≠ .rparen := by
      obtain ⟨⟨kind, text⟩, more, rfl, going⟩ := one.begins
      rw [List.cons_append] at leads
      rw [stream.upcoming_eq, leads.cons.1]
      exact going
    obtain ⟨middle, front, leads⟩ := leads.append
    obtain ⟨node, rest, ran, alike, after⟩ := one.yields _ _ front (item_ends leads)
    obtain ⟨nodes, last, collected, all, closed⟩ := run_items others (after ▸ leads)
    obtain ⟨closing, _, leads⟩ := closed.cons
    have taken : (do
        let first ← item
        let others ← collect (seriesRound item)
        expect .rparen
        return first :: others : Parse (List Node)).run stream.advanced =
          ⟨.done (node :: nodes), last.advanced, []⟩ := by
      rw [run_bind_done ran, run_bind_done collected, run_expect_bind,
        if_pos (by rw [last.upcoming_eq, closing])]
      rfl
    refine ⟨node :: nodes, last.advanced, ?_, .cons alike all, leads.eq_rest⟩
    simp only [series, run_upcoming_bind]
    rw [if_neg other]
    exact taken

/-- An expression is read as an argument as what it means alone. -/
theorem itemizes_argument {levels : Nat} {argument : Text}
    (derives : Derives [.part .expression] (scan argument).ahead) (deep : (scan argument).count < levels) :
    (whole (expression .standard levels)).Itemizes argument.lexemes argument.expression := by
  obtain ⟨opening, chosen⟩ := expression_opening derives
  have going : (scan argument).current.kind ≠ .eof := Rules.ne_eof_of_opening chosen
  refine ⟨⟨_, _, congrArg (List.map Token.lexeme) (TokenStream.ahead_of_going going), fun closed => ?_⟩, ?_⟩
  · replace closed : (scan argument).current.kind = .rparen := closed
    rw [closed] at chosen
    cases chosen
  · intro stream beyond leads next
    have ends : beyond.current.kind ∈ [.comma, .rparen] ++ [.rbrace, .eof] := List.mem_append_left _ next
    exact Text.expression_yields derives deep leads ends

end Grammar

end Mana

import Mana.Proofs.Token.Cut
import Mathlib.Data.List.DropRight

/-! Locations. A token is located by the lines and columns of the text before it, which counts characters, and by
nothing else. -/
namespace Mana

namespace Location

theorem line_past (text : Text) : (start.past text).line = 1 + (text.count '\n' : Int) := by
  induction text using List.reverseRecOn with
  | nil => rfl
  | append_singleton text c ih =>
    rw [past_append, past_cons, past_nil, after, List.count_append, List.count_singleton]
    split
    · rename_i newline
      simp [ih, newline, Int.add_assoc]
    · rename_i other
      simp [ih, other]

theorem column_past (text : Text) :
    (start.past text).column = 1 + ((text.rtakeWhile (· ≠ '\n')).length : Int) := by
  induction text using List.reverseRecOn with
  | nil => rfl
  | append_singleton text c ih =>
    rw [past_append, past_cons, past_nil, after, List.rtakeWhile_concat]
    split
    · rename_i newline
      simp [newline]
    · rename_i other
      simp [ih, other, Int.add_assoc]

end Location

/-- A token stands in a source at an offset if its text is found there and its location is that of the offset: one
line for each newline before it, and one column for each character after the last of those. -/
structure Token.Stands (token : Token) (source : Text) (offset : Nat) : Prop where
  line : token.location.line = 1 + ((source.take offset).count '\n' : Int)
  column : token.location.column = 1 + (((source.take offset).rtakeWhile (· ≠ '\n')).length : Int)
  literal : (source.drop offset).take token.literal.length = token.literal

/-- Locations increase from token to token. Every token stands in the source at an offset before which there are just
the tokens that come before it; that of the end is the offset of the first NUL, or of the end of the source. -/
theorem tokens_located (source : Text) :
    ((scan source).tokens.map Token.location).Pairwise Location.Precedes ∧
      ∀ before token later, (scan source).tokens = before ++ token :: later →
        ∃ offset, token.Stands source offset ∧ (scan (source.take offset)).ahead = before ∧
          (token.kind = .eof → offset = source.beforeNul.length) := by
  refine ⟨scanFrom_increasing .start source, fun before token later split => ?_⟩
  obtain ⟨front, back, rfl, scanned, begins⟩ := exists_scanned split
  obtain ⟨rest, rfl, _⟩ := begins.divided
  have taken : (front ++ (token.literal ++ rest)).take front.length = front := List.take_left' rfl
  have alone := (scanned.behind .nil).tokens_append
  rw [List.append_nil] at alone
  refine ⟨front.length, ⟨?_, ?_, ?_⟩, ?_, fun kind => ?_⟩
  · rw [begins.located, taken, Location.line_past]
  · rw [begins.located, taken, Location.column_past]
  · rw [List.drop_left' rfl, List.take_left' rfl]
  · rw [taken]
    exact (TokenStream.ahead_eq_of_tokens alone).trans (List.append_nil before)
  · exact congrArg List.length (scanned.eq_beforeNul (begins.beforeNul kind))

/-- An operator on the second line, and a NUL behind it. -/
theorem tokens_located_operator :
    (scan "a\n\t==\x00!".toList).tokens =
        [⟨.ident, "a".toList, ⟨1, 1⟩⟩] ++ ⟨.eq, "==".toList, ⟨2, 2⟩⟩ :: [⟨.eof, [], ⟨2, 4⟩⟩] ∧
      ∃ offset, Token.Stands ⟨.eq, "==".toList, ⟨2, 2⟩⟩ "a\n\t==\x00!".toList offset := by
  have split : (scan "a\n\t==\x00!".toList).tokens =
      [⟨.ident, "a".toList, ⟨1, 1⟩⟩] ++ ⟨.eq, "==".toList, ⟨2, 2⟩⟩ :: [⟨.eof, [], ⟨2, 4⟩⟩] := by decide
  obtain ⟨offset, stands, _⟩ := (tokens_located _).2 _ _ _ split
  exact ⟨split, offset, stands⟩

end Mana

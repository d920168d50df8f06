/-! Text as a list of code points. Every column, position and length of this library counts them. -/
namespace Mana

/-- A text is its code points in order. -/
abbrev Text := List Char

/-- The parts in order with the separator between neighbours. -/
def Text.joined (separator : Text) (parts : List Text) : Text := separator.intercalate parts

/-- Parts that are joined are the first one, and the others each with the separator in front. -/
theorem Text.joined_cons (separator first : Text) (others : List Text) :
    Text.joined separator (first :: others) = first ++ others.flatMap (separator ++ ·) := by
  unfold Text.joined
  induction others generalizing first with
  | nil => simp
  | cons second others ih =>
    rw [List.intercalate_cons_cons, ih, List.flatMap_cons, List.append_assoc, List.append_assoc]

/-- Every character of joined parts is one of the separator or of a part. -/
theorem Text.mem_joined {separator : Text} {parts : List Text} (member : c ∈ Text.joined separator parts) :
    c ∈ separator ∨ ∃ part ∈ parts, c ∈ part := by
  cases parts with
  | nil => exact nomatch member
  | cons first others =>
    rw [Text.joined_cons, List.mem_append, List.mem_flatMap] at member
    rcases member with inside | ⟨part, other, inside⟩
    · exact .inr ⟨first, List.mem_cons_self, inside⟩
    · exact (List.mem_append.mp inside).imp_right fun inside => ⟨part, List.mem_cons_of_mem _ other, inside⟩

/-- The lines in order, each closed by a newline. -/
def Text.closed (lines : List Text) : Text := lines.flatMap fun line => line ++ ['\n']

end Mana

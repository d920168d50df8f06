import Mana.Proofs.Printing
import Mathlib.Data.List.Flatten

/-! The words of what is parsed. Printing and parsing lose, repeat and move no word of a source without
faults, and of a broken source some words are kept, in their order. -/
namespace Mana

namespace Parsed

open Grammar

/-- A program says some of the words of genuine tokens, and all of them if nothing is wrong. -/
theorem words_gathered (limit : Nat) {stream : TokenStream} (genuine : stream.Genuine) :
    (ofStream limit stream).program.words.Sublist (stream.words .due) ∧
      ((ofStream limit stream).diagnostics = [] → (ofStream limit stream).program.words = stream.words .due) := by
  obtain ⟨word, formed, among, whole⟩ := exists_formed limit stream
  have words : (ofStream limit stream).program.words = word.flatMap Token.words := by
    rw [formed.words fun token member => genuine token (among.subset member), program_eq]
    rfl
  rw [words]
  exact ⟨among.flatMap _, fun clear => congrArg _ (whole genuine clear)⟩

end Parsed

theorem Node.Fits.words_source {tree : Node} (fits : tree.Fits .program) : tree.source.words = tree.words := by
  have unstruck : (parseWithin ((scan tree.source).count + 1) tree.source).Unstruck :=
    Parsed.unstruck_of_count_lt (Nat.lt_succ_self _)
  obtain ⟨clear, alike⟩ := Parsed.restores fits unstruck
  exact ((Parsed.words_gathered _ (scan_genuine tree.source)).2 clear).symm.trans alike.words

/-- The words of the text of what is parsed are a subsequence of those of the source, whatever is wrong with
it, and are those of the source if nothing is. -/
theorem printed_words (limit : Nat) (source : Text) :
    ∃ text, (parseWithin limit source).program.spelled = .ok text ∧ text.words.Sublist source.words ∧
      ((parseWithin limit source).diagnostics = [] → text.words = source.words) := by
  have fits : (parseWithin limit source).program.Fits .program := Parsed.program_fits (scan_genuine source)
  refine ⟨_, fits.spelled, ?_⟩
  rw [fits.words_source]
  exact Parsed.words_gathered limit (scan_genuine source)

end Mana

import Mana.Proofs.Token.Joined
import Mana.Proofs.Token.Leads

/-! Texts composed of pieces, by the kinds and texts of their tokens. -/
namespace Mana

theorem Fresh.symbol (found : Kind.ofSymbol? c = some kind) : Fresh (c :: rest) := by
  have all : ∀ entry ∈ Kind.symbols, isLetter entry.1 = false ∧ isDigit entry.1 = false ∧ entry.1 ≠ '=' := by decide
  obtain ⟨letter, digit, equals⟩ := all _ (Kind.ofSymbol?_mem found)
  rintro kind text d ⟨⟩
  exact ⟨fun _ => letter, fun _ => digit, fun _ => equals⟩

/-- The words of a text are those of the text alone, wherever it begins. -/
theorem lexemes_scanFrom (location : Location) (text : Text) :
    (scanFrom location 0 text).ahead.map Token.lexeme = text.lexemes := by
  have moved := (scanFrom_moved location .start (by decide) 0 text).1
  rw [location.moved_start] at moved
  rw [moved, List.map_map]
  rfl

namespace Text

/-- A text in front of a fresh one keeps its words. -/
theorem lexemes_append {first second : Text} (going : nul ∉ first) (fresh : Fresh second) :
    (first ++ second).lexemes = first.lexemes ++ second.lexemes := by
  rw [lexemes, scan, (scanFrom_append going fresh _).1, List.map_append, lexemes_scanFrom, lexemes_scanFrom]

theorem lexemes_space {rest : Text} (space : isSpace c = true) : lexemes (c :: rest) = rest.lexemes := by
  rw [lexemes, scan, scanFrom_space space, lexemes_scanFrom]

/-- The text of a token is a word, if nothing after it makes the token longer. -/
theorem lexemes_lexical {text rest : Text} (lexical : Lexical kind text) (apart : Apart kind text rest) :
    (text ++ rest).lexemes = (kind, text) :: rest.lexemes := by
  rw [lexemes, scan, scanFrom_lexical lexical apart]
  exact congrArg (_ :: ·) (lexemes_scanFrom _ rest)

theorem lexemes_symbol {rest : Text} (found : Kind.ofSymbol? c = some kind) :
    lexemes (c :: rest) = (kind, [c]) :: rest.lexemes := by
  have single : Apart kind [c] rest := by
    have all : ∀ entry ∈ Kind.symbols, isLetter entry.1 = false ∧ entry.2 ∉ [.int, .assign, .bang] := by decide
    obtain ⟨letter, plain⟩ := all _ (Kind.ofSymbol?_mem found)
    simp only [List.mem_cons, List.not_mem_nil, or_false, not_or] at plain
    intro d _
    simp [letter, plain]
  exact lexemes_lexical (.symbol found) single

end Text

end Mana

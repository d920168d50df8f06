import Mana.Proofs.Token.Left
import Mana.Proofs.Token.Lexical

/-! The words of a source: the kinds and texts of its tokens, without the parentheses and semicolons that
only say where something ends. -/
namespace Mana

/-- The kind and the text of a token. -/
abbrev Word := Kind × Text

namespace Kind

/-- Parentheses and semicolons are no words. -/
def isSilent (kind : Kind) : Bool := kind = .lparen || kind = .rparen || kind = .semicolon

/-- The text that all tokens of a kind have, if they all have the same one. -/
def literal : Kind → Text
  | function => "fn".toList
  | letKeyword => "let".toList
  | ifKeyword => "if".toList
  | elseKeyword => "else".toList
  | trueKeyword => "true".toList
  | falseKeyword => "false".toList
  | returnKeyword => "return".toList
  | kind => kind.spelling

/-- The word of a kind whose tokens all have the same text. -/
def word (kind : Kind) : Word := (kind, kind.literal)

/-- The words that a token of such a kind is. -/
def words (kind : Kind) : List Word := if kind.isSilent then [] else [kind.word]

end Kind

/-- The words that a token is: itself, unless it is silent. -/
def Token.words (token : Token) : List Word := if token.kind.isSilent then [] else [token.lexeme]

/-- The kinds whose tokens all have the same text. -/
def Kind.Fixed (kind : Kind) : Prop := kind ∉ [illegal, eof, ident, int]

instance (kind : Kind) : Decidable kind.Fixed := inferInstanceAs (Decidable (_ ∉ _))

theorem Lexical.literal (lexical : Lexical kind text) (fixed : kind.Fixed) : text = kind.literal := by
  cases lexical with
  | word letters visible =>
    unfold Kind.ofWord at fixed ⊢
    cases found : Kind.keywords.lookup text with
    | none => exact absurd fixed (by rw [found]; decide)
    | some kind =>
      obtain ⟨first, last, split, _⟩ := List.lookup_eq_some_iff.mp found
      have all : ∀ entry ∈ Kind.keywords, entry.1 = entry.2.literal := by decide
      exact all (text, kind) (split ▸ List.mem_append_right _ List.mem_cons_self)
  | symbol found =>
    have all : ∀ entry ∈ Kind.symbols, entry.2.literal = entry.2.spelling := by decide
    rw [all _ (Kind.ofSymbol?_mem found), Kind.spelling_ofSymbol? found]
  | digits => exact absurd fixed (by decide)
  | illegal => exact absurd fixed (by decide)
  | assign => rfl
  | bang => rfl
  | eq => rfl
  | notEq => rfl

/-- A genuine token of a kind whose tokens all have the same text is the word of its kind. -/
theorem Token.words_eq {token : Token} (genuine : token.Genuine) (kind : token.kind = wanted)
    (fixed : wanted.Fixed) : token.words = wanted.words := by
  subst kind
  rw [Token.words, Kind.words, Token.lexeme, Kind.word, Lexical.literal genuine fixed]

namespace TokenStream

/-- The words that are left at a stage. -/
def words (stream : TokenStream) : Stage → List Word
  | .due => stream.ahead.flatMap Token.words
  | .read => stream.ahead.tail.flatMap Token.words

end TokenStream

/-- The words of a source text. -/
def Text.words (source : Text) : List Word := (scan source).words .due

end Mana

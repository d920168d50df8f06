import Mana.Node
import Mana.Proofs.Token.Lexical
import Mana.Proofs.Grammar.Dispatch

/-! Well-formed trees: what a node may be, by the place where it stands. The tokens that nodes keep do
not count, except that of an integer, which gives it its spelling. -/
namespace Mana

/-- The places of a tree. -/
inductive Place where
  | name | expression | statement | block | program

/-- A name is a word that is not reserved. -/
structure IsName (text : Text) : Prop where
  visible : text ≠ []
  letters : ∀ c ∈ text, isLetter c = true
  free : Kind.ofWord text = .ident

/-- A numeral of a value is at most 4300 ASCII digits that stand for it. -/
structure IsNumeral (text : Text) (value : Int) : Prop where
  digits : ∀ c ∈ text, isDigit c = true
  short : text.length ≤ 4300
  reads : ∃ n : Nat, Numeral.read? text = some n ∧ value = n

namespace Node

mutual

/-- Whether a node is well formed and may stand at a place. -/
def Fits : Node → Place → Prop
  | bare _ _, _ => False
  | program _ statements, place => place = .program ∧ AllFit statements .statement
  | letStatement _ name value, place => place = .statement ∧ name.Fits .name ∧ value.Fits .expression
  | returnStatement _ value, place => place = .statement ∧ value.Fits .expression
  | expressionStatement _ expression, place => place = .statement ∧ expression.Fits .expression
  | block _ statements, place => place = .block ∧ AllFit statements .statement
  | identifier _ name, place => (place = .name ∨ place = .expression) ∧ IsName name
  | integer token value, place =>
    place = .expression ∧ 0 ≤ value ∧ value < 0x8000000000000000 ∧ ∀ kept ∈ token, IsNumeral kept.literal value
  | boolean _ _, place => place = .expression
  | unary _ operator right, place =>
    place = .expression ∧ operator ∈ unaryOperators.map Kind.spelling ∧ right.Fits .expression
  | binary _ left operator right, place =>
    place = .expression ∧ left.Fits .expression ∧ operator ∈ binaryOperators.map Kind.spelling ∧
      right.Fits .expression
  | conditional _ condition consequence alternative, place =>
    place = .expression ∧ condition.Fits .expression ∧ consequence.Fits .block ∧
      AlternativeFits alternative
  | function _ parameters body, place =>
    place = .expression ∧ AllFit parameters .name ∧ body.Fits .block
  | call _ callee arguments, place =>
    place = .expression ∧ callee.Fits .expression ∧ AllFit arguments .expression

def AllFit : List Node → Place → Prop
  | [], _ => True
  | node :: rest, place => node.Fits place ∧ AllFit rest place

def AlternativeFits : Option Node → Prop
  | none => True
  | some node => node.Fits .block

end

end Node

/-! The tokens of a source give well-formed leaves. -/

theorem Lexical.isName (lexical : Lexical .ident text) : IsName text := by
  generalize same : Kind.ident = kind at lexical
  cases lexical with
  | word letters visible => exact ⟨visible, letters, same.symm⟩
  | symbol found =>
    subst same
    have all : ∀ entry ∈ Kind.symbols, entry.2 ≠ .ident := by decide
    exact absurd rfl (all _ (Kind.ofSymbol?_mem found))
  | _ => cases same

theorem IsName.lexical (name : IsName text) : Lexical .ident text := by
  have ofWord := name.free
  exact ofWord ▸ .word name.letters name.visible

theorem IsNumeral.lexical (numeral : IsNumeral text value) : Lexical .int text := by
  obtain ⟨n, read, _⟩ := numeral.reads
  refine .digits numeral.digits ?_
  rintro rfl
  cases read

theorem Lexical.digits_of_int (lexical : Lexical .int text) :
    text ≠ [] ∧ ∀ c ∈ text, isDigit c = true := by
  generalize same : Kind.int = kind at lexical
  cases lexical with
  | word letters visible =>
    have member := Kind.ofWord_mem text
    simp [← same] at member
  | digits digits visible => exact ⟨visible, digits⟩
  | symbol found =>
    subst same
    have all : ∀ entry ∈ Kind.symbols, entry.2 ≠ .int := by decide
    exact absurd rfl (all _ (Kind.ofSymbol?_mem found))
  | _ => cases same

/-- An operator is spelled like its kind. -/
theorem Lexical.operator (lexical : Lexical kind text)
    (operator : kind ∈ unaryOperators ∨ kind ∈ binaryOperators) : text = kind.spelling := by
  cases lexical with
  | word letters visible =>
    have apart : ∀ kind ∈ [Kind.ident, .function, .letKeyword, .ifKeyword, .elseKeyword, .trueKeyword,
        .falseKeyword, .returnKeyword], ¬ (kind ∈ unaryOperators ∨ kind ∈ binaryOperators) := by decide
    exact absurd operator (apart _ (Kind.ofWord_mem text))
  | symbol found => exact (Kind.spelling_ofSymbol? found).symm
  | digits => exact absurd operator (by decide)
  | illegal => exact absurd operator (by decide)
  | assign => rfl
  | bang => rfl
  | eq => rfl
  | notEq => rfl

/-- An operator is a token wherever it is spelled. -/
theorem Lexical.of_operator (operator : kind ∈ unaryOperators ∨ kind ∈ binaryOperators) :
    Lexical kind kind.spelling := by
  cases kind with
  | bang => exact .bang
  | minus => exact .symbol rfl
  | plus => exact .symbol rfl
  | asterisk => exact .symbol rfl
  | slash => exact .symbol rfl
  | lt => exact .symbol rfl
  | gt => exact .symbol rfl
  | eq => exact .eq
  | notEq => exact .notEq
  | _ => exact absurd operator (by decide)

/-- An integer literal that is read is the numeral of its value. -/
theorem Grammar.integerValue?_isNumeral (digits : ∀ c ∈ text, isDigit c = true)
    (read : integerValue? text = some value) : value < 0x8000000000000000 ∧ IsNumeral text value := by
  unfold integerValue? at read
  split at read
  · rename_i short
    obtain ⟨read, bound⟩ := Option.filter_eq_some_iff.mp read
    exact ⟨by simpa using bound, digits, short, value, read, rfl⟩
  · cases read

/-- The numeral of a value in range is read as that value. -/
theorem Grammar.integerValue?_of_isNumeral (numeral : IsNumeral text value)
    (high : value < 0x8000000000000000) :
    ∃ n : Nat, integerValue? text = some n ∧ value = n := by
  obtain ⟨n, read, rfl⟩ := numeral.reads
  refine ⟨n, ?_, rfl⟩
  have short : text.length ≤ Numeral.longest := numeral.short
  rw [integerValue?, if_pos short]
  refine Option.filter_eq_some_iff.mpr ⟨read, ?_⟩
  simp only [decide_eq_true_eq]
  omega

end Mana

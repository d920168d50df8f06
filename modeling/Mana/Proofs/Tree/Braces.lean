import Mana.Proofs.Token.Balance
import Mana.Proofs.Tree.Words

/-! The braces of a tree. Every block closes the brace that it opens. -/
namespace Mana

/-- The kinds of words. -/
def kindsOf (words : List Word) : List Kind := words.map Prod.fst

@[simp] theorem kindsOf_nil : kindsOf [] = [] := rfl

@[simp] theorem kindsOf_cons (word : Word) (words : List Word) :
    kindsOf (word :: words) = word.1 :: kindsOf words := rfl

@[simp] theorem kindsOf_append (first second : List Word) :
    kindsOf (first ++ second) = kindsOf first ++ kindsOf second := List.map_append

theorem kindsOf_words (tokens : List Token) :
    kindsOf (tokens.flatMap Token.words) = (tokens.map Token.kind).filter fun kind => !kind.isSilent := by
  induction tokens with
  | nil => rfl
  | cons token tokens ih =>
    rw [List.flatMap_cons, kindsOf_append, ih, List.map_cons, List.filter_cons, Token.words]
    cases token.kind.isSilent <;> rfl

/-- Every token that is not silent is a word. -/
theorem count_words (tokens : List Token) (spoken : kind.isSilent = false) :
    (kindsOf (tokens.flatMap Token.words)).count kind = (tokens.map Token.kind).count kind := by
  rw [kindsOf_words, List.count_filter (by rw [spoken]; rfl)]

theorem turn_operator (operator : text ∈ unaryOperators.map Kind.spelling ∨ text ∈ binaryOperators.map Kind.spelling) :
    (operatorWord text).1.turn = 0 := by
  have all : ∀ text ∈ unaryOperators.map Kind.spelling ++ binaryOperators.map Kind.spelling,
      (operatorWord text).1.turn = 0 := by decide
  exact all text (List.mem_append.mpr operator)

namespace Node

theorem excess_commaWords {lists : List (List Word)} (each : ∀ words ∈ lists, excess (kindsOf words) = 0) :
    excess (kindsOf (commaWords lists)) = 0 := by
  cases lists with
  | nil => rfl
  | cons first others =>
    obtain ⟨own, others'⟩ := List.forall_mem_cons.mp each
    rw [commaWords, kindsOf_append, excess_append, own, Int.zero_add]
    clear each own
    induction others with
    | nil => rfl
    | cons second others ih =>
      obtain ⟨own, rest⟩ := List.forall_mem_cons.mp others'
      rw [List.flatMap_cons, List.cons_append, kindsOf_cons, kindsOf_append, excess_cons, excess_append, own, ih rest]
      rfl

theorem excess_flatten {lists : List (List Word)} (each : ∀ words ∈ lists, excess (kindsOf words) = 0) :
    excess (kindsOf lists.flatten) = 0 := by
  induction lists with
  | nil => rfl
  | cons first others ih =>
    obtain ⟨own, others'⟩ := List.forall_mem_cons.mp each
    rw [List.flatten_cons, kindsOf_append, excess_append, own, ih others', Int.zero_add]

mutual

theorem Fits.excess_words : (node : Node) → node.Fits place → excess (kindsOf node.words) = 0
  | bare _ _, _ => rfl
  | program _ statements, ⟨_, all⟩ => excess_flatten (AllFit.excess_words statements all)
  | letStatement _ name value, ⟨_, nameFits, valueFits⟩ => by
    simp [words_letStatement, nameFits.excess_words, valueFits.excess_words, Kind.word, Kind.turn]
  | returnStatement _ value, ⟨_, fits⟩ => by
    simp [words_returnStatement, fits.excess_words, Kind.word, Kind.turn]
  | expressionStatement _ expression, ⟨_, fits⟩ => fits.excess_words
  | block _ statements, ⟨_, all⟩ => by
    simp [words_block, excess_flatten (AllFit.excess_words statements all), Kind.word, Kind.turn]
  | identifier _ _, _ => rfl
  | integer _ _, _ => rfl
  | boolean _ value, _ => by cases value <;> rfl
  | unary _ operator right, ⟨_, own, fits⟩ => by
    simp [words_unary, turn_operator (.inl own), fits.excess_words]
  | binary _ left operator right, ⟨_, leftFits, own, rightFits⟩ => by
    simp [words_binary, leftFits.excess_words, turn_operator (.inr own), rightFits.excess_words]
  | conditional _ condition consequence none, ⟨_, conditionFits, consequenceFits, _⟩ => by
    simp [words_conditional, alternativeWords, conditionFits.excess_words, consequenceFits.excess_words, Kind.word,
      Kind.turn]
  | conditional _ condition consequence (some alternative), ⟨_, conditionFits, consequenceFits, fits⟩ => by
    simp [words_conditional, words_some, conditionFits.excess_words, consequenceFits.excess_words,
      Fits.excess_words alternative fits, Kind.word, Kind.turn]
  | function _ parameters body, ⟨_, all, fits⟩ => by
    simp [words_function, excess_commaWords (AllFit.excess_words parameters all), fits.excess_words, Kind.word,
      Kind.turn]
  | call _ callee arguments, ⟨_, fits, all⟩ => by
    simp [words_call, excess_commaWords (AllFit.excess_words arguments all), fits.excess_words]

theorem AllFit.excess_words : (nodes : List Node) → AllFit nodes place →
    ∀ words ∈ wordLists nodes, excess (kindsOf words) = 0
  | [], _ => nofun
  | _ :: rest, ⟨fits, all⟩ => List.forall_mem_cons.mpr ⟨fits.excess_words, AllFit.excess_words rest all⟩

end

end Node

end Mana

import Mana.Node.Source
import Mana.Proofs.Token.Words
import Mana.Proofs.Tree.WellFormed

/-! The words of a tree, in the order in which its source text has them. -/
namespace Mana

/-- The word of an operator, by its spelling. -/
def operatorWord (operator : Text) : Word := ((Kind.ofSpelling? operator).getD .illegal, operator)

/-- An operator is the word of its kind. -/
theorem operatorWord_eq (genuine : Token.Genuine token)
    (operator : token.kind ∈ unaryOperators ∨ token.kind ∈ binaryOperators) :
    operatorWord token.literal = token.lexeme := by
  have spelled : token.literal = token.kind.spelling := Lexical.operator genuine operator
  rw [operatorWord, spelled, Kind.ofSpelling?_spelling, Token.lexeme, spelled, Option.getD_some]

/-- The words of items with commas between them. -/
def commaWords : List (List Word) → List Word
  | [] => []
  | first :: others => first ++ others.flatMap (Kind.comma.word :: ·)

namespace Node

mutual

def words : Node → List Word
  | bare _ _ => []
  | program _ statements => (wordLists statements).flatten
  | letStatement _ name value =>
    Kind.letKeyword.word :: (name.words ++ Kind.assign.word :: value.words)
  | returnStatement _ value => Kind.returnKeyword.word :: value.words
  | expressionStatement _ expression => expression.words
  | block _ statements => Kind.lbrace.word :: ((wordLists statements).flatten ++ [Kind.rbrace.word])
  | identifier _ name => [(.ident, name)]
  | integer token value => [(.int, (integer token value).source)]
  | boolean _ value => [(if value then Kind.trueKeyword else .falseKeyword).word]
  | unary _ operator right => operatorWord operator :: right.words
  | binary _ left operator right => left.words ++ operatorWord operator :: right.words
  | conditional _ condition consequence alternative =>
    Kind.ifKeyword.word :: (condition.words ++ (consequence.words ++ alternativeWords alternative))
  | function _ parameters body => Kind.function.word :: (commaWords (wordLists parameters) ++ body.words)
  | call _ callee arguments => callee.words ++ commaWords (wordLists arguments)

def wordLists : List Node → List (List Word)
  | [] => []
  | node :: rest => node.words :: wordLists rest

def alternativeWords : Option Node → List Word
  | none => []
  | some node => Kind.elseKeyword.word :: node.words

end

section Words

variable (token : Option Token) (name value left right condition consequence body callee : Node)
  (statements parameters arguments : List Node) (alternative : Option Node) (operator : Text)

theorem words_program : (program token statements).words = (wordLists statements).flatten := rfl

theorem words_letStatement : (letStatement token name value).words =
    Kind.letKeyword.word :: (name.words ++ Kind.assign.word :: value.words) := rfl

theorem words_returnStatement : (returnStatement token value).words =
    Kind.returnKeyword.word :: value.words := rfl

theorem words_block : (block token statements).words =
    Kind.lbrace.word :: ((wordLists statements).flatten ++ [Kind.rbrace.word]) := rfl

theorem words_unary : (unary token operator right).words = operatorWord operator :: right.words := rfl

theorem words_binary : (binary token left operator right).words =
    left.words ++ operatorWord operator :: right.words := rfl

theorem words_conditional : (conditional token condition consequence alternative).words =
    Kind.ifKeyword.word :: (condition.words ++ (consequence.words ++ alternativeWords alternative)) := rfl

theorem words_some : alternativeWords (some body) = Kind.elseKeyword.word :: body.words := rfl

theorem words_function : (function token parameters body).words =
    Kind.function.word :: (commaWords (wordLists parameters) ++ body.words) := rfl

theorem words_call : (call token callee arguments).words =
    callee.words ++ commaWords (wordLists arguments) := rfl

end Words

theorem wordLists_eq (nodes : List Node) : wordLists nodes = nodes.map words := by
  induction nodes with
  | nil => rfl
  | cons node nodes ih => exact congrArg (node.words :: ·) ih

end Node

end Mana

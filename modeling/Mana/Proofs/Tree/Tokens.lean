import Mana.Node

/-! The tokens that the nodes of a tree keep, in the order in which a source has them. -/
namespace Mana

namespace Node

mutual

/-- The token of a node comes before those of its children, but for an operator or an argument list, which comes
after what it extends. Programs and expression statements add none of their own. -/
def tokens : Node → List Token
  | bare token _ => token.toList
  | program _ statements => tokenLists statements
  | letStatement token name value => token.toList ++ (name.tokens ++ value.tokens)
  | returnStatement token value => token.toList ++ value.tokens
  | expressionStatement _ expression => expression.tokens
  | block token statements => token.toList ++ tokenLists statements
  | identifier token _ => token.toList
  | integer token _ => token.toList
  | boolean token _ => token.toList
  | unary token _ right => token.toList ++ right.tokens
  | binary token left _ right => left.tokens ++ (token.toList ++ right.tokens)
  | conditional token condition consequence alternative =>
    token.toList ++ (condition.tokens ++ (consequence.tokens ++ alternativeTokens alternative))
  | function token parameters body => token.toList ++ (tokenLists parameters ++ body.tokens)
  | call token callee arguments => callee.tokens ++ (token.toList ++ tokenLists arguments)

def tokenLists : List Node → List Token
  | [] => []
  | node :: rest => node.tokens ++ tokenLists rest

def alternativeTokens : Option Node → List Token
  | none => []
  | some node => node.tokens

end

end Node

end Mana

import Mana.Text.Numeral
import Mana.Token

/-! Syntax trees. Every node may keep a token, which is where it comes from and no part of what it
says. A node of any class may stand under any other; the grammar alone decides which do. -/
namespace Mana

/-- A plain value: a text, a number or a truth value. -/
inductive Scalar where
  | words (value : Text)
  | number (value : Int)
  | flag (value : Bool)
  deriving DecidableEq

/-- The classes of nodes that hold a plain value. -/
inductive Leaf where
  | identifier | integer | boolean
  deriving DecidableEq

/-- What no source is parsed into: nodes of the classes that say nothing by themselves, and leaves that
were put together with any plain value. -/
inductive Base where
  | node | statement | expression
  | leaf (kind : Leaf) (value : Scalar)
  deriving DecidableEq

inductive Node where
  | bare (token : Option Token) (base : Base)
  | program (token : Option Token) (statements : List Node)
  | letStatement (token : Option Token) (name value : Node)
  | returnStatement (token : Option Token) (value : Node)
  | expressionStatement (token : Option Token) (expression : Node)
  | block (token : Option Token) (statements : List Node)
  | identifier (token : Option Token) (name : Text)
  | integer (token : Option Token) (value : Int)
  | boolean (token : Option Token) (value : Bool)
  | unary (token : Option Token) (operator : Text) (right : Node)
  | binary (token : Option Token) (left : Node) (operator : Text) (right : Node)
  | conditional (token : Option Token) (condition consequence : Node) (alternative : Option Node)
  | function (token : Option Token) (parameters : List Node) (body : Node)
  | call (token : Option Token) (callee : Node) (arguments : List Node)

/-- The name of the class of a leaf. -/
def Leaf.name : Leaf → Text
  | .identifier => "Identifier".toList
  | .integer => "IntegerLiteral".toList
  | .boolean => "Boolean".toList

/-- The name of the class of a node. -/
def Base.name : Base → Text
  | .node => "Node".toList
  | .statement => "Statement".toList
  | .expression => "Expression".toList
  | .leaf kind _ => kind.name

namespace Scalar

/-- The number that a value counts as among numbers: truth values are one and zero. -/
def amount : Scalar → Int
  | words _ => 0
  | number value => value
  | flag value => if value then 1 else 0

/-- Whether two values are equal. A truth value equals the number that it counts as. -/
def agrees : Scalar → Scalar → Bool
  | words text, words text' => text = text'
  | words _, _ | _, words _ => false
  | value, value' => value.amount = value'.amount

/-- Whether a value is short enough to be written. -/
def isShort : Scalar → Bool
  | number value => Numeral.isShort value
  | _ => true

end Scalar

namespace Node

/-- The name of the class of a node. -/
def className : Node → Text
  | bare _ base => base.name
  | program .. => "Program".toList
  | letStatement .. => "LetStatement".toList
  | returnStatement .. => "ReturnStatement".toList
  | expressionStatement .. => "ExpressionStatement".toList
  | block .. => "BlockStatement".toList
  | identifier .. => Leaf.identifier.name
  | integer .. => Leaf.integer.name
  | boolean .. => Leaf.boolean.name
  | unary .. => "PrefixExpression".toList
  | binary .. => "InfixExpression".toList
  | conditional .. => "IfExpression".toList
  | function .. => "FunctionLiteral".toList
  | call .. => "CallExpression".toList

/-- The token that a node keeps. -/
def token? : Node → Option Token
  | bare token _ | program token _ | letStatement token .. | returnStatement token _
  | expressionStatement token _ | block token _ | identifier token _ | integer token _
  | boolean token _ | unary token .. | binary token .. | conditional token .. | function token ..
  | call token .. => token

/-- Whether a node is an expression. -/
def isExpression : Node → Bool
  | bare _ base => base != .node && base != .statement
  | identifier .. | integer .. | boolean .. | unary .. | binary .. | conditional .. | function ..
  | call .. => true
  | program .. | letStatement .. | returnStatement .. | expressionStatement .. | block .. => false

/-- The class and the value of a leaf. -/
def held? : Node → Option (Leaf × Scalar)
  | identifier _ name => some (.identifier, .words name)
  | integer _ value => some (.integer, .number value)
  | boolean _ value => some (.boolean, .flag value)
  | bare _ (.leaf kind value) => some (kind, value)
  | _ => none

/-- The statements right under a program or a block. -/
def statements : Node → List Node
  | program _ statements | block _ statements => statements
  | _ => []

/-- The text of the token that a node keeps. A program has that of its first statement instead. -/
def tokenLiteral : Node → Text
  | program _ [] => []
  | program _ (statement :: _) => statement.tokenLiteral
  | node => node.token?.elim [] Token.literal

mutual

/-- A node and all nodes below it, each before those under it. -/
def preorder : Node → List Node
  | program token statements => program token statements :: preorders statements
  | block token statements => block token statements :: preorders statements
  | letStatement token name value => letStatement token name value :: (name.preorder ++ value.preorder)
  | returnStatement token value => returnStatement token value :: value.preorder
  | expressionStatement token expression =>
    expressionStatement token expression :: expression.preorder
  | unary token operator right => unary token operator right :: right.preorder
  | binary token left operator right =>
    binary token left operator right :: (left.preorder ++ right.preorder)
  | conditional token condition consequence alternative =>
    conditional token condition consequence alternative ::
      (condition.preorder ++ consequence.preorder ++ alternativePreorder alternative)
  | function token parameters body =>
    function token parameters body :: (preorders parameters ++ body.preorder)
  | call token callee arguments => call token callee arguments :: (callee.preorder ++ preorders arguments)
  | bare token base => [bare token base]
  | identifier token name => [identifier token name]
  | integer token value => [integer token value]
  | boolean token value => [boolean token value]

def preorders : List Node → List Node
  | [] => []
  | node :: rest => node.preorder ++ preorders rest

def alternativePreorder : Option Node → List Node
  | none => []
  | some node => node.preorder

end

end Node

end Mana

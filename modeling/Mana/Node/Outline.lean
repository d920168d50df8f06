import Mana.Node
import Mana.Outline

/-! The outline of a syntax tree: what its nodes say, without the tokens they keep. -/
namespace Mana

/-- The outline of a plain value. -/
def Scalar.outline : Scalar → Outline
  | words value => .words value
  | number value => .number value
  | flag value => .flag value

def Base.outline (base : Base) : Outline :=
  match base with
  | .leaf kind value => .record kind.name [("value".toList, value.outline)]
  | _ => .record base.name []

namespace Node

mutual

def outline : Node → Outline
  | bare _ base => base.outline
  | program _ statements => .record "Program".toList [("statements".toList, .series (outlines statements))]
  | letStatement _ name value => .record "LetStatement".toList
      [("name".toList, name.outline), ("value".toList, value.outline)]
  | returnStatement _ value => .record "ReturnStatement".toList [("return_value".toList, value.outline)]
  | expressionStatement _ expression => .record "ExpressionStatement".toList
      [("expression".toList, expression.outline)]
  | block _ statements => .record "BlockStatement".toList
      [("statements".toList, .series (outlines statements))]
  | identifier _ name => .record Leaf.identifier.name [("value".toList, .words name)]
  | integer _ value => .record Leaf.integer.name [("value".toList, .number value)]
  | boolean _ value => .record Leaf.boolean.name [("value".toList, .flag value)]
  | unary _ operator right => .record "PrefixExpression".toList
      [("operator".toList, .words operator), ("right".toList, right.outline)]
  | binary _ left operator right => .record "InfixExpression".toList
      [("left".toList, left.outline), ("operator".toList, .words operator),
       ("right".toList, right.outline)]
  | conditional _ condition consequence alternative => .record "IfExpression".toList
      [("condition".toList, condition.outline), ("consequence".toList, consequence.outline),
       ("alternative".toList, alternativeOutline alternative)]
  | function _ parameters body => .record "FunctionLiteral".toList
      [("parameters".toList, .series (outlines parameters)), ("body".toList, body.outline)]
  | call _ callee arguments => .record "CallExpression".toList
      [("function".toList, callee.outline), ("arguments".toList, .series (outlines arguments))]

def outlines : List Node → List Outline
  | [] => []
  | node :: rest => node.outline :: outlines rest

def alternativeOutline : Option Node → Outline
  | none => .absent
  | some node => node.outline

end

/-- Whether every value in a tree is short enough to be written. -/
def isShort (node : Node) : Bool := node.preorder.all fun below => below.held?.all fun held => held.2.isShort

/-- The description of a tree on one line. -/
def description (node : Node) : Text := node.outline.description

end Node

end Mana

import Mana.Node

/-! Agreement of syntax trees: the same class with agreeing fields, whatever tokens the nodes keep. -/
namespace Mana

/-- Whether a node is of the class of a base node, and holds an equal value if that is a leaf. -/
def Base.agrees : Base → Node → Bool
  | .leaf kind value, other => other.held?.any fun (kind', value') => kind = kind' && value.agrees value'
  | base, .bare _ base' => base = base'
  | _, _ => false

namespace Node

mutual

/-- Whether two trees say the same. -/
def agrees : Node → Node → Bool
  | bare _ base, node => base.agrees node
  | node, bare _ base => base.agrees node
  | program _ statements, program _ statements' => agree statements statements'
  | letStatement _ name value, letStatement _ name' value' => name.agrees name' && value.agrees value'
  | returnStatement _ value, returnStatement _ value' => value.agrees value'
  | expressionStatement _ expression, expressionStatement _ expression' =>
    expression.agrees expression'
  | block _ statements, block _ statements' => agree statements statements'
  | identifier _ name, identifier _ name' => name = name'
  | integer _ value, integer _ value' => value = value'
  | boolean _ value, boolean _ value' => value = value'
  | unary _ operator right, unary _ operator' right' => operator = operator' && right.agrees right'
  | binary _ left operator right, binary _ left' operator' right' =>
    left.agrees left' && operator = operator' && right.agrees right'
  | conditional _ condition consequence alternative, conditional _ condition' consequence' alternative' =>
    condition.agrees condition' && consequence.agrees consequence' &&
      alternativesAgree alternative alternative'
  | function _ parameters body, function _ parameters' body' =>
    agree parameters parameters' && body.agrees body'
  | call _ callee arguments, call _ callee' arguments' =>
    callee.agrees callee' && agree arguments arguments'
  | _, _ => false

/-- Whether two lists of trees agree tree by tree. -/
def agree : List Node → List Node → Bool
  | [], [] => true
  | node :: rest, node' :: rest' => node.agrees node' && agree rest rest'
  | _, _ => false

def alternativesAgree : Option Node → Option Node → Bool
  | none, none => true
  | some node, some node' => node.agrees node'
  | _, _ => false

end

end Node

end Mana

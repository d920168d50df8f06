import Mana.Node

/-! The blocks of a tree: how many of its nodes are blocks. -/
namespace Mana.Node

def isBlock : Node → Bool
  | block .. => true
  | _ => false

/-- How many nodes of a tree are blocks. -/
def blocks (node : Node) : Nat := node.preorder.countP isBlock

/-- How many nodes of some trees are blocks. -/
def blocksOf (nodes : List Node) : Nat := (preorders nodes).countP isBlock

@[simp] theorem blocksOf_nil : blocksOf [] = 0 := rfl

@[simp] theorem blocksOf_cons (node : Node) (nodes : List Node) :
    blocksOf (node :: nodes) = node.blocks + blocksOf nodes := List.countP_append

section

variable (token : Option Token)

@[simp] theorem blocks_letStatement (name value : Node) :
    (letStatement token name value).blocks = name.blocks + value.blocks := List.countP_append

@[simp] theorem blocks_returnStatement (value : Node) : (returnStatement token value).blocks = value.blocks := rfl

@[simp] theorem blocks_expressionStatement (expression : Node) :
    (expressionStatement token expression).blocks = expression.blocks := rfl

@[simp] theorem blocks_block (statements : List Node) : (block token statements).blocks = blocksOf statements + 1 :=
  List.countP_cons_of_pos rfl

@[simp] theorem blocks_identifier (name : Text) : (identifier token name).blocks = 0 := rfl

@[simp] theorem blocks_integer (value : Int) : (integer token value).blocks = 0 := rfl

@[simp] theorem blocks_boolean (value : Bool) : (boolean token value).blocks = 0 := rfl

@[simp] theorem blocks_unary (operator : Text) (right : Node) :
    (unary token operator right).blocks = right.blocks := rfl

@[simp] theorem blocks_binary (left : Node) (operator : Text) (right : Node) :
    (binary token left operator right).blocks = left.blocks + right.blocks := List.countP_append

@[simp] theorem blocks_conditional (condition consequence : Node) (alternative : Option Node) :
    (conditional token condition consequence alternative).blocks =
      condition.blocks + consequence.blocks + blocksOf alternative.toList := by
  have branches : (alternativePreorder alternative).countP isBlock = blocksOf alternative.toList := by
    cases alternative with
    | none => rfl
    | some node => exact (Nat.add_zero node.blocks).symm.trans (blocksOf_cons node []).symm
  rw [← branches]
  exact List.countP_append.trans (congrArg (· + _) List.countP_append)

@[simp] theorem blocks_function (parameters : List Node) (body : Node) :
    (function token parameters body).blocks = blocksOf parameters + body.blocks := List.countP_append

@[simp] theorem blocks_call (callee : Node) (arguments : List Node) :
    (call token callee arguments).blocks = callee.blocks + blocksOf arguments := List.countP_append

end

end Mana.Node

import Mana.Rendering

/-! The call stack of the interpreter. Whatever recurs over a tree needs room on it, level by level, and
raises an error where there is none left. -/
namespace Mana

/-- How many calls a recursion over trees opens for a node below another one, and for a node in a list. -/
structure Recursion where
  below : Nat
  listed : Nat

namespace Recursion

/-- A tree is spelled by one call for each node, and two more for each list. -/
def spelling : Recursion := ⟨1, 3⟩

/-- An outline is made by one call for each node and one for each field and item. -/
def outlining : Recursion := ⟨2, 4⟩

/-- A description is made by three calls for each node and one for each list. Nodes are compared by as
many. -/
def describing : Recursion := ⟨3, 4⟩

mutual

/-- The most calls that are open at once below that for a node. -/
def calls (recursion : Recursion) : Node → Nat
  | .bare .. | .identifier .. | .integer .. | .boolean .. => 0
  | .program _ statements | .block _ statements => recursion.callsOf statements
  | .letStatement _ name value =>
    max (recursion.below + recursion.calls name) (recursion.below + recursion.calls value)
  | .returnStatement _ value => recursion.below + recursion.calls value
  | .expressionStatement _ expression => recursion.below + recursion.calls expression
  | .unary _ _ right => recursion.below + recursion.calls right
  | .binary _ left _ right =>
    max (recursion.below + recursion.calls left) (recursion.below + recursion.calls right)
  | .conditional _ condition consequence alternative =>
    max (recursion.below + recursion.calls condition)
      (max (recursion.below + recursion.calls consequence) (recursion.callsOfAlternative alternative))
  | .function _ parameters body => max (recursion.callsOf parameters) (recursion.below + recursion.calls body)
  | .call _ callee arguments => max (recursion.below + recursion.calls callee) (recursion.callsOf arguments)

def callsOf (recursion : Recursion) : List Node → Nat
  | [] => 0
  | node :: rest => max (recursion.listed + recursion.calls node) (recursion.callsOf rest)

def callsOfAlternative (recursion : Recursion) : Option Node → Nat
  | none => 0
  | some node => recursion.below + recursion.calls node

end

end Recursion

/-- The room on the stack: how deeply expressions may be nested in each other while they are parsed, and
how many calls may be open at once in a recursion over a tree. -/
structure Stack where
  nesting : Nat
  calls : Nat

/-- The recursion that shows a program in a format. -/
def Format.recursion : Format → Recursion
  | .json => .outlining
  | _ => .spelling

/-- Why a source is not rendered: it has faults, or its program is too deep. -/
inductive Unrendered where
  | faults (diagnostics : List Diagnostic)
  | exhausted
  deriving DecidableEq

namespace Stack

/-- The room of an interpreter that holds a thousand calls. -/
def standard : Stack := ⟨nestingLimit, 980⟩

/-- Whether there is room for a recursion over a tree. -/
def holds (stack : Stack) (recursion : Recursion) (node : Node) : Bool := recursion.calls node < stack.calls

/-- What an interpreter says that has no room left. -/
def exhausted : Text := "maximum recursion depth exceeded".toList

/-- A program in a format, if there is room to show it. -/
def shown? (stack : Stack) (program : Node) (format : Format) : Option Text :=
  if stack.holds format.recursion program then some (program.rendered format) else none

/-- A source in a format, as far as there is room for it. -/
def render (stack : Stack) (source : Text) : Format → Except Unrendered Text
  | .tokens => .ok (tokenListing source)
  | format => match parseStrictly stack.nesting source with
    | .error diagnostics => .error (.faults diagnostics)
    | .ok program => (stack.shown? program format).elim (.error .exhausted) .ok

/-- The description of a tree, if there is room for it and no number is too long. -/
def describe? (stack : Stack) (node : Node) : Option Text :=
  if stack.holds .describing node && node.isShort then some node.description else none

end Stack

end Mana

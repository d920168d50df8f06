import Mana.Node
import Mana.Text.Numeral

/-! The source text of a syntax tree. Operators are fully parenthesised, expression statements end with
a semicolon and blocks keep their braces, so that a tree has one spelling. -/
namespace Mana

namespace Scalar

def text : Scalar → Text
  | words value => value
  | number value => decimal value
  | flag true => "True".toList
  | flag false => "False".toList

/-- Whether a value counts as true. -/
def holds : Scalar → Bool
  | words value => !value.isEmpty
  | number value => value != 0
  | flag value => value

/-- The name of the type of a value. -/
def typeName : Scalar → Text
  | words _ => "str".toList
  | number _ => "int".toList
  | flag _ => "bool".toList

end Scalar

/-- Why a tree has no text: it has a node that has none, a number that is too long, or an item of a list
that holds something else for its text. -/
inductive Unspellable where
  | base (base : Base)
  | digits
  | item (index : Nat) (value : Scalar)
  deriving DecidableEq

/-- The complaint about a tree without a text. A node is named by its class. -/
def Unspellable.message : Unspellable → Text
  | .base missing => missing.name
  | digits => "Exceeds the limit (".toList ++ decimal Numeral.longest ++
      " digits) for integer string conversion; use sys.set_int_max_str_digits() to increase the limit".toList
  | item index value => "sequence item ".toList ++ decimal index ++ ": expected str instance, ".toList ++
      value.typeName ++ " found".toList

namespace Base

/-- The text of a leaf is what it holds, but an integer is spelled like the token it keeps. -/
def source (token : Option Token) : Base → Text
  | .leaf .identifier value => value.text
  | .leaf .integer value => token.elim value.text Token.literal
  | .leaf .boolean value => if value.holds then "true".toList else "false".toList
  | _ => []

def unspellable? (token : Option Token) : Base → Option Unspellable
  | .leaf .boolean _ => none
  | .leaf .identifier value => if value.isShort then none else some .digits
  | .leaf .integer value => if token.isSome || value.isShort then none else some .digits
  | base => some (.base base)

end Base

namespace Node

/-- The statements of a block between its braces. -/
def braced (statements : List Text) : Text :=
  if statements.isEmpty then ['\x7b', ' ', '\x7d']
  else ['\x7b', ' '] ++ Text.joined [' '] statements ++ [' ', '\x7d']

mutual

/-- The source text. An integer is spelled like the token it keeps. -/
def source : Node → Text
  | bare token base => base.source token
  | program _ statements => (sources statements).flatten
  | letStatement _ name value =>
    "let ".toList ++ name.source ++ " = ".toList ++ value.source ++ [';']
  | returnStatement _ value => "return ".toList ++ value.source ++ [';']
  | expressionStatement _ expression => expression.source ++ [';']
  | block _ statements => braced (sources statements)
  | identifier _ name => name
  | integer none value => decimal value
  | integer (some token) _ => token.literal
  | boolean _ true => "true".toList
  | boolean _ false => "false".toList
  | unary _ operator right => ['('] ++ operator ++ right.source ++ [')']
  | binary _ left operator right =>
    ['('] ++ left.source ++ [' '] ++ operator ++ [' '] ++ right.source ++ [')']
  | conditional _ condition consequence alternative =>
    "if (".toList ++ condition.source ++ ") ".toList ++ consequence.source ++
      alternativeSource alternative
  | function _ parameters body =>
    "fn(".toList ++ Text.joined ", ".toList (sources parameters) ++ ") ".toList ++ body.source
  | call _ callee arguments =>
    callee.source ++ ['('] ++ Text.joined ", ".toList (sources arguments) ++ [')']

def sources : List Node → List Text
  | [] => []
  | node :: rest => node.source :: sources rest

def alternativeSource : Option Node → Text
  | none => []
  | some node => " else ".toList ++ node.source

end

/-- The first of the items from an index on that is a name without a text. -/
def untextual? : List Node → Nat → Option Unspellable
  | [], _ => none
  | bare _ (.leaf .identifier (.number value)) :: _, index => some (.item index (.number value))
  | bare _ (.leaf .identifier (.flag value)) :: _, index => some (.item index (.flag value))
  | _ :: rest, index => untextual? rest (index + 1)

mutual

/-- What the text of a tree runs into first, where it is put together from the nodes below, and arguments
before the callee. -/
def unspellable? : Node → Option Unspellable
  | bare token base => base.unspellable? token
  | integer token value => if token.isSome || Numeral.isShort value then none else some .digits
  | program _ statements | block _ statements => firstUnspellable? statements <|> untextual? statements 0
  | letStatement _ name value => name.unspellable? <|> value.unspellable?
  | returnStatement _ value => value.unspellable?
  | expressionStatement _ expression => expression.unspellable?
  | identifier .. | boolean .. => none
  | unary _ _ right => right.unspellable?
  | binary _ left _ right => left.unspellable? <|> right.unspellable?
  | conditional _ condition consequence alternative =>
    condition.unspellable? <|> consequence.unspellable? <|> alternativeUnspellable? alternative
  | function _ parameters body =>
    firstUnspellable? parameters <|> untextual? parameters 0 <|> body.unspellable?
  | call _ callee arguments =>
    firstUnspellable? arguments <|> untextual? arguments 0 <|> callee.unspellable?

def firstUnspellable? : List Node → Option Unspellable
  | [] => none
  | node :: rest => node.unspellable? <|> firstUnspellable? rest

def alternativeUnspellable? : Option Node → Option Unspellable
  | none => none
  | some node => node.unspellable?

end

/-- The source text of a tree, or why it has none. -/
def spelled (node : Node) : Except Unspellable Text :=
  match node.unspellable? with
  | some reason => .error reason
  | none => .ok node.source

end Node

end Mana

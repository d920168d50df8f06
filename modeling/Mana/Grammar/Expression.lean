import Mana.Grammar.Statement

/-! The grammar of expressions: the forms that begin at a token, and those that extend an expression
on their left. Every form is over a parser of the expressions nested in it. -/
namespace Mana.Grammar

open Parse

/-- The current token as a name, whatever its kind. -/
def identifier : Parse Node := do
  let token ← current
  return .identifier (some token) token.literal

/-- The value of an integer literal, if it is short enough and below two to the power of 63. -/
def integerValue? (literal : Text) : Option Nat :=
  if literal.length ≤ Numeral.longest then
    (Numeral.read? literal).filter fun value => value < 0x8000000000000000
  else none

/-- The current token as an integer. -/
def integer : Parse Node := do
  let token ← current
  match integerValue? token.literal with
  | some value => return .integer (some token) value
  | none =>
    complain (.badInteger token.literal) token
    fail

/-- The current token as a truth value, which is true for `true` alone. -/
def boolean : Parse Node := do
  let token ← current
  return .boolean (some token) (token.kind = .trueKeyword)

/-- An operator before its operand. -/
def unary (nested : Nested) : Parse Node := do
  let token ← current
  advance
  let right ← nested Level.unary.strength
  return .unary (some token) token.literal right

/-- An expression in parentheses, which leave no trace in the tree. -/
def grouped (nested : Nested) : Parse Node := do
  advance
  let expression ← whole nested
  expect .rparen
  return expression

/-- `if`, a condition in parentheses and a block, with or without `else` and another block. -/
def conditional (nested : Nested) : Parse Node := do
  let token ← current
  expect .lparen
  advance
  let condition ← whole nested
  expect .rparen
  expect .lbrace
  let consequence ← block nested
  if (← upcoming).kind = .elseKeyword then
    advance
    expect .lbrace
    let alternative ← block nested
    return .conditional (some token) condition consequence (some alternative)
  else return .conditional (some token) condition consequence none

/-- One more item after a comma, or the end of a series. -/
def seriesRound (item : Parse Node) : Parse (Gain Node) := do
  if (← upcoming).kind = .comma then
    advance
    advance
    let next ← item
    return .item next
  else return .stop

/-- Items between commas, from an opening token up to the closing one, which stays current. -/
def series (item : Parse Node) (closing : Kind) : Parse (List Node) := do
  if (← upcoming).kind = closing then
    advance
    return []
  else
    advance
    let first ← item
    let others ← collect (seriesRound item)
    expect closing
    return first :: others

/-- A name in a parameter list. -/
def parameter : Parse Node := do
  let token ← current
  if token.kind = .ident then return .identifier (some token) token.literal
  else
    complain (.expected .ident token.kind) token
    fail

/-- `fn`, names in parentheses and a block. -/
def function (nested : Nested) : Parse Node := do
  let token ← current
  expect .lparen
  let parameters ← series parameter .rparen
  expect .lbrace
  let body ← block nested
  return .function (some token) parameters body

/-- An operator between operands. Its right one binds more tightly than the operator itself, so that
operators of one level group from the left. -/
def binary (nested : Nested) (left : Node) : Parse Node := do
  let token ← current
  advance
  let right ← nested token.kind.strength
  return .binary (some token) left token.literal right

/-- Arguments in parentheses after what is called. -/
def call (nested : Nested) (callee : Node) : Parse Node := do
  let token ← current
  let arguments ← series (whole nested) .rparen
  return .call (some token) callee arguments

/-- The forms that begin at the current token. -/
inductive Opening where
  | program | statement | letStatement | returnStatement | expressionStatement | block
  | identifier | integer | boolean | unary | grouped | conditional | function | parameter | argument
  deriving DecidableEq

/-- The forms that extend an expression on the left of the current token. -/
inductive Extension where
  | binary | call
  deriving DecidableEq

def Opening.parse (nested : Nested) : Opening → Parse Node
  | .program => Grammar.program nested
  | .statement => Grammar.statement nested
  | .letStatement => Grammar.letStatement nested
  | .returnStatement => Grammar.returnStatement nested
  | .expressionStatement => Grammar.expressionStatement nested
  | .block => Grammar.block nested
  | .identifier => Grammar.identifier
  | .integer => Grammar.integer
  | .boolean => Grammar.boolean
  | .unary => Grammar.unary nested
  | .grouped => Grammar.grouped nested
  | .conditional => Grammar.conditional nested
  | .function => Grammar.function nested
  | .parameter => Grammar.parameter
  | .argument => Grammar.whole nested

def Extension.parse (nested : Nested) (left : Node) : Extension → Parse Node
  | .binary => Grammar.binary nested left
  | .call => Grammar.call nested left

/-- Which form each kind of token begins, and which it extends an expression by. -/
structure Rules where
  opening : Kind → Option Opening
  extension : Kind → Option Extension

namespace Rules

/-- The rules of the language. -/
def standard : Rules where
  opening
    | .ident => some .identifier
    | .int => some .integer
    | .bang | .minus => some .unary
    | .trueKeyword | .falseKeyword => some .boolean
    | .lparen => some .grouped
    | .ifKeyword => some .conditional
    | .function => some .function
    | _ => none
  extension
    | .plus | .minus | .slash | .asterisk | .eq | .notEq | .lt | .gt => some .binary
    | .lparen => some .call
    | _ => none

/-- The rules with another form, or none, beginning at a kind. -/
def withOpening (rules : Rules) (kind : Kind) (opening : Option Opening) : Rules :=
  { rules with opening := fun other => if other = kind then opening else rules.opening other }

/-- The rules with another extension, or none, at a kind. -/
def withExtension (rules : Rules) (kind : Kind) (extension : Option Extension) : Rules :=
  { rules with extension := fun other => if other = kind then extension else rules.extension other }

end Rules

/-- The form that begins at the current token. -/
def opened (rules : Rules) (nested : Nested) : Parse Node := do
  let token ← current
  match rules.opening token.kind with
  | some opening => opening.parse nested
  | none =>
    complain (.noOpening token.kind) token
    fail

/-- Extend the expression on the left once, if the upcoming token binds more tightly than the strength
and is no semicolon. -/
def extendedRound (rules : Rules) (nested : Nested) (strength : Int) (left : Node) :
    Parse (Round Node Node) := do
  let next ← upcoming
  if next.kind = .semicolon || next.kind.strength ≤ strength then return .stop left
  else match rules.extension next.kind with
    | none => return .stop left
    | some extension =>
      advance
      let longer ← extension.parse nested left
      return .again longer id

/-- Extend the expression on the left as long as upcoming tokens bind more tightly than the strength. -/
def extended (rules : Rules) (nested : Nested) (strength : Int) (left : Node) : Parse Node :=
  iterate (extendedRound rules nested strength) left

/-- An expression that binds more tightly than the strength, with as many levels of expressions nested
in each other as given. -/
def expression (rules : Rules) : Nat → Nested
  | 0, _ => strike
  | levels + 1, strength => do
    let left ← opened rules (expression rules levels)
    extended rules (expression rules levels) strength left

end Mana.Grammar

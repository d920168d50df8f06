import Mana.Grammar.Expression

/-! The grammar as routines that call each other. Every routine is given by what it does over any parsers of the
routines that it calls, so that nothing is said about how deep the calls may go. -/
namespace Mana.Grammar

open Parse

/-- What calls each other in the parser: the forms of the language, and expressions of every strength. -/
inductive Routine where
  | opening (form : Opening)
  | extension (form : Extension) (left : Node)
  | expression (strength : Int)

/-- A parser for every routine. -/
abbrev Routines := Routine → Parse Node

/-- The routines of a parser of nested expressions. -/
def Nested.routines (nested : Nested) : Routines
  | .opening form => form.parse nested
  | .extension form left => form.parse nested left
  | .expression strength => nested strength

namespace Routines

variable (routines : Routines)

/-- Expressions as they are called. -/
def nested : Nested := fun strength => routines (.expression strength)

def statement : Parse Node := do
  let token ← current
  if token.kind = .letKeyword then routines (.opening .letStatement)
  else if token.kind = .returnKeyword then routines (.opening .returnStatement)
  else routines (.opening .expressionStatement)

def blockRound : Parse (Gain Node) := do
  let start ← position
  if start.current.kind = .rbrace then return .stop
  else if start.current.kind = .eof then
    complain (.expected .rbrace .eof) start.current
    fail
  else
    match ← attempt (routines (.opening .statement)) with
    | some statement =>
      advance
      return .item statement
    | none =>
      recover start [.rbrace]
      if (← current).kind = .rbrace then return .stop
      else
        advance
        return .nothing

def block : Parse Node := do
  let token ← current
  advance
  let statements ← collect routines.blockRound
  return .block (some token) statements

def programRound : Parse (Gain Node) := do
  let start ← position
  if start.current.kind = .eof then return .stop
  else
    let tooDeep : Parse (Option Node) := do
      complain .tooDeep start.current
      return none
    match ← (attempt (routines (.opening .statement))).orWhenStruck tooDeep with
    | some statement =>
      advance
      return .item statement
    | none =>
      recover start []
      advance
      return .nothing

def program : Parse Node := do
  let token ← current
  let statements ← collect routines.programRound
  return .program (some token) statements

def conditional : Parse Node := do
  let token ← current
  expect .lparen
  advance
  let condition ← whole routines.nested
  expect .rparen
  expect .lbrace
  let consequence ← routines (.opening .block)
  if (← upcoming).kind = .elseKeyword then
    advance
    expect .lbrace
    let alternative ← routines (.opening .block)
    return .conditional (some token) condition consequence (some alternative)
  else return .conditional (some token) condition consequence none

def function : Parse Node := do
  let token ← current
  expect .lparen
  let parameters ← series (routines (.opening .parameter)) .rparen
  expect .lbrace
  let body ← routines (.opening .block)
  return .function (some token) parameters body

def call (callee : Node) : Parse Node := do
  let token ← current
  let arguments ← series (routines (.opening .argument)) .rparen
  return .call (some token) callee arguments

def opened : Parse Node := do
  let token ← current
  match Rules.standard.opening token.kind with
  | some form => routines (.opening form)
  | none =>
    complain (.noOpening token.kind) token
    fail

def extendedRound (strength : Int) (left : Node) : Parse (Round Node Node) := do
  let next ← upcoming
  if next.kind = .semicolon || next.kind.strength ≤ strength then return .stop left
  else match Rules.standard.extension next.kind with
    | none => return .stop left
    | some form =>
      advance
      let longer ← routines (.extension form left)
      return .again longer id

def expression (strength : Int) : Parse Node := do
  let left ← routines.opened
  iterate (routines.extendedRound strength) left

end Routines

namespace Routine

/-- What a routine does, over the routines that it calls. -/
def body (routines : Routines) : Routine → Parse Node
  | .opening .program => routines.program
  | .opening .statement => routines.statement
  | .opening .letStatement => letStatement routines.nested
  | .opening .returnStatement => returnStatement routines.nested
  | .opening .expressionStatement => expressionStatement routines.nested
  | .opening .block => routines.block
  | .opening .identifier => identifier
  | .opening .integer => integer
  | .opening .boolean => boolean
  | .opening .unary => unary routines.nested
  | .opening .grouped => grouped routines.nested
  | .opening .conditional => routines.conditional
  | .opening .function => routines.function
  | .opening .parameter => parameter
  | .opening .argument => whole routines.nested
  | .extension .binary left => binary routines.nested left
  | .extension .call callee => routines.call callee
  | .expression strength => routines.expression strength

/-- The routines of the language over nested expressions are what they do over each other, other than expressions. -/
theorem body_routines (nested : Nested) (routine : Routine) (other : ∀ strength, routine ≠ .expression strength) :
    routine.body nested.routines = nested.routines routine := by
  cases routine with
  | opening form => cases form <;> rfl
  | extension form left => cases form <;> rfl
  | expression strength => exact absurd rfl (other strength)

/-- An expression takes one level from those nested in it. -/
theorem body_expression (levels : Nat) (strength : Int) :
    (Routine.expression strength).body (Nested.routines (Grammar.expression .standard levels)) =
      Grammar.expression .standard (levels + 1) strength := rfl

end Routine

end Mana.Grammar

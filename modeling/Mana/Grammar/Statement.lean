import Mana.Parse
import Mana.Node
import Mana.Level

/-! The grammar of statements, blocks and programs, over any parser of expressions. A statement that
fails is given up and its rest skipped, so that those after it are parsed all the same. -/
namespace Mana.Grammar

open Parse

/-- A parser of the expressions that bind more tightly than a strength. -/
abbrev Nested := Int → Parse Node

/-- Pass on to the upcoming token if it is of the wanted kind, and complain about it otherwise. -/
def expect (wanted : Kind) : Parse Unit := do
  let next ← upcoming
  if next.kind = wanted then advance
  else
    complain (.expected wanted next.kind) next
    fail

/-- Pass on to the upcoming token if it is a semicolon. -/
def acceptSemicolon : Parse Unit := do
  if (← upcoming).kind = .semicolon then advance else return ()

/-- An expression of any strength. -/
def whole (nested : Nested) : Parse Node := nested Level.lowest.strength

/-- `let`, a name, an equals sign and an expression. -/
def letStatement (nested : Nested) : Parse Node := do
  let token ← current
  expect .ident
  let name ← current
  expect .assign
  advance
  let value ← whole nested
  acceptSemicolon
  return .letStatement (some token) (.identifier (some name) name.literal) value

/-- `return` and an expression. -/
def returnStatement (nested : Nested) : Parse Node := do
  let token ← current
  advance
  let value ← whole nested
  acceptSemicolon
  return .returnStatement (some token) value

def expressionStatement (nested : Nested) : Parse Node := do
  let token ← current
  let expression ← whole nested
  acceptSemicolon
  return .expressionStatement (some token) expression

def statement (nested : Nested) : Parse Node := do
  let token ← current
  if token.kind = .letKeyword then letStatement nested
  else if token.kind = .returnKeyword then returnStatement nested
  else expressionStatement nested

/-- Move to the next semicolon, stop or end, which may be the current token. -/
def skip (stops : List Kind) : Parse Unit :=
  move (·.skippedTo fun kind => kind = .semicolon || kind = .eof || stops.contains kind)

/-- Give up the statement that begins at a position. One that is refused at its own first token loses
only that token, unless the token is a statement keyword; any other is skipped up to its end. -/
def recover (start : TokenStream) (stops : List Kind) : Parse Unit := do
  let here ← position
  if here.count = start.count && start.current.kind != .letKeyword &&
      start.current.kind != .returnKeyword then return ()
  else skip stops

/-- One statement of a block, good or given up, or the end of the block at its closing brace. -/
def blockRound (nested : Nested) : Parse (Gain Node) := do
  let start ← position
  if start.current.kind = .rbrace then return .stop
  else if start.current.kind = .eof then
    complain (.expected .rbrace .eof) start.current
    fail
  else
    match ← attempt (statement nested) with
    | some statement =>
      advance
      return .item statement
    | none =>
      recover start [.rbrace]
      if (← current).kind = .rbrace then return .stop
      else
        advance
        return .nothing

/-- The statements from an opening brace up to the matching closing one, which stays current. -/
def block (nested : Nested) : Parse Node := do
  let token ← current
  advance
  let statements ← collect (blockRound nested)
  return .block (some token) statements

/-- One statement of a program, good or given up, or the end of the program. A statement that nests
too deeply is given up with one complaint at its first token. -/
def programRound (nested : Nested) : Parse (Gain Node) := do
  let start ← position
  if start.current.kind = .eof then return .stop
  else
    let tooDeep : Parse (Option Node) := do
      complain .tooDeep start.current
      return none
    match ← (attempt (statement nested)).orWhenStruck tooDeep with
    | some statement =>
      advance
      return .item statement
    | none =>
      recover start []
      advance
      return .nothing

/-- The statements up to the end of the tokens. -/
def program (nested : Nested) : Parse Node := do
  let token ← current
  let statements ← collect (programRound nested)
  return .program (some token) statements

end Mana.Grammar

import Mana.Grammar.Expression

/-! Whole sources parsed: a program, complete only if there are no diagnostics. -/
namespace Mana

/-- What parsing leaves behind: the program, what is wrong with its source, and the tokens ahead. -/
structure Parsed where
  program : Node
  diagnostics : List Diagnostic
  rest : TokenStream

/-- How deeply expressions may be nested in each other before the call stack of the interpreter is taken
to run out. It holds about a thousand calls, of which a level takes two in parentheses, four as an
argument and five in the body of a function, so that one number stands for many depths. -/
def nestingLimit : Nat := 400

/-- The program of a token stream. A program always comes to an end of its own, so that the tree
without statements stands for no stream. -/
def Parsed.ofStream (limit : Nat) (stream : TokenStream) : Parsed :=
  match (Grammar.program (Grammar.expression .standard limit)).run stream with
  | ⟨.done program, rest, found⟩ => ⟨program, found, rest⟩
  | ⟨_, rest, found⟩ => ⟨.program none [], found, rest⟩

/-- Parse a source with the given limit on nesting. -/
def parseWithin (limit : Nat) (source : Text) : Parsed := .ofStream limit (scan source)

/-- Parse a source. -/
def parse (source : Text) : Parsed := parseWithin nestingLimit source

/-- Parse a source that has to be free of faults. -/
def parseStrictly (limit : Nat) (source : Text) : Except (List Diagnostic) Node :=
  let parsed := parseWithin limit source
  if parsed.diagnostics.isEmpty then .ok parsed.program else .error parsed.diagnostics

end Mana

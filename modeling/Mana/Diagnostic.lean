import Mana.Token
import Mana.Text.Numeral

/-! Diagnostics: what is wrong with a source and where. -/
namespace Mana

inductive Fault where
  /-- Another kind of token is needed here. -/
  | expected (wanted found : Kind)
  /-- No expression begins with this kind of token. -/
  | noOpening (found : Kind)
  /-- A literal is no integer, or one out of range. -/
  | badInteger (literal : Text)
  /-- A statement nests expressions beyond the limit. -/
  | tooDeep
  /-- A remark in the words of the caller. -/
  | remark (text : Text)
  deriving DecidableEq

def Fault.message : Fault → Text
  | .expected wanted found =>
    "expected next token to be ".toList ++ wanted.spelling ++ ", got ".toList ++ found.spelling ++
      " instead".toList
  | .noOpening found => "no prefix parse function for ".toList ++ found.spelling ++ " found".toList
  | .badInteger literal => "could not parse \"".toList ++ literal ++ "\" as integer".toList
  | .tooDeep => "expression nested too deeply".toList
  | .remark text => text

/-- A fault at the location of the token that shows it. -/
structure Diagnostic where
  fault : Fault
  location : Location
  deriving DecidableEq

namespace Diagnostic

def message (diagnostic : Diagnostic) : Text := diagnostic.fault.message

/-- The diagnostic as a line of a report. -/
def report (diagnostic : Diagnostic) : Text :=
  "line ".toList ++ decimal diagnostic.location.line ++ ", col ".toList ++
    decimal diagnostic.location.column ++ ": ".toList ++ diagnostic.message

def description (diagnostic : Diagnostic) : Text :=
  "ParseDiagnostic(".toList ++ quoted diagnostic.message ++ ", line=".toList ++
    decimal diagnostic.location.line ++ ", col=".toList ++ decimal diagnostic.location.column ++ [')']

/-- What a reader can tell diagnostics apart by. -/
def key (diagnostic : Diagnostic) : Text × Location := (diagnostic.message, diagnostic.location)

end Diagnostic

/-- The diagnostics of a failed parse in one line: how many there are, and the first. -/
def summary (diagnostics : List Diagnostic) : Text :=
  let count := diagnostics.length
  decimal count ++ (if count = 1 then " parse error: ".toList else " parse errors: ".toList) ++
    (diagnostics.head?.elim [] Diagnostic.message)

/-- A heading and one indented line for every message. -/
def errorListing (messages : List Text) : Text :=
  Text.closed ("ParseError:".toList :: messages.map ('\t' :: ·))

end Mana

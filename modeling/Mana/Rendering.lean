import Mana.Parsed
import Mana.Node.Source
import Mana.Node.Outline
import Mana.Outline.Json

/-! The forms in which a source is shown: as source text again, as a JSON document, or as a listing of
its tokens. -/
namespace Mana

inductive Format where
  | string | json | tokens
  deriving DecidableEq

namespace Format

def all : List Format := [string, json, tokens]

def name : Format → Text
  | string => "string".toList
  | json => "json".toList
  | tokens => "tokens".toList

def ofName? (name : Text) : Option Format := all.find? fun format => format.name == name

/-- The complaint about a name that no format has. -/
def unknownName (name : Text) : Text := "Unknown output format: ".toList ++ name

end Format

/-- A line of a token listing: place, kind and quoted text. -/
def Token.listed (token : Token) : Text :=
  decimal token.location.line ++ ":".toList ++ decimal token.location.column ++ ['\t'] ++
    token.kind.name ++ ['\t'] ++ quoted token.literal

/-- The tokens of a source, the end included, one on a line. -/
def tokenListing (source : Text) : Text :=
  Text.joined ['\n'] ((scan source).tokens.map Token.listed)

/-- A parsed program in a format. -/
def Node.rendered (program : Node) : Format → Text
  | .json => program.outline.json
  | _ => program.source

/-- A source in a format, with the given limit on nesting. Its tokens are shown even if it has faults. -/
def render (limit : Nat) (source : Text) : Format → Except (List Diagnostic) Text
  | .tokens => .ok (tokenListing source)
  | format => (parseStrictly limit source).map fun program => program.rendered format

end Mana

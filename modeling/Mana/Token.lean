import Mana.Kind

/-! Source locations and tokens. -/
namespace Mana

/-- A place in a source text, where lines and columns count from one. -/
structure Location where
  line : Int
  column : Int
  deriving DecidableEq

/-- Where a text begins. -/
def Location.start : Location := ⟨1, 1⟩

/-- The location after a character. A newline begins a line; any other character is one column. -/
def Location.after (location : Location) (c : Char) : Location :=
  if c = '\n' then ⟨location.line + 1, 1⟩ else ⟨location.line, location.column + 1⟩

/-- The location after a text. -/
def Location.past (location : Location) (text : Text) : Location := text.foldl Location.after location

@[simp] theorem Location.past_nil (location : Location) : location.past [] = location := rfl

@[simp] theorem Location.past_cons (location : Location) (c : Char) (rest : Text) :
    location.past (c :: rest) = (location.after c).past rest := rfl

theorem Location.past_append (location : Location) (first second : Text) :
    location.past (first ++ second) = (location.past first).past second := List.foldl_append

/-- A lexical unit: its kind, its exact source text, and the location of its first character. -/
structure Token where
  kind : Kind
  literal : Text
  location : Location
  deriving DecidableEq

/-- The short description of a token, without its location. -/
def Token.description (token : Token) : Text :=
  "Token(".toList ++ token.kind.name ++ ", ".toList ++ quoted token.literal ++ ")".toList

/-- An attempt to change a token, by the name of the field that it is about. -/
inductive Token.Change where
  | assign (field : Text)
  | remove (field : Text)

/-- Tokens never change: every attempt is refused, whatever the field. -/
def Token.Change.refusal : Token.Change → Text
  | .assign field => "Token is immutable; cannot set ".toList ++ quoted field
  | .remove field => "Token is immutable; cannot delete ".toList ++ quoted field

end Mana

import Mana.Outline

/-! The JSON document of an outline, indented by two spaces a level and written in ASCII. A record is
an object that gives its name under the key `node` and then its fields. -/
namespace Mana

/-- The UTF-16 units of a character. -/
def utf16Units (c : Char) : List Nat :=
  let n := c.toNat
  if n < 0x10000 then [n]
  else [0xd800 + (n - 0x10000) / 0x400, 0xdc00 + (n - 0x10000) % 0x400]

/-- One character inside a JSON string. -/
def jsonEscaped (c : Char) : Text :=
  if c = '\x22' || c = '\\' then ['\\', c]
  else if c = '\n' then ['\\', 'n']
  else if c = '\r' then ['\\', 'r']
  else if c = '\t' then ['\\', 't']
  else if c = '\x0c' then ['\\', 'f']
  else if c = '\x08' then ['\\', 'b']
  else if 0x20 ≤ c.toNat && c.toNat < 0x7f then [c]
  else (utf16Units c).flatMap fun unit => '\\' :: 'u' :: hexadecimal 4 unit

/-- A JSON string. -/
def jsonQuoted (text : Text) : Text := ['\x22'] ++ text.flatMap jsonEscaped ++ ['\x22']

namespace Outline

/-- A line break and the indentation of a depth. -/
def lineBreak (depth : Nat) : Text := '\n' :: List.replicate (2 * depth) ' '

/-- The members of a JSON array or object between its brackets, each on lines of its own. -/
def bracketed (opening closing : Char) (depth : Nat) (members : List Text) : Text :=
  if members.isEmpty then [opening, closing]
  else [opening] ++ lineBreak (depth + 1) ++ Text.joined (',' :: lineBreak (depth + 1)) members ++
    lineBreak depth ++ [closing]

mutual

/-- The JSON text of an outline that stands at an indentation depth. -/
def jsonAt (depth : Nat) : Outline → Text
  | absent => "null".toList
  | flag true => "true".toList
  | flag false => "false".toList
  | number value => decimal value
  | words value => jsonQuoted value
  | series items => bracketed '[' ']' depth (jsonItems (depth + 1) items)
  | record name fields => bracketed '\x7b' '\x7d' depth
      ((jsonQuoted "node".toList ++ ": ".toList ++ jsonQuoted name) :: jsonFields (depth + 1) fields)

def jsonItems (depth : Nat) : List Outline → List Text
  | [] => []
  | item :: rest => item.jsonAt depth :: jsonItems depth rest

def jsonFields (depth : Nat) : List (Text × Outline) → List Text
  | [] => []
  | (name, value) :: rest =>
    (jsonQuoted name ++ ": ".toList ++ value.jsonAt depth) :: jsonFields depth rest

end

/-- The JSON document of an outline. -/
def json (outline : Outline) : Text := outline.jsonAt 0

end Outline

end Mana

import Mana.Text.Numeral
import Mana.Text.Quoted

/-! Outlines: the named parts of a value as a tree. An outline has two written forms, a description on
one line and a JSON document. -/
namespace Mana

inductive Outline where
  | absent
  | flag (value : Bool)
  | number (value : Int)
  | words (value : Text)
  | series (items : List Outline)
  | record (name : Text) (fields : List (Text × Outline))

namespace Outline

mutual

/-- The description of an outline: records by name with their fields in parentheses. -/
def description : Outline → Text
  | absent => "None".toList
  | flag true => "True".toList
  | flag false => "False".toList
  | number value => decimal value
  | words value => quoted value
  | series items => ['['] ++ Text.joined ", ".toList (descriptions items) ++ [']']
  | record name fields =>
    name ++ ['('] ++ Text.joined ", ".toList (fieldDescriptions fields) ++ [')']

def descriptions : List Outline → List Text
  | [] => []
  | item :: rest => item.description :: descriptions rest

def fieldDescriptions : List (Text × Outline) → List Text
  | [] => []
  | (name, value) :: rest => (name ++ ['='] ++ value.description) :: fieldDescriptions rest

end

mutual

/-- The outline with numbers for its truth values. -/
def leveled : Outline → Outline
  | flag value => .number (if value then 1 else 0)
  | series items => .series (leveledAll items)
  | record name fields => .record name (leveledFields fields)
  | outline => outline

def leveledAll : List Outline → List Outline
  | [] => []
  | item :: rest => item.leveled :: leveledAll rest

def leveledFields : List (Text × Outline) → List (Text × Outline)
  | [] => []
  | (name, value) :: rest => (name, value.leveled) :: leveledFields rest

end

/-- Outlines are alike if they are the same but for truth values, each of which equals a number. -/
def Alike (outline other : Outline) : Prop := outline.leveled = other.leveled

end Outline

end Mana

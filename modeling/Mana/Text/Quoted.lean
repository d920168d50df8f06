import Mana.Text.Printable

/-! Quoted text, as messages and token listings show it: one line, between quotes, with every quote,
backslash and unprintable character escaped. -/
namespace Mana

/-- The hexadecimal digits of a number in lower case, padded with zeros to the width. -/
def hexadecimal (width n : Nat) : Text := (Nat.toDigits 16 n).leftpad width '0'

namespace Quoted

/-- The quote around a text: the double one when the text holds only the single one. -/
def mark (text : Text) : Char :=
  if text.contains '\x27' && !text.contains '\x22' then '\x22' else '\x27'

/-- One character inside the given quotes. -/
def escaped (mark c : Char) : Text :=
  if c = mark || c = '\\' then ['\\', c]
  else if c = '\n' then ['\\', 'n']
  else if c = '\r' then ['\\', 'r']
  else if c = '\t' then ['\\', 't']
  else if isPrintable c then [c]
  else if c.toNat < 0x100 then '\\' :: 'x' :: hexadecimal 2 c.toNat
  else if c.toNat < 0x10000 then '\\' :: 'u' :: hexadecimal 4 c.toNat
  else '\\' :: 'U' :: hexadecimal 8 c.toNat

end Quoted

/-- The quoted form of a text. -/
def quoted (text : Text) : Text :=
  let mark := Quoted.mark text
  mark :: text.flatMap (Quoted.escaped mark) ++ [mark]

end Mana

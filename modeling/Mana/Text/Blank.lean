import Mana.Text

/-! Blank characters: the white space of Unicode and the four ASCII information separators. -/
namespace Mana

/-- The blank code points. -/
def blanks : List Nat :=
  [0x9, 0xa, 0xb, 0xc, 0xd, 0x1c, 0x1d, 0x1e, 0x1f, 0x20, 0x85, 0xa0, 0x1680, 0x2000, 0x2001,
   0x2002, 0x2003, 0x2004, 0x2005, 0x2006, 0x2007, 0x2008, 0x2009, 0x200a, 0x2028, 0x2029, 0x202f,
   0x205f, 0x3000]

def isBlank (c : Char) : Bool := blanks.contains c.toNat

/-- The text without the blanks at its two ends. -/
def Text.stripped (text : Text) : Text :=
  (((text.dropWhile isBlank).reverse).dropWhile isBlank).reverse

end Mana

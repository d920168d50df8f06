import Mana.Token

/-! Lexemes: how the longest token text at the front of an input is found and classified. -/
namespace Mana

/-- The characters that separate tokens: space, tab, newline and carriage return. -/
def isSpace (c : Char) : Bool := c = ' ' || c = '\t' || c = '\n' || c = '\r'

/-- The characters of words: ASCII letters and the underscore. -/
def isLetter (c : Char) : Bool := c.isAlpha || c = '_'

/-- The characters of integers: ASCII digits. -/
def isDigit (c : Char) : Bool := c.isDigit

/-- The character that ends every input before its end. -/
def nul : Char := '\x00'

/-- The kind and text of the token that begins with the first character. Operators of two characters
come before those of one, words and integers are as long as possible, and a character that begins no
token is an illegal token by itself. -/
def lexeme (first : Char) (rest : Text) : Kind × Text :=
  if first = '=' then
    if rest.head? = some '=' then (.eq, ['=', '=']) else (.assign, ['='])
  else if first = '!' then
    if rest.head? = some '=' then (.notEq, ['!', '=']) else (.bang, ['!'])
  else match Kind.ofSymbol? first with
    | some kind => (kind, [first])
    | none =>
      if isLetter first then
        let word := first :: rest.takeWhile isLetter
        (Kind.ofWord word, word)
      else if isDigit first then (.int, first :: rest.takeWhile isDigit)
      else (.illegal, [first])

end Mana

import Mana.Text.Quoted

/-! The closed set of token kinds, and the two tables that assign a kind to a word or a symbol. -/
namespace Mana

inductive Kind where
  | illegal | eof | ident | int
  | assign | plus | minus | bang | asterisk | slash | lt | gt | eq | notEq
  | comma | semicolon | lparen | rparen | lbrace | rbrace
  | function | letKeyword | ifKeyword | elseKeyword | trueKeyword | falseKeyword | returnKeyword
  deriving DecidableEq

namespace Kind

/-- Every kind, in the order of declaration. -/
def all : List Kind :=
  [illegal, eof, ident, int, assign, plus, minus, bang, asterisk, slash, lt, gt, eq, notEq, comma,
   semicolon, lparen, rparen, lbrace, rbrace, function, letKeyword, ifKeyword, elseKeyword,
   trueKeyword, falseKeyword, returnKeyword]

theorem mem_all (kind : Kind) : kind ∈ all := by cases kind <;> decide

/-- The name of a kind, as listings and descriptions show it. -/
def name : Kind → Text
  | illegal => "ILLEGAL".toList
  | eof => "EOF".toList
  | ident => "IDENT".toList
  | int => "INT".toList
  | assign => "ASSIGN".toList
  | plus => "PLUS".toList
  | minus => "MINUS".toList
  | bang => "BANG".toList
  | asterisk => "ASTERISK".toList
  | slash => "SLASH".toList
  | lt => "LT".toList
  | gt => "GT".toList
  | eq => "EQ".toList
  | notEq => "NOT_EQ".toList
  | comma => "COMMA".toList
  | semicolon => "SEMICOLON".toList
  | lparen => "LPAREN".toList
  | rparen => "RPAREN".toList
  | lbrace => "LBRACE".toList
  | rbrace => "RBRACE".toList
  | function => "FUNCTION".toList
  | letKeyword => "LET".toList
  | ifKeyword => "IF".toList
  | elseKeyword => "ELSE".toList
  | trueKeyword => "TRUE".toList
  | falseKeyword => "FALSE".toList
  | returnKeyword => "RETURN".toList

/-- The spelling of a kind in messages: a symbol stands for itself, any other kind for its name. -/
def spelling : Kind → Text
  | assign => "=".toList
  | plus => "+".toList
  | minus => "-".toList
  | bang => "!".toList
  | asterisk => "*".toList
  | slash => "/".toList
  | lt => "<".toList
  | gt => ">".toList
  | eq => "==".toList
  | notEq => "!=".toList
  | comma => ",".toList
  | semicolon => ";".toList
  | lparen => "(".toList
  | rparen => ")".toList
  | lbrace => ['\x7b']
  | rbrace => ['\x7d']
  | kind => kind.name

def ofName? (name : Text) : Option Kind := all.find? fun kind => kind.name == name

def ofSpelling? (spelling : Text) : Option Kind := all.find? fun kind => kind.spelling == spelling

theorem ofName?_name (kind : Kind) : ofName? kind.name = some kind := by
  have each : ∀ kind ∈ all, ofName? kind.name = some kind := by decide +kernel
  exact each kind kind.mem_all

theorem ofSpelling?_spelling (kind : Kind) : ofSpelling? kind.spelling = some kind := by
  have each : ∀ kind ∈ all, ofSpelling? kind.spelling = some kind := by decide +kernel
  exact each kind kind.mem_all

/-- The reserved words. -/
def keywords : List (Text × Kind) :=
  [("fn".toList, function), ("let".toList, letKeyword), ("if".toList, ifKeyword),
   ("else".toList, elseKeyword), ("true".toList, trueKeyword), ("false".toList, falseKeyword),
   ("return".toList, returnKeyword)]

/-- The symbols that are a token by themselves. Equals sign and exclamation mark are not among
them, because either may begin a longer operator. -/
def symbols : List (Char × Kind) :=
  [('+', plus), ('-', minus), ('*', asterisk), ('/', slash), ('<', lt), ('>', gt), (',', comma),
   (';', semicolon), ('(', lparen), (')', rparen), ('\x7b', lbrace), ('\x7d', rbrace)]

/-- The kind of a word: reserved, or an identifier. -/
def ofWord (word : Text) : Kind := (keywords.lookup word).getD ident

def ofSymbol? (symbol : Char) : Option Kind := symbols.lookup symbol

end Kind

/-- The complaint about a spelling that no kind has. -/
def Kind.unknownSpelling (spelling : Text) : Text :=
  quoted spelling ++ " is not a valid TokenType".toList

/-- The spelling of a kind at the right of a column as wide as given. -/
def Kind.aligned (width : Nat) (kind : Kind) : Text := kind.spelling.leftpad width ' '

end Mana

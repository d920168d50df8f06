import Mana.Rendering

/-! The options of the command line, and its usage and help texts. -/
namespace Mana.CommandLine

inductive Flag where
  | help | string | format | out | repl | tokens | ast | verbose
  deriving DecidableEq

namespace Flag

/-- Every option, in the order of the help text. -/
def all : List Flag := [help, string, format, out, repl, tokens, ast, verbose]

/-- The long spelling. -/
def long : Flag → Text
  | help => "--help".toList
  | string => "--string".toList
  | format => "--format".toList
  | out => "--out".toList
  | repl => "--repl".toList
  | tokens => "--tokens".toList
  | ast => "--ast".toList
  | verbose => "--verbose".toList

/-- The letter of the short spelling. -/
def letter? : Flag → Option Char
  | help => some 'h'
  | string => some 's'
  | format => some 'f'
  | out => some 'o'
  | verbose => some 'v'
  | repl | tokens | ast => none

/-- Whether a value belongs to the option. -/
def takesValue : Flag → Bool
  | format | out => true
  | _ => false

/-- All spellings, as complaints name an option. -/
def spellings (flag : Flag) : Text :=
  match flag.letter? with
  | some letter => ['-', letter, '/'] ++ flag.long
  | none => flag.long

def ofLetter? (letter : Char) : Option Flag := all.find? fun flag => flag.letter? = some letter

def ofLong? (text : Text) : Option Flag := all.find? fun flag => flag.long == text

end Flag

/-- The usage, without the last line break. -/
def usage : List Text :=
  ["usage: mana [-h] [-s] [-f \x7bstring,json,tokens\x7d] [-o OUTFILE] [--repl]".toList,
   "            [--tokens] [--ast] [-v]".toList,
   "            [source]".toList]

/-- The help text. -/
def help : Text := Text.closed <| usage ++
  ["".toList,
   "positional arguments:".toList,
   "  source                Filename or raw source (with -s)".toList,
   "".toList,
   "options:".toList,
   "  -h, --help            show this help message and exit".toList,
   "  -s, --string          Interpret source as literal string".toList,
   "  -f \x7bstring,json,tokens\x7d, --format \x7bstring,json,tokens\x7d".toList,
   "                        Output form (default: string)".toList,
   "  -o OUTFILE, --out OUTFILE".toList,
   "                        Output to file".toList,
   "  --repl                Launch interactive REPL instead".toList,
   "  --tokens              Start the REPL in tokens mode".toList,
   "  --ast                 Start the REPL in verbose (AST dump) mode".toList,
   "  -v, --verbose         Enable debug logging".toList]

end Mana.CommandLine

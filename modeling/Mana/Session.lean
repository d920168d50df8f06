import Mana.Stack
import Mana.Text.Blank

/-! Interactive sessions: every line is a command, or a source that is answered with its program or
its faults. -/
namespace Mana.Session

/-- The text that asks for a line. -/
def prompt : Text := ">>> ".toList

/-- The name of the language in block letters. -/
def banner : List Text :=
  ["".toList,
   "███╗░░░███╗░█████╗░███╗░░██╗░█████╗░".toList,
   "████╗░████║██╔══██╗████╗░██║██╔══██╗".toList,
   "██╔████╔██║███████║██╔██╗██║███████║".toList,
   "██║╚██╔╝██║██╔══██║██║╚████║██╔══██║".toList,
   "██║░╚═╝░██║██║░░██║██║░╚███║██║░░██║".toList,
   "╚═╝░░░░░╚═╝╚═╝░░╚═╝╚═╝░░╚══╝╚═╝░░╚═╝".toList,
   "".toList]

/-- The welcome to a user by login name, or to anyone. -/
def welcome (user : Option Text) : Text :=
  Text.closed (("Hello ".toList ++ user.getD "there".toList ++ "! Welcome to Mana REPL!".toList) ::
    banner ++ ["Type 'exit' or 'quit' to leave.".toList])

def farewell : Text := "Exiting Mana REPL.".toList

/-- What is shown besides the answers: the tokens of a line, and the JSON document of its program. -/
structure Modes where
  tokens : Bool
  verbose : Bool
  deriving DecidableEq

/-- What a line asks for. -/
inductive Request where
  | leave
  | nothing
  | toggleTokens
  | toggleVerbose
  | show (source : Text)
  deriving DecidableEq

/-- The request of a line, whose blanks at both ends do not count. -/
def Request.ofLine (line : Text) : Request :=
  let text := line.stripped
  if text = "exit".toList || text = "quit".toList then .leave
  else if text.isEmpty then .nothing
  else if text = "tokens-mode".toList then .toggleTokens
  else if text = "verbose-mode".toList then .toggleVerbose
  else .show text

/-- The modes after a request. -/
def Modes.after (modes : Modes) : Request → Modes
  | .toggleTokens => { modes with tokens := !modes.tokens }
  | .toggleVerbose => { modes with verbose := !modes.verbose }
  | _ => modes

/-- The announcement of a mode. -/
def announcement (mode : Text) (on : Bool) : Text :=
  "[mode] >>> ".toList ++ mode ++ " mode ".toList ++ (if on then "ON".toList else "OFF".toList)

/-- The tokens of a source, the end included, one on a line. -/
def tokenLines (source : Text) : Text :=
  Text.closed ((scan source).tokens.map fun token => "[token] >>> ".toList ++ token.description)

/-- What a request is replied, and whether the interpreter crashed on the way. -/
structure Reply where
  printed : Text
  crashed : Bool
  deriving DecidableEq

namespace Reply

def completed (printed : Text) : Reply := ⟨printed, false⟩

/-- A reply after something else is printed. -/
def behind (reply : Reply) (printed : Text) : Reply := { reply with printed := printed ++ reply.printed }

/-- Texts printed line by line, up to one that there is no room for. -/
def ofTexts : List (Option Text) → Reply
  | [] => completed []
  | none :: _ => ⟨[], true⟩
  | some text :: rest => (ofTexts rest).behind (Text.closed [text])

end Reply

/-- The formats in which a program is shown. -/
def formats (verbose : Bool) : List Format := if verbose then [.json, .string] else [.string]

/-- The answer to a source: its faults, or its program. -/
def answer (stack : Stack) (verbose : Bool) (source : Text) : Reply :=
  match parseStrictly stack.nesting source with
  | .error diagnostics => .completed (errorListing (diagnostics.map Diagnostic.message))
  | .ok program => .ofTexts ((formats verbose).map (stack.shown? program))

/-- The reply to a request, in the modes before it. -/
def Request.reply (stack : Stack) (modes : Modes) : Request → Reply
  | .leave => .completed (Text.closed [farewell])
  | .nothing => .completed []
  | .toggleTokens => .completed (Text.closed [announcement "Tokens".toList !modes.tokens])
  | .toggleVerbose => .completed (Text.closed [announcement "Verbose".toList !modes.verbose])
  | .show source =>
    (answer stack modes.verbose source).behind (if modes.tokens then tokenLines source else [])

/-- All that a session prints, cut where it asks for a line, and whether it crashed in the end. -/
structure Transcript where
  printed : List Text
  crashed : Bool
  deriving DecidableEq

def Transcript.behind (transcript : Transcript) (printed : Text) : Transcript :=
  { transcript with printed := printed :: transcript.printed }

/-- The lines of a session replied to one after the other, up to the request to leave or a crash, or
with the farewell at the end of the input. -/
def replies (stack : Stack) (modes : Modes) : List Text → Transcript
  | [] => ⟨[Text.closed [[], farewell]], false⟩
  | line :: rest =>
    let request := Request.ofLine line
    let reply := request.reply stack modes
    if request = .leave || reply.crashed then ⟨[reply.printed], reply.crashed⟩
    else (replies stack (modes.after request) rest).behind reply.printed

/-- A whole session. -/
def run (stack : Stack) (user : Option Text) (modes : Modes) (lines : List Text) : Transcript :=
  (replies stack modes lines).behind (welcome user)

/-- The diagnostics of the sources among the lines, up to the request to leave or a crash. -/
def diagnostics (stack : Stack) (modes : Modes) : List Text → List Diagnostic
  | [] => []
  | line :: rest =>
    let request := Request.ofLine line
    let found := match request with
      | .show source => (parseWithin stack.nesting source).diagnostics
      | _ => []
    if request = .leave || (request.reply stack modes).crashed then found
    else found ++ diagnostics stack (modes.after request) rest

end Mana.Session

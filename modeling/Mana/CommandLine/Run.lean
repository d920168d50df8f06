import Mana.CommandLine.Arguments
import Mana.CommandLine.Files
import Mana.Session
import Mana.Text.LineEnding
import Mana.Text.Utf8

/-! Running a command line: what it prints, how it ends, and which file it writes. -/
namespace Mana.CommandLine

/-- Why a run cannot go on, besides faults in the source and a crash. -/
inductive Trouble where
  | extension
  | noFormat
  | closed (name : Text) (obstacle : Obstacle)
  | encoding (fault : Utf8.Fault)
  | unwritten (obstacle : Obstacle)

def Trouble.message : Trouble → Text
  | .extension => "Only .mana files are supported.".toList
  | .noFormat => Format.unknownName "[]".toList
  | .closed name obstacle => obstacle.message (some name)
  | .encoding fault => fault.message
  | .unwritten obstacle => obstacle.message none

/-- Why a run has no output. -/
inductive Failure where
  | faults (diagnostics : List Diagnostic)
  | crashed
  | stopped (trouble : Trouble)

/-- The last line of the report on a crash. The others name the places in the interpreter. -/
def crashReport : Text := Text.closed ["RecursionError: ".toList ++ Stack.exhausted]

/-- The report of a failure. -/
def Failure.report : Failure → Text
  | .faults diagnostics => errorListing (diagnostics.map Diagnostic.report)
  | .crashed => crashReport
  | .stopped trouble => Text.closed ["mana: ".toList ++ trouble.message]

/-- How a run ends. -/
inductive Status where
  | success | faulty | crashed | refused
  deriving DecidableEq

def Status.code : Status → Nat
  | .success => 0
  | .faulty | .crashed => 1
  | .refused => 2

def Failure.status : Failure → Status
  | .faults _ => .faulty
  | .crashed => .crashed
  | .stopped _ => .refused

def Failure.ofUnrendered : Unrendered → Failure
  | .faults diagnostics => .faults diagnostics
  | .exhausted => .crashed

/-- What is logged on the way. -/
inductive Event where
  | reading (name : Text)
  | fault (diagnostic : Diagnostic)
  | parsed (statements : Nat)
  | wrote (name : Text)

/-- A line of the log: its level, its logger, and the event. -/
def Event.line : Event → Text
  | .reading name => "DEBUG mana.mana_cli: reading ".toList ++ name
  | .fault diagnostic =>
    "DEBUG mana.mana_parser: parse error at ".toList ++ decimal diagnostic.location.line ++ [':'] ++
      decimal diagnostic.location.column ++ ": ".toList ++ diagnostic.message
  | .parsed statements =>
    "DEBUG mana.mana_cli: parsed ".toList ++ decimal statements ++ " top-level statement(s)".toList
  | .wrote name => "DEBUG mana.mana_cli: wrote ".toList ++ name

/-- What a run prints, and how it ends. -/
structure Report where
  status : Status
  stdout : Text
  stderr : Text
  deriving DecidableEq

/-- The report on a refused argument list. -/
def Refusal.report (refusal : Refusal) : Report :=
  ⟨.refused, [], Text.closed (usage ++ ["mana: error: ".toList ++ refusal.message])⟩

/-- How far a run has come before it prints or writes: the events so far, and its output. -/
structure Draft where
  events : List Event
  output : Except Failure Text

/-- What accepted settings ask for. -/
inductive Task where
  | session
  | source (text : Text)
  | file (name : Text)

/-- The extension that the name of every source file has. -/
def extension : Text := ".mana".toList

namespace Settings

/-- A session is held if it is asked for or there is no source. -/
def task (settings : Settings) : Task :=
  match settings.repl, settings.source with
  | false, some source => if settings.literal then .source source else .file source
  | _, _ => .session

/-- The modes in which a session starts. -/
def modes (settings : Settings) : Session.Modes := ⟨settings.tokens, settings.ast⟩

/-- The log of a run, which is empty unless it is asked for. -/
def log (settings : Settings) (events : List Event) : Text :=
  if settings.verbose then Text.closed (events.map Event.line) else []

/-- The log of the sources among the lines of a session. -/
def sessionLog (settings : Settings) (stack : Stack) (modes : Session.Modes) (lines : List Text) : Text :=
  settings.log ((Session.diagnostics stack modes lines).map .fault)

/-- The file that the output goes to, if any. An empty name means none. -/
def target (settings : Settings) : Option Text := settings.out.filter (!·.isEmpty)

/-- Show a source, after the events so far. -/
def draft (settings : Settings) (stack : Stack) (events : List Event) (source : Text) : Draft :=
  match settings.format with
  | none => ⟨events, .error (.stopped .noFormat)⟩
  | some format => match format, stack.render source format with
    | .tokens, result => ⟨events, result.mapError .ofUnrendered⟩
    | _, .error (.faults diagnostics) =>
      ⟨events ++ diagnostics.map .fault, .error (.faults diagnostics)⟩
    | _, result => ⟨events ++ [.parsed (parseWithin stack.nesting source).program.statements.length],
        result.mapError .ofUnrendered⟩

/-- Show a source file, as far as it can be read. -/
def draftFile (settings : Settings) (stack : Stack) (name : Text)
    (content : Except Obstacle (List UInt8)) : Draft :=
  let stopped (trouble : Trouble) : Draft := ⟨[.reading name], .error (.stopped trouble)⟩
  match content with
  | .error obstacle => stopped (.closed name obstacle)
  | .ok bytes => match Utf8.decode bytes with
    | .error fault => stopped (.encoding fault)
    | .ok text => settings.draft stack [.reading name] text.withNewlines

/-- The report on a failure, after the events so far. -/
def failed (settings : Settings) (events : List Event) (failure : Failure) : Report :=
  ⟨failure.status, [], settings.log events ++ failure.report⟩

variable {m : Type → Type} [Monad m]

/-- Write a text to the file with a name. -/
def writeTo (settings : Settings) (files : Files m) (events : List Event) (name output : Text) : m Report := do
  match ← files.create name with
  | .error obstacle => return settings.failed events (.stopped (.closed name obstacle))
  | .ok handle => match ← files.write handle (Utf8.encode output) with
    | .error obstacle => return settings.failed events (.stopped (.unwritten obstacle))
    | .ok () => return ⟨.success, [], settings.log (events ++ [.wrote name])⟩

/-- Print or write what a draft has come to. -/
def deliver (settings : Settings) (files : Files m) (draft : Draft) : m Report :=
  match draft.output, settings.target with
  | .error failure, _ => return settings.failed draft.events failure
  | .ok output, none => return ⟨.success, Text.closed [output], settings.log draft.events⟩
  | .ok output, some name => settings.writeTo files draft.events name (Text.closed [output])

/-- Show the source file with a name. -/
def runFile (settings : Settings) (files : Files m) (stack : Stack) (name : Text) : m Report := do
  if extension.isSuffixOf name then
    settings.deliver files (settings.draftFile stack name (← files.read name))
  else return settings.failed [] (.stopped .extension)

/-- Hold a session with a user who types the given lines. -/
def runSession (settings : Settings) (stack : Stack) (user : Option Text) (lines : List Text) : Report :=
  let transcript := Session.run stack user settings.modes lines
  let printed := Text.joined Session.prompt transcript.printed
  let log := settings.sessionLog stack settings.modes lines
  if transcript.crashed then ⟨.crashed, printed, log ++ crashReport⟩ else ⟨.success, printed, log⟩

end Settings

/-- Run an argument list, for a user who types the given lines. -/
def run {m : Type → Type} [Monad m] (files : Files m) (stack : Stack) (arguments : List Text)
    (user : Option Text) (lines : List Text) : m Report :=
  match read arguments with
  | .help => return ⟨.success, help, []⟩
  | .refused refusal => return refusal.report
  | .accepted settings =>
    match settings.task with
    | .session => return settings.runSession stack user lines
    | .source text => settings.deliver files (settings.draft stack [] text)
    | .file name => settings.runFile files stack name

end Mana.CommandLine

import Mana.CommandLine.Run

/-! The command line program. The terminal and the files are read and written here; what a run comes to
is decided elsewhere. -/
namespace Mana.CommandLine

/-- A text as a string of the runtime. -/
private def written (text : Text) : String := String.ofList text

/-- Write a text to a stream at once. -/
private def put (stream : IO.FS.Stream) (text : Text) : IO Unit := do
  stream.putStr (written text)
  stream.flush

/-- Print a report, and end as it says. -/
private def finish (report : Report) : IO Status := do
  put (← IO.getStdout) report.stdout
  put (← IO.getStderr) report.stderr
  return report.status

/-- The obstacle that a failed access to a file shows. -/
private def obstacleOf : IO.Error → Obstacle
  | .otherError code reason | .resourceBusy code reason | .resourceVanished code reason
  | .unsupportedOperation code reason | .hardwareFault code reason | .unsatisfiedConstraints code reason
  | .illegalOperation code reason | .protocolError code reason | .timeExpired code reason
  | .alreadyExists _ code reason | .interrupted _ code reason | .noFileOrDirectory _ code reason
  | .invalidArgument _ code reason | .permissionDenied _ code reason | .resourceExhausted _ code reason
  | .inappropriateType _ code reason | .noSuchThing _ code reason => .system code.toNat reason.toList
  | .unexpectedEof => .system 5 "Input/output error".toList
  | .userError reason => .system 5 reason.toList

/-- Access a file, and find the obstacle if there is one. -/
private def access (action : IO α) : IO (Except Obstacle α) := do
  return (← action.toBaseIO).mapError obstacleOf

/-- Access a file by a name, which ends at no null character. -/
private def named (name : Text) (action : String → IO α) : IO (Except Obstacle α) := do
  if name.contains '\x00' then return .error .nul else access (action (written name))

/-- The files of the machine. -/
private def machine : Files IO where
  Handle := IO.FS.Handle
  read name := named name fun path => ByteArray.toList <$> IO.FS.readBinFile path
  create name := named name fun path => IO.FS.Handle.mk path .write
  write handle bytes := access do
    handle.write ⟨bytes.toArray⟩
    handle.flush

/-- Hold a session with the user, line by line. -/
private partial def converse (settings : Settings) (stack : Stack) (modes : Session.Modes) : IO Status := do
  put (← IO.getStdout) Session.prompt
  let line ← (← IO.getStdin).getLine
  if line.isEmpty then finish ⟨.success, Text.closed [[], Session.farewell], []⟩
  else
    let text := line.toList
    let request := Session.Request.ofLine text
    let reply := request.reply stack modes
    let log := settings.sessionLog stack modes [text]
    if reply.crashed then finish ⟨.crashed, reply.printed, log ++ crashReport⟩
    else
      let status ← finish ⟨.success, reply.printed, log⟩
      if request = .leave then return status else converse settings stack (modes.after request)

/-- The login name of the user, from the environment. -/
private def loginName : IO (Option Text) := do
  for name in ["LOGNAME", "USER", "LNAME", "USERNAME"] do
    if let some user ← IO.getEnv name then
      unless user.isEmpty do return some user.toList
  return none

/-- Run an argument list. -/
private def perform (arguments : List Text) : IO Status := do
  match read arguments with
  | .help => finish ⟨.success, help, []⟩
  | .refused refusal => finish refusal.report
  | .accepted settings =>
    match settings.task with
    | .session =>
      put (← IO.getStdout) (Session.welcome (← loginName))
      converse settings .standard settings.modes
    | .source text => finish (← settings.deliver machine (settings.draft .standard [] text))
    | .file name => finish (← settings.runFile machine .standard name)

end Mana.CommandLine

def main (arguments : List String) : IO UInt32 := do
  let status ← Mana.CommandLine.perform (arguments.map String.toList)
  return status.code.toUInt32

import Mana.Parsed

/-! A parser driven by hand. Commands run single rules of the grammar at the current token, look at the
tokens, record faults, or change the rules. -/
namespace Mana

/-- A parser between two commands: its rules, the tokens ahead, the tokens at the last mark, and the
diagnostics recorded so far. -/
structure Stepper where
  rules : Grammar.Rules
  ahead : TokenStream
  mark : TokenStream
  recorded : List Diagnostic

namespace Stepper

/-- A parser at the start of a source, which is marked. -/
def start (source : Text) : Stepper :=
  let stream := scan source
  ⟨.standard, stream, stream, []⟩

/-- The tokens of the window. -/
inductive Slot where
  | current | upcoming

def Slot.token : Slot → Parse Token
  | .current => Parse.current
  | .upcoming => Parse.upcoming

inductive Command where
  | advance
  | upcomingStrength
  | currentStrength
  | begin (opening : Grammar.Opening)
  | extend (extension : Grammar.Extension) (left : Node)
  | expression (strength : Int)
  | series (item : Grammar.Opening) (closing : Kind)
  | currentIs (kind : Kind)
  | upcomingIs (kind : Kind)
  | expect (kind : Kind)
  | faultUpcoming (wanted : Kind)
  | faultOpening (kind : Kind)
  | remark (text : Text) (slot : Slot)
  | messages
  | mark
  | recover (stops : List Kind)
  | skip (stops : List Kind)
  | setOpening (kind : Kind) (opening : Option Grammar.Opening)
  | setExtension (kind : Kind) (extension : Option Grammar.Extension)

/-- What a command has to tell. A rule that fails tells nothing. -/
inductive Answer where
  | nothing
  | flag (value : Bool)
  | strength (value : Int)
  | messages (texts : List Text)
  | tree (node : Node)
  | trees (nodes : List Node)

open Parse in
/-- What a command does at the current token. -/
def Command.step (limit : Nat) (stepper : Stepper) : Command → Parse Answer
  | .advance => do
    Parse.advance
    return .nothing
  | .upcomingStrength => return .strength (← upcoming).kind.strength
  | .currentStrength => return .strength (← current).kind.strength
  | .begin opening => return .tree (← opening.parse (Grammar.expression stepper.rules limit))
  | .extend extension left =>
    return .tree (← extension.parse (Grammar.expression stepper.rules limit) left)
  | .expression strength => return .tree (← Grammar.expression stepper.rules limit strength)
  | .series item closing =>
    return .trees (← Grammar.series (item.parse (Grammar.expression stepper.rules limit)) closing)
  | .currentIs kind => return .flag ((← current).kind = kind)
  | .upcomingIs kind => return .flag ((← upcoming).kind = kind)
  | .expect kind => return .flag (← attempt (Grammar.expect kind)).isSome
  | .faultUpcoming wanted => do
    let next ← upcoming
    complain (.expected wanted next.kind) next
    return .nothing
  | .faultOpening kind => do
    complain (.noOpening kind) (← current)
    return .nothing
  | .remark text slot => do
    complain (.remark text) (← slot.token)
    return .nothing
  | .messages => return .messages (stepper.recorded.map Diagnostic.message)
  | .recover stops => do
    Grammar.recover stepper.mark stops
    return .nothing
  | .skip stops => do
    Grammar.skip stops
    return .nothing
  | .mark | .setOpening .. | .setExtension .. => return .nothing

/-- The rules after a command. -/
def Command.rules (stepper : Stepper) : Command → Grammar.Rules
  | .setOpening kind opening => stepper.rules.withOpening kind opening
  | .setExtension kind extension => stepper.rules.withExtension kind extension
  | _ => stepper.rules

/-- The marked tokens after a command. -/
def Command.marked (stepper : Stepper) : Command → TokenStream
  | .mark => stepper.ahead
  | _ => stepper.mark

/-- What a command leaves behind: its answer, the diagnostics that it found, and the parser. -/
structure Performed where
  answer : Answer
  found : List Diagnostic
  stepper : Stepper

def perform (limit : Nat) (stepper : Stepper) (command : Command) : Performed :=
  let step := (command.step limit stepper).run stepper.ahead
  let answer := match step.outcome with
    | .done answer => answer
    | .failed | .struck => .nothing
  ⟨answer, step.found,
    ⟨command.rules stepper, step.rest, command.marked stepper, stepper.recorded ++ step.found⟩⟩

end Stepper

end Mana

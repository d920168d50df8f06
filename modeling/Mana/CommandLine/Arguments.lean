import Mana.CommandLine.Flag

/-! Reading an argument list. Options may stand anywhere before a divider `--`; letters of options
without a value may be joined, a long option may be cut short as far as it stays the only one, and the
last value of an option wins. -/
namespace Mana.CommandLine

/-- What an argument list asks for. There is no format if its option has lost its value. -/
structure Settings where
  source : Option Text
  literal : Bool
  format : Option Format
  out : Option Text
  repl : Bool
  tokens : Bool
  ast : Bool
  verbose : Bool
  deriving DecidableEq

/-- The settings of an empty argument list. -/
def Settings.default : Settings := ⟨none, false, some .string, none, false, false, false, false⟩

/-- Why an argument list is refused. -/
inductive Refusal where
  | ambiguous (argument : Text) (candidates : List Flag)
  | ignoredValue (flag : Flag) (value : Text)
  | missingValue (flag : Flag)
  | invalidChoice (value : Text)
  | unrecognized (arguments : List Text)
  deriving DecidableEq

def Refusal.message : Refusal → Text
  | .ambiguous argument candidates =>
    "ambiguous option: ".toList ++ argument ++ " could match ".toList ++
      Text.joined ", ".toList (candidates.map Flag.long)
  | .ignoredValue flag value =>
    "argument ".toList ++ flag.spellings ++ ": ignored explicit argument ".toList ++ quoted value
  | .missingValue flag => "argument ".toList ++ flag.spellings ++ ": expected one argument".toList
  | .invalidChoice value =>
    "argument ".toList ++ Flag.format.spellings ++ ": invalid choice: ".toList ++ quoted value ++
      " (choose from ".toList ++
      Text.joined ", ".toList (Format.all.map fun format => quoted format.name) ++ [')']
  | .unrecognized arguments =>
    "unrecognized arguments: ".toList ++ Text.joined [' '] arguments

/-- The options in one argument: those with all they need, and one that takes the next word as its
value. -/
structure Cluster where
  settled : List (Flag × Option Text)
  pending : Option Flag

/-- An option without an attached value. -/
def Cluster.single (flag : Flag) : Cluster :=
  if flag.takesValue then ⟨[], some flag⟩ else ⟨[(flag, none)], none⟩

/-- An option with an attached value. A divider is no value: where it is attached, none is left. -/
def Cluster.valued (flag : Flag) (value : Text) : Cluster :=
  ⟨[(flag, if value = "--".toList then none else some value)], none⟩

/-- A short option and the text attached to it, which is its value or begins with more letters. -/
def Cluster.ofShort (flag : Flag) (attached : Text) : Except Refusal Cluster :=
  if flag.takesValue then .ok (.valued flag attached)
  else match attached with
    | [] => .error (.ignoredValue flag [])
    | letter :: rest =>
      match Flag.ofLetter? letter with
      | none => .error (.ignoredValue flag (letter :: rest))
      | some next => do
        let others ← if rest.isEmpty then .ok (.single next) else Cluster.ofShort next rest
        return { others with settled := (flag, none) :: others.settled }

/-- A long option and the text after its equals sign. -/
def Cluster.ofLong (flag : Flag) (attached : Text) : Except Refusal Cluster :=
  if flag.takesValue then .ok (.valued flag attached) else .error (.ignoredValue flag attached)

/-- The part that an argument plays. -/
inductive Argument where
  | word (text : Text)
  | divider
  | options (found : Except Refusal Cluster)
  | unknown (text : Text)

namespace Argument

/-- Whether digits, with or without one decimal point before the last of them, make up the text. -/
def isNumeral (text : Text) : Bool :=
  let isDecimal (c : Char) := (Numeral.digit? c).isSome
  match text.dropWhile isDecimal with
  | [] => !text.isEmpty
  | '.' :: fraction => !fraction.isEmpty && fraction.all isDecimal
  | _ => false

/-- Whether the text after a minus sign makes a negative number; one newline may follow it. -/
def isNegative (text : Text) : Bool :=
  isNumeral text || (text.getLast? = some '\n' && isNumeral text.dropLast)

/-- The two parts of a text around its first equals sign. -/
def cut? (text : Text) : Option (Text × Text) :=
  match text.span (· != '=') with
  | (_, []) => none
  | (name, _ :: value) => some (name, value)

/-- The option with a short or long spelling, and a value after an equals sign. -/
def spelled? (text : Text) (value : Option Text) : Option Argument :=
  match text with
  | ['-', letter] => (Flag.ofLetter? letter).map fun flag =>
    .options (value.elim (.ok (.single flag)) (Cluster.ofShort flag))
  | _ => (Flag.ofLong? text).map fun flag =>
    .options (value.elim (.ok (.single flag)) (Cluster.ofLong flag))

/-- An argument that begins with two dashes, as a long option cut short. -/
def abbreviated (text : Text) : Except Refusal (Option Argument) :=
  let (name, value) := (cut? text).elim (text, none) fun (name, value) => (name, some value)
  match Flag.all.filter fun flag => name.isPrefixOf flag.long with
  | [] => .ok none
  | [flag] => .ok (spelled? flag.long value)
  | candidates => .error (.ambiguous text candidates)

/-- The option that an argument with a leading dash may stand for, if it is not spelled in full. -/
def option? (text : Text) : Except Refusal (Option Argument) :=
  match text with
  | '-' :: '-' :: _ => abbreviated text
  | '-' :: letter :: attached => .ok <| (Flag.ofLetter? letter).map fun flag =>
    .options (Cluster.ofShort flag attached)
  | _ => .ok none

/-- The part that an argument before the divider plays. One with a leading dash that is no option is a
word all the same if it is a lone dash, a negative number, or has a space in it. -/
def classify (text : Text) : Except Refusal Argument :=
  match text with
  | '-' :: tail =>
    let full := spelled? text none <|>
      (cut? text).bind fun (name, value) => spelled? name (some value)
    match full with
    | some option => .ok option
    | none => do
      match ← option? text with
      | some option => return option
      | none =>
        return if tail.isEmpty || isNegative tail || text.contains ' ' then .word text else .unknown text
  | _ => .ok (.word text)

/-- The parts of all arguments. After the divider every argument is a word. -/
def classifyAll : List Text → Except Refusal (List Argument)
  | [] => .ok []
  | text :: rest =>
    if text = "--".toList then .ok (.divider :: rest.map .word)
    else do
      let argument ← classify text
      return argument :: (← classifyAll rest)

end Argument

/-- What a whole argument list comes to. -/
inductive Reading where
  | help
  | refused (refusal : Refusal)
  | accepted (settings : Settings)
  deriving DecidableEq

/-- The settings after an option with its value, or the end of the reading there. -/
def Settings.after (settings : Settings) (value : Option Text) : Flag → Except Reading Settings
  | .help => .error .help
  | .string => .ok { settings with literal := true }
  | .format => match value with
    | none => .ok { settings with format := none }
    | some name => match Format.ofName? name with
      | some format => .ok { settings with format := some format }
      | none => .error (.refused (.invalidChoice name))
  | .out => .ok { settings with out := value }
  | .repl => .ok { settings with repl := true }
  | .tokens => .ok { settings with tokens := true }
  | .ast => .ok { settings with ast := true }
  | .verbose => .ok { settings with verbose := true }

/-- The settings after several options. -/
def Settings.afterAll (settings : Settings) (options : List (Flag × Option Text)) :
    Except Reading Settings :=
  options.foldlM (fun settings (flag, value) => settings.after value flag) settings

/-- Read arguments one after the other. The first word is the source, and takes a divider right after
it along; what has no place is left over. -/
def readFrom (settings : Settings) (leftOver : List Text) : List Argument → Reading
  | [] => if leftOver.isEmpty then .accepted settings else .refused (.unrecognized leftOver)
  | .word text :: rest =>
    if settings.source.isSome then readFrom settings (leftOver ++ [text]) rest
    else match rest with
      | .divider :: words => readFrom { settings with source := some text } leftOver words
      | others => readFrom { settings with source := some text } leftOver others
  | .divider :: rest =>
    if settings.source.isSome then readFrom settings (leftOver ++ ["--".toList]) rest
    else readFrom settings leftOver rest
  | .unknown text :: rest => readFrom settings (leftOver ++ [text]) rest
  | .options (.error refusal) :: _ => .refused refusal
  | .options (.ok cluster) :: rest =>
    match cluster.pending, rest with
    | none, others => match settings.afterAll cluster.settled with
      | .error reading => reading
      | .ok settings => readFrom settings leftOver others
    | some flag, .word value :: others =>
      match settings.afterAll (cluster.settled ++ [(flag, some value)]) with
      | .error reading => reading
      | .ok settings => readFrom settings leftOver others
    | some flag, _ => .refused (.missingValue flag)

/-- Read an argument list. An ambiguous option anywhere in it comes before all else. -/
def read (arguments : List Text) : Reading :=
  match Argument.classifyAll arguments with
  | .error refusal => .refused refusal
  | .ok arguments => readFrom .default [] arguments

end Mana.CommandLine

import Mana.CommandLine.Files
import Mana.Text.Utf8

/-! A folder of files in memory, in which command lines are tried: names lead to contents, and a name
that leads nowhere says why. Around the folder is a system of which only the common folders and two
devices are known. -/
namespace Mana.CommandLine

/-- The names of the folders from the root to a place, and of the place itself. -/
abbrev Path := List Text

/-- The path of the folder at hand. Its own name is not known, and no name has an empty part, so that
only names relative to it lead into it. -/
def Path.here : Path := ["tmp".toList, []]

/-- The folders at the root of every system. -/
def Path.common : List Path :=
  ["bin", "boot", "dev", "etc", "home", "lib", "media", "mnt", "opt", "proc", "root", "run", "sbin",
   "srv", "sys", "tmp", "usr", "var"].map fun name => [name.toList]

/-- The device that takes every output and keeps none. -/
def Path.nullDevice : Path := ["dev".toList, "null".toList]

/-- The device that takes no output. -/
def Path.fullDevice : Path := ["dev".toList, "full".toList]

def Path.devices : List Path := [nullDevice, fullDevice]

/-- A file by its path, with its bytes. -/
structure File where
  path : Path
  bytes : List UInt8
  deriving DecidableEq

/-- The files in the folder at hand, and any that a run has put elsewhere. -/
abbrev Folder := List File

namespace Obstacle

def missing : Obstacle := .system 2 "No such file or directory".toList

def notFolder : Obstacle := .system 20 "Not a directory".toList

def folder : Obstacle := .system 21 "Is a directory".toList

def full : Obstacle := .system 28 "No space left on device".toList

def tooLong : Obstacle := .system 36 "File name too long".toList

end Obstacle

namespace Folder

/-- A folder of files by their names. -/
def ofFiles (files : List (Text × List UInt8)) : Folder :=
  files.map fun (name, bytes) => ⟨Path.here ++ name.splitOn '/', bytes⟩

/-- Whether a path leads to a folder: one around the folder at hand, a common one, or one that a file
is in. -/
def holds (folder : Folder) (path : Path) : Bool :=
  path.isPrefixOf Path.here || Path.common.contains path ||
    folder.any fun file => path.isPrefixOf file.path && path != file.path

def file? (folder : Folder) (path : Path) : Option File :=
  folder.find? fun file => file.path == path

/-- Whether a path leads to a file or device. -/
def occupied (folder : Folder) (path : Path) : Bool :=
  (folder.file? path).isSome || Path.devices.contains path

/-- The most bytes of one part of a name, and of a whole name. -/
def longestPart : Nat := 255

def longestName : Nat := 4095

/-- Whether a part of a name stays in the folder where it stands. -/
def stays (part : Text) : Bool := part.isEmpty || part = ['.']

/-- Whether a part of a name goes up to the folder around it. -/
def rises (part : Text) : Bool := part = ['.', '.']

/-- Follow the parts of a name from a folder on, up to a file or the place where one may be made. The
root is the folder around itself. -/
def follow (folder : Folder) (start : Path) : List Text → Except Obstacle Path
  | [] => .ok start
  | part :: rest =>
    if stays part then follow folder start rest
    else if rises part then follow folder start.dropLast rest
    else if longestPart < (Utf8.encode part).length then .error .tooLong
    else
      let next := start ++ [part]
      if folder.holds next || rest.isEmpty then follow folder next rest
      else if folder.occupied next then .error .notFolder
      else .error .missing

/-- The path that the parts of a name lead to, from the root if the name begins with a slash. -/
def resolveParts (folder : Folder) (name : Text) (parts : List Text) : Except Obstacle Path :=
  if name.contains '\x00' then .error .nul
  else if name.isEmpty then .error .missing
  else if longestName < (Utf8.encode name).length then .error .tooLong
  else follow folder (if name.head? = some '/' then [] else Path.here) parts

/-- The path that a name leads to. -/
def resolve (folder : Folder) (name : Text) : Except Obstacle Path :=
  folder.resolveParts name (name.splitOn '/')

/-- The bytes of the file with a name. -/
def read (folder : Folder) (name : Text) : Except Obstacle (List UInt8) := do
  let path ← folder.resolve name
  if folder.holds path then throw .folder
  else if Path.devices.contains path then return []
  else match folder.file? path with
    | some file => return file.bytes
    | none => throw .missing

/-- The folder with a file in place of any other at its path. -/
def put (folder : Folder) (file : File) : Folder :=
  if Path.devices.contains file.path then folder
  else if (folder.file? file.path).isSome then
    folder.map fun other => if other.path = file.path then file else other
  else folder ++ [file]

/-- The parts of a name that lead to the folder in which its last part is looked up. -/
def enclosing (name : Text) : List Text :=
  ((name.splitOn '/').reverse.dropWhile List.isEmpty).tail.reverse ++ [[]]

/-- The path that a name leads to where a file can be written. A slash at the end of a name is that of a
folder, be there one or not. -/
def target (folder : Folder) (name : Text) : Except Obstacle Path := do
  if name.getLast? = some '/' then
    let _ ← folder.resolveParts name (enclosing name)
    throw .folder
  else
    let path ← folder.resolve name
    if folder.holds path then throw .folder else return path

/-- The files of a folder. -/
def files : Files (StateM Folder) where
  Handle := Path
  read name := do return (← get).read name
  create name := do
    match (← get).target name with
    | .error obstacle => return .error obstacle
    | .ok path =>
      modify (·.put ⟨path, []⟩)
      return .ok path
  write path bytes := do
    if path = Path.fullDevice then return .error .full
    else
      modify (·.put ⟨path, bytes⟩)
      return .ok ()

/-- The files in the folder at hand that are new after a run, or have other bytes. -/
def changes (before after : Folder) : List File :=
  after.filter fun file => Path.here.isPrefixOf file.path && before.file? file.path != some file

end Folder

/-- The name of a file in the folder at hand. -/
def File.name (file : File) : Text := Text.joined ['/'] (file.path.drop Path.here.length)

end Mana.CommandLine

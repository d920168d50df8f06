import Mana.Text.Numeral
import Mana.Text.Quoted

/-! Access to files. A command line reads one file at most and writes one at most; what there is to read
and write is up to the system around it. -/
namespace Mana.CommandLine

/-- Why a file is not accessed: an error of the system, by its number, or a name that no file has. -/
inductive Obstacle where
  | system (code : Nat) (reason : Text)
  | nul
  deriving DecidableEq

namespace Obstacle

/-- The complaint about a file by the name under which it was opened, or about one that is open. -/
def message (name : Option Text) : Obstacle → Text
  | system code reason =>
    "[Errno ".toList ++ decimal code ++ "] ".toList ++ reason ++
      name.elim [] fun name => ": ".toList ++ quoted name
  | nul => "embedded null byte".toList

end Obstacle

/-- The files of a system. A file that is opened for writing is made if there is none, and emptied. -/
structure Files (m : Type → Type) where
  Handle : Type
  read (name : Text) : m (Except Obstacle (List UInt8))
  create (name : Text) : m (Except Obstacle Handle)
  write (handle : Handle) (bytes : List UInt8) : m (Except Obstacle Unit)

end Mana.CommandLine

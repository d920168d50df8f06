import Mana.Token.Lexeme
import Mana.Text.Numeral

/-! A cursor in a source text, which reads characters and tokens from any position, line and column
on. Positions below zero count from the end of the source when a character is taken, and hold none
when one is looked at ahead of time. -/
namespace Mana

structure Cursor where
  source : Text
  position : Int
  location : Location

/-- Why a cursor cannot read. -/
inductive Cursor.Fault where
  | pastEnd (position line : Int)
  | outOfRange
  deriving DecidableEq

def Cursor.Fault.message : Cursor.Fault → Text
  | .pastEnd position line =>
    "CharacterStreamError: Attempted to read past end of source at position=<".toList ++
      decimal position ++ ">, line=<".toList ++ decimal line ++ ">".toList
  | .outOfRange => "string index out of range".toList

namespace Cursor

/-- The number of characters of the source. -/
def size (cursor : Cursor) : Int := cursor.source.length

/-- The character at the position of a cursor that is not past the end. -/
def held? (cursor : Cursor) : Option Char :=
  if 0 ≤ cursor.position then cursor.source[cursor.position.toNat]?
  else if 0 ≤ cursor.position + cursor.size then
    cursor.source[(cursor.position + cursor.size).toNat]?
  else none

/-- The character at an offset from the position, if that lies inside the source. -/
def peek (cursor : Cursor) (offset : Int) : Option Char :=
  let index := cursor.position + offset
  if index < 0 then none else cursor.source[index.toNat]?

/-- Whether the source has ended, by its length or by a NUL. -/
def ended (cursor : Cursor) : Except Fault Bool :=
  if cursor.size ≤ cursor.position then .ok true
  else match cursor.held? with
    | none => .error .outOfRange
    | some c => .ok (c = nul)

/-- Take the character at the position. -/
def next (cursor : Cursor) : Except Fault (Char × Cursor) :=
  if cursor.size ≤ cursor.position then
    .error (.pastEnd cursor.position cursor.location.line)
  else match cursor.held? with
    | none => .error .outOfRange
    | some c => .ok (c, { cursor with
        position := cursor.position + 1
        location := cursor.location.after c })

/-- The characters that may still be taken before the end. -/
def distance (cursor : Cursor) : Nat := (cursor.size - cursor.position).toNat

/-- A call on a cursor. It answers or fails, and leaves a cursor behind in either case. -/
abbrev Call := ExceptT Fault (StateM Cursor)

namespace Call

/-- A call made on a cursor: its answer, and the cursor that it leaves behind. -/
def on (call : Call α) (cursor : Cursor) : Except Fault α × Cursor := call.run cursor

/-- What a call comes to, where a failure leaves nothing. -/
def outcome (call : Call α) (cursor : Cursor) : Except Fault (α × Cursor) :=
  match call.on cursor with
  | (.ok answer, after) => .ok (answer, after)
  | (.error fault, _) => .error fault

/-- Whether the source has ended. -/
def ended : Call Bool := ExceptT.mk fun cursor => (cursor.ended, cursor)

/-- Take the character at the position. Where there is none the cursor stays. -/
def next : Call Char := ExceptT.mk fun cursor =>
  match cursor.next with
  | .ok (c, after) => (.ok c, after)
  | .error fault => (.error fault, cursor)

/-- Take characters as long as the source has not ended and the character seen ahead is wanted, and
at most as many as given. -/
def takeUpTo (wanted : Option Char → Bool) : Nat → Call Text
  | 0 => return []
  | most + 1 => do
    if (← ended) || !wanted ((← get).peek 0) then return []
    let c ← next
    let taken ← takeUpTo wanted most
    return c :: taken

/-- Take the longest run of wanted characters. -/
def takeWhile (wanted : Option Char → Bool) : Call Text := do
  takeUpTo wanted (← get).distance

/-- Take the longest run of characters from a set. Nothing seen ahead is in no set. -/
def readWhile (set : Text) : Call Text := takeWhile fun seen => seen.any set.contains

/-- Pass the spaces at the position. Nothing seen ahead passes for space, so that a position below
zero moves on to the start of the source. -/
def skipSpace : Call Unit := do
  let _ ← takeWhile fun seen => seen.all isSpace

/-- Take as many characters as given. -/
def takeExactly : Nat → Call Unit
  | 0 => return
  | count + 1 => do
    let _ ← next
    takeExactly count

/-- Take the next token. At the end of the source that is the end token, and the cursor stays. -/
def token : Call Token := do
  skipSpace
  let begun ← get
  if ← ended then return ⟨.eof, [], begun.location⟩
  match begun.source.drop begun.position.toNat with
  | [] => return ⟨.eof, [], begun.location⟩
  | first :: rest =>
    let (kind, literal) := lexeme first rest
    takeExactly literal.length
    return ⟨kind, literal, begun.location⟩

end Call

def readWhile (cursor : Cursor) (set : Text) : Except Fault (Text × Cursor) :=
  (Call.readWhile set).outcome cursor

def skipSpace (cursor : Cursor) : Except Fault Cursor := return (← Call.skipSpace.outcome cursor).2

def nextToken (cursor : Cursor) : Except Fault (Token × Cursor) := Call.token.outcome cursor

end Cursor

end Mana

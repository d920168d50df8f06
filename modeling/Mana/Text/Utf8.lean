import Mana.Text.Quoted
import Mana.Text.Numeral

/-! The UTF-8 encoding. Decoding is strict: it stops at the first byte sequence that is no shortest
form of a code point and says which bytes those are and why. -/
namespace Mana.Utf8

/-- Why a byte sequence is no character. -/
inductive Flaw where
  | startByte
  | continuationByte
  | endOfData
  deriving DecidableEq

def Flaw.reason : Flaw → Text
  | .startByte => "invalid start byte".toList
  | .continuationByte => "invalid continuation byte".toList
  | .endOfData => "unexpected end of data".toList

/-- The first faulty sequence of an input: its first byte, offset and number of bytes. -/
structure Fault where
  flaw : Flaw
  byte : UInt8
  offset : Nat
  width : Nat
  deriving DecidableEq

/-- A single byte is named by value, several by their offsets. -/
def Fault.message (fault : Fault) : Text :=
  let place := if fault.width = 1
    then "byte 0x".toList ++ hexadecimal 2 fault.byte.toNat ++ " in position ".toList ++
      decimal fault.offset
    else "bytes in position ".toList ++ decimal fault.offset ++ "-".toList ++
      decimal ((fault.offset + fault.width - 1 : Nat))
  "'utf-8' codec can't decode ".toList ++ place ++ ": ".toList ++ fault.flaw.reason

/-- The form of a character as its first byte tells it: how many bytes follow, the bits that the
first byte holds, and the range of the second byte that keeps the form shortest and in range. -/
structure Lead where
  following : Nat
  bits : Nat
  low : Nat
  high : Nat

def lead? (byte : UInt8) : Option Lead :=
  let b := byte.toNat
  if b < 0x80 then some ⟨0, b, 0x80, 0xbf⟩
  else if b < 0xc2 then none
  else if b < 0xe0 then some ⟨1, b - 0xc0, 0x80, 0xbf⟩
  else if b = 0xe0 then some ⟨2, 0, 0xa0, 0xbf⟩
  else if b = 0xed then some ⟨2, 0xd, 0x80, 0x9f⟩
  else if b < 0xf0 then some ⟨2, b - 0xe0, 0x80, 0xbf⟩
  else if b = 0xf0 then some ⟨3, 0, 0x90, 0xbf⟩
  else if b < 0xf4 then some ⟨3, b - 0xf0, 0x80, 0xbf⟩
  else if b = 0xf4 then some ⟨3, 4, 0x80, 0x8f⟩
  else none

/-- A character that is still short of some bytes: the byte it began with and where, the bytes seen
and still due, the bits so far, and the range of the next byte. -/
structure Begun where
  first : UInt8
  offset : Nat
  seen : Nat
  due : Nat
  bits : Nat
  low : Nat
  high : Nat

/-- Decode the bytes from the offset on, inside a begun character if there is one. -/
def decodeFrom (offset : Nat) : Option Begun → List UInt8 → Except Fault Text
  | none, [] => .ok []
  | some begun, [] => .error ⟨.endOfData, begun.first, begun.offset, begun.seen⟩
  | none, byte :: rest =>
    match lead? byte with
    | none => .error ⟨.startByte, byte, offset, 1⟩
    | some lead =>
      if lead.following = 0 then (decodeFrom (offset + 1) none rest).map (Char.ofNat lead.bits :: ·)
      else decodeFrom (offset + 1)
        (some ⟨byte, offset, 1, lead.following, lead.bits, lead.low, lead.high⟩) rest
  | some begun, byte :: rest =>
    if begun.low ≤ byte.toNat && byte.toNat ≤ begun.high then
      let bits := begun.bits * 0x40 + (byte.toNat - 0x80)
      if begun.due = 1 then (decodeFrom (offset + 1) none rest).map (Char.ofNat bits :: ·)
      else decodeFrom (offset + 1)
        (some ⟨begun.first, begun.offset, begun.seen + 1, begun.due - 1, bits, 0x80, 0xbf⟩) rest
    else .error ⟨.continuationByte, begun.first, begun.offset, begun.seen⟩

/-- Decode a whole input. -/
def decode (bytes : List UInt8) : Except Fault Text := decodeFrom 0 none bytes

/-- The bytes of one character in shortest form. -/
def encodeChar (c : Char) : List UInt8 :=
  let n := c.toNat
  let tail (shift : Nat) : UInt8 := (0x80 + n / shift % 0x40).toUInt8
  if n < 0x80 then [n.toUInt8]
  else if n < 0x800 then [(0xc0 + n / 0x40).toUInt8, tail 1]
  else if n < 0x10000 then [(0xe0 + n / 0x1000).toUInt8, tail 0x40, tail 1]
  else [(0xf0 + n / 0x40000).toUInt8, tail 0x1000, tail 0x40, tail 1]

def encode (text : Text) : List UInt8 := text.flatMap encodeChar

end Mana.Utf8

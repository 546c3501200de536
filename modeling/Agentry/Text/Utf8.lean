/-!
# Reading bytes as text

`decodeLossy` reads any bytes as UTF-8. A lead octet opens a character and says how many octets it
owes and in what range the next of them lies; an octet outside that range ends the character early.
Each such part, and each octet that opens nothing, reads as one replacement character.
-/
namespace Agentry.Text

/-- A character begun: the bits so far, the octets still owed, and the range of the next one. -/
structure Pending where
  bits : Nat
  owed : Nat
  low : Nat
  high : Nat

def replacementChar : Char := '\ufffd'

/-- What an octet between two characters writes, and what it leaves open. -/
def openOctet (byte : UInt8) : List Char × Option Pending :=
  let n := byte.toNat
  if n < 0x80 then ([Char.ofNat n], none)
  else if 0xC2 ≤ n && n ≤ 0xDF then ([], some ⟨n - 0xC0, 1, 0x80, 0xBF⟩)
  else if n = 0xE0 then ([], some ⟨0, 2, 0xA0, 0xBF⟩)
  else if n = 0xED then ([], some ⟨13, 2, 0x80, 0x9F⟩)
  else if 0xE1 ≤ n && n ≤ 0xEF then ([], some ⟨n - 0xE0, 2, 0x80, 0xBF⟩)
  else if n = 0xF0 then ([], some ⟨0, 3, 0x90, 0xBF⟩)
  else if 0xF1 ≤ n && n ≤ 0xF3 then ([], some ⟨n - 0xF0, 3, 0x80, 0xBF⟩)
  else if n = 0xF4 then ([], some ⟨4, 3, 0x80, 0x8F⟩)
  else ([replacementChar], none)

def decodeFrom : Option Pending → List UInt8 → List Char
  | none, [] => []
  | some _, [] => [replacementChar]
  | none, byte :: rest =>
    let (out, next) := openOctet byte
    out ++ decodeFrom next rest
  | some p, byte :: rest =>
    let n := byte.toNat
    if p.low ≤ n && n ≤ p.high then
      let bits := p.bits * 64 + (n - 0x80)
      if p.owed = 1 then Char.ofNat bits :: decodeFrom none rest
      else decodeFrom (some ⟨bits, p.owed - 1, 0x80, 0xBF⟩) rest
    else
      let (out, next) := openOctet byte
      replacementChar :: out ++ decodeFrom next rest

def decodeLossy (bytes : ByteArray) : String :=
  String.ofList (decodeFrom none bytes.toList)

end Agentry.Text

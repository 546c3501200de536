import Agentry.Json.Number
import Agentry.Text.Hex
import Agentry.Text.Lowercase
/-!
# Run ids

A run id is a number of 128 bits. It is written as 32 lower-case hexadecimal digits in five groups,
and also read in upper case, without the hyphens, in braces, or behind `urn:uuid:` in any case.
-/
namespace Agentry

structure RunId where
  value : Nat
  deriving DecidableEq, Repr

namespace RunId

def nil : RunId := ⟨0⟩

/-- The id of sixteen octets taken at random, six of whose bits say that they were. -/
def ofRandom (octets : List UInt8) : RunId :=
  let marked := octets.mapIdx fun k octet =>
    if k = 6 then octet &&& 0x0F ||| 0x40
    else if k = 8 then octet &&& 0x3F ||| 0x80
    else octet
  ⟨marked.foldl (fun n octet => n * 256 + octet.toNat) 0 % Nat.pow 2 128⟩

def hexDigits (n : Nat) : Nat → List Char
  | 0 => []
  | count + 1 => hexDigits (n / 16) count ++ [Text.hexDigit (n % 16)]

/-- The sizes of the groups of digits. -/
def groupSizes : List Nat := [8, 4, 4, 4, 12]

/-- Digits in groups of the given sizes, with hyphens between them. -/
def grouped : List Nat → List Char → List Char
  | [], digits => digits
  | [_], digits => digits
  | size :: sizes, digits => digits.take size ++ '-' :: grouped sizes (digits.drop size)

def text (id : RunId) : String :=
  String.ofList (grouped groupSizes (hexDigits id.value 32))

def digitsOf : List Char → Option (List Nat)
  | [] => some []
  | c :: rest => do
    let d ← Text.hexValue? c
    let more ← digitsOf rest
    return d :: more

def ofDigits (cs : List Char) : Option RunId :=
  (digitsOf cs).map fun digits => ⟨digits.foldl (fun n d => n * 16 + d) 0⟩

/-- The digits of a text that has hyphens between its groups. -/
def ungrouped : List Nat → List Char → Option (List Char)
  | [], cs => if cs.isEmpty then some [] else none
  | [size], cs => if cs.length = size then some cs else none
  | size :: sizes, cs =>
    match cs.drop size with
    | '-' :: rest => (ungrouped sizes rest).map (cs.take size ++ ·)
    | _ => none

def ofGrouped (cs : List Char) : Option RunId :=
  (ungrouped groupSizes cs).bind ofDigits

def urnMark : List Char := "urn:uuid:".toList

def parse (text : String) : Option RunId :=
  let cs := text.toList
  if cs.length = 32 then ofDigits cs
  else if cs.head? = some '\x7b' && cs.getLast? = some '\x7d' then ofGrouped cs.tail.dropLast
  else if urnMark.isPrefixOf (cs.map Text.asciiLower) then ofGrouped (cs.drop urnMark.length)
  else ofGrouped cs

end RunId
end Agentry

import Agentry.Decimal.Shortest
import Agentry.Json.Basic
/-!
# Numbers in JSON text

A numeral is read without a fraction and an exponent as an integer when it fits in 64 bits, and as a
double in every other case. Its double is not the nearest one: the digits are gathered into a 64-bit
significand, those that no longer fit only move the exponent, and the significand, rounded, is then
multiplied or divided by a rounded power of ten.

A double is written with the fewest digits that read back, positionally when its first digit stands
for `10^-5` up to `10^15`, and with a signed exponent otherwise.
-/
namespace Agentry.Json

open Decimal (Binary64)

def isDigit (c : Char) : Bool := 48 ≤ c.toNat && c.toNat ≤ 57

def digitValue (c : Char) : Nat := c.toNat - 48

def digitsValue (ds : List Char) : Nat :=
  ds.foldl (fun n d => n * 10 + digitValue d) 0

/-- The exponent part of a numeral: its sign and its digits. -/
structure Power where
  negative : Bool
  digits : List Char

/-- A numeral as it is written. -/
structure Numeral where
  negative : Bool
  whole : List Char
  fraction : Option (List Char)
  power : Option Power

namespace Numeral

def readWhole : List Char → Option (List Char × List Char)
  | [] => none
  | c :: rest =>
    if c = '0' then
      if (rest.head?.map isDigit).getD false then none else some (['0'], rest)
    else if isDigit c then some (c :: rest.takeWhile isDigit, rest.dropWhile isDigit)
    else none

/-- The fraction at the front of a text. A point without a digit after it is an error. -/
def readFraction : List Char → Option (Option (List Char) × List Char)
  | '.' :: rest =>
    if (rest.takeWhile isDigit).isEmpty then none
    else some (some (rest.takeWhile isDigit), rest.dropWhile isDigit)
  | cs => some (none, cs)

def readPowerDigits (negative : Bool) (cs : List Char) : Option (Option Power × List Char) :=
  if (cs.takeWhile isDigit).isEmpty then none
  else some (some ⟨negative, cs.takeWhile isDigit⟩, cs.dropWhile isDigit)

def readPower : List Char → Option (Option Power × List Char)
  | c :: rest =>
    if c = 'e' || c = 'E' then
      match rest with
      | '+' :: digits => readPowerDigits false digits
      | '-' :: digits => readPowerDigits true digits
      | digits => readPowerDigits false digits
    else some (none, c :: rest)
  | [] => some (none, [])

def readUnsigned (negative : Bool) (cs : List Char) : Option (Numeral × List Char) := do
  let (whole, rest) ← readWhole cs
  let (fraction, rest) ← readFraction rest
  let (power, rest) ← readPower rest
  return (⟨negative, whole, fraction, power⟩, rest)

def read : List Char → Option (Numeral × List Char)
  | '-' :: rest => readUnsigned true rest
  | cs => readUnsigned false cs

/-- The largest significand is below this number. -/
def significandLimit : Nat := Nat.pow 2 64

/-- Appends digits to a significand while it fits. What is left starts with the first digit that did
not. -/
def gather : Nat → List Char → Nat × List Char
  | significand, [] => (significand, [])
  | significand, d :: rest =>
    let next := significand * 10 + digitValue d
    if next < significandLimit then gather next rest else (significand, d :: rest)

/-- The largest exponent that is counted. -/
def powerLimit : Nat := Nat.pow 2 31

/-- `10^n` as a double. -/
def tenTo (n : Nat) : Binary64 :=
  (Binary64.ofNat (Nat.pow 10 n)).getD (.zero false)

/-- A double times a power of ten. The powers past `10^308` are reached in steps of that size, which
only makes sense downwards. -/
def scale : Nat → Binary64 → Int → Option Binary64
  | 0, x, _ => some x
  | fuel + 1, x, exponent =>
    if exponent.natAbs ≤ 308 then
      if 0 ≤ exponent then x.mul (tenTo exponent.toNat) else x.div (tenTo exponent.natAbs)
    else if x.units = 0 then some x
    else if 0 ≤ exponent then none
    else
      match x.div (tenTo 308) with
      | some y => scale fuel y (exponent + 308)
      | none => none

/-- The double `significand * 10^exponent`. Below `10^-700` every significand has become zero, so a
few steps are enough. -/
def assemble (negative : Bool) (significand : Nat) (exponent : Int) : Option Binary64 := do
  let x ← Binary64.ofNat significand
  let y ← scale 8 x (max exponent (-1500))
  return ⟨negative, y.units⟩

def raise (negative : Bool) (significand : Nat) (exponent : Int) (power : Option Power) :
    Option Binary64 :=
  match power with
  | none => assemble negative significand exponent
  | some p =>
    let size := digitsValue p.digits
    if powerLimit ≤ size then
      if significand != 0 && !p.negative then none else some (.zero negative)
    else assemble negative significand (if p.negative then exponent - size else exponent + size)

/-- The number a numeral stands for, unless it is past the largest double. -/
def value? (n : Numeral) : Option Number :=
  let (significand, dropped) := gather 0 n.whole
  if dropped.isEmpty && n.fraction.isNone && n.power.isNone &&
      (!n.negative || (0 < significand && significand ≤ Nat.pow 2 63)) then
    some (.integer (if n.negative then -(significand : Int) else significand))
  else
    let digits := n.fraction.getD []
    let (all, unused) := gather significand digits
    let exponent : Int := dropped.length - ((digits.length - unused.length : Nat) : Int)
    (raise n.negative all exponent n.power).map .float

end Numeral

def decimalDigits (n : Nat) : List Char :=
  Nat.toDigits 10 n

def zeros (n : Nat) : List Char :=
  List.replicate n '0'

/-- Where the first digit's power of ten allows positional notation. -/
def positionalFrom : Int := -5

def positionalBelow : Int := 16

def exponentDigits (e : Int) : List Char :=
  (if e < 0 then '-' else '+') :: decimalDigits e.natAbs

/-- Digits times a power of ten, laid out. -/
def layout (s : Decimal.Scientific) : List Char :=
  let digits := decimalDigits s.digits
  let point : Int := digits.length + s.exponent
  let leading := point - 1
  if positionalFrom ≤ leading && leading < positionalBelow then
    if 0 ≤ s.exponent then digits ++ zeros s.exponent.toNat ++ ['.', '0']
    else if 0 < point then digits.take point.toNat ++ '.' :: digits.drop point.toNat
    else '0' :: '.' :: zeros (-point).toNat ++ digits
  else
    match digits with
    | [d] => d :: 'e' :: exponentDigits leading
    | d :: more => d :: '.' :: more ++ 'e' :: exponentDigits leading
    | [] => []

def floatText (x : Binary64) : List Char :=
  let magnitude := if x.units = 0 then ['0', '.', '0'] else layout (Decimal.shortest x.units)
  if x.negative then '-' :: magnitude else magnitude

def integerText (n : Int) : List Char :=
  if n < 0 then '-' :: decimalDigits n.natAbs else decimalDigits n.natAbs

def Number.text : Number → List Char
  | .integer n => integerText n
  | .float x => floatText x

end Agentry.Json

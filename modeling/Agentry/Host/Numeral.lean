import Agentry.Decimal.Binary64
import Agentry.Json.Number
import Agentry.Text.Hex
import Agentry.Text.Lowercase
/-!
# Numbers of the host

A whole number is read from the front of a text: behind blanks and a sign, hexadecimal behind `0x`,
octal behind `0`, else decimal. A real number is a quotient of naturals with a sign, rounded to the
bits that a program keeps; written, it is rounded once more, a tie going to the even digit.
-/
namespace Agentry.Host

open Decimal (roundHalfEven)

def isFormatBlank (c : Char) : Bool :=
  c = ' ' || (9 ≤ c.toNat && c.toNat ≤ 13)

def isOctal (c : Char) : Bool := 48 ≤ c.toNat && c.toNat ≤ 55

/-- The value of some digits in a base. -/
def digitsIn (base : Nat) (ds : List Char) : Nat :=
  ds.foldl (fun n c => n * base + (Text.hexValue? c).getD 0) 0

def isDigitIn (base : Nat) (c : Char) : Bool :=
  ((Text.hexValue? c).filter (· < base)).isSome

/-- The sign of a text, and the text behind it. -/
def readSign : List Char → Bool × List Char
  | '-' :: rest => (true, rest)
  | '+' :: rest => (false, rest)
  | cs => (false, cs)

/-- The natural number at the front of a text, and what follows it, if there is one. A base of zero
stands for the one that the text asks for. -/
def readNatural (base : Nat) (cs : List Char) : Option (Nat × List Char) :=
  let digits (base : Nat) (cs : List Char) : Option (Nat × List Char) :=
    let run := cs.takeWhile (isDigitIn base)
    if run.isEmpty then none else some (digitsIn base run, cs.drop run.length)
  match cs with
  | '0' :: x :: rest =>
    if base = 0 && (x = 'x' || x = 'X') then (digits 16 rest).or (some (0, x :: rest))
    else digits (if base = 0 then 8 else base) cs
  | cs => digits (if base = 0 then 10 else base) cs

/-- A whole number at the front of a text, what follows it, and whether it was out of range. -/
structure Reading where
  value : Int
  rest : List Char
  outOfRange : Bool

/-- Where the numbers of 64 bits with a sign end. -/
def signedLimit : Int := Int.ofNat (Nat.pow 2 63)

def unsignedLimit : Int := Int.ofNat (Nat.pow 2 64)

/-- Reads a whole number. Nothing is read from a text that does not begin with one. -/
def readInteger (base : Nat) (text : List Char) : Option Reading :=
  let (negative, cs) := readSign (text.dropWhile isFormatBlank)
  (readNatural base cs).map fun (n, rest) =>
    let value : Int := if negative then -(n : Int) else n
    if value ≥ signedLimit then ⟨signedLimit - 1, rest, true⟩
    else if value < -signedLimit then ⟨-signedLimit, rest, true⟩
    else ⟨value, rest, false⟩

/-- Reads a number without a sign: one with a sign counts back from the end of the range. -/
def readUnsigned (base : Nat) (text : List Char) : Option Reading :=
  let (negative, cs) := readSign (text.dropWhile isFormatBlank)
  (readNatural base cs).map fun (n, rest) =>
    if (n : Int) ≥ unsignedLimit then ⟨unsignedLimit - 1, rest, true⟩
    else if negative && n ≠ 0 then ⟨unsignedLimit - n, rest, false⟩
    else ⟨n, rest, false⟩

/-- A quotient of naturals with a sign, or one of the values that are none. -/
inductive Quantity where
  | quotient (negative : Bool) (num den : Nat)
  | infinite (negative : Bool)
  | none
  deriving DecidableEq, Repr

/-- The nearest number of at most `bits` significant bits. -/
def Quantity.rounded (bits : Nat) : Quantity → Quantity
  | .quotient negative num den =>
    if num = 0 then .quotient negative 0 1
    else
      let scale := Nat.pow 2 (bits + 1 + den.log2)
      let step := Nat.pow 2 ((num * scale / den).log2 + 1 - bits)
      .quotient negative (roundHalfEven (num * scale) (den * step) * step) scale
  | other => other

/-- A power of ten that is not too large to be computed. -/
def tenTo (n : Nat) : Nat := Nat.pow 10 (min n 5000)

/-- The real number at the front of a text, and what follows it. -/
def readQuantity (text : List Char) : Option (Quantity × List Char) :=
  let (negative, cs) := readSign (text.dropWhile isFormatBlank)
  let lower := cs.map Text.asciiLower
  let special (name : String) : Bool := name.toList.isPrefixOf lower
  if special "infinity" then some (.infinite negative, cs.drop 8)
  else if special "inf" then some (.infinite negative, cs.drop 3)
  else if special "nan" then some (.none, cs.drop 3)
  else
    let whole := cs.takeWhile Json.isDigit
    let rest := cs.drop whole.length
    let (fraction, rest) : List Char × List Char := match rest with
      | '.' :: digits =>
        let run := digits.takeWhile Json.isDigit
        if whole.isEmpty && run.isEmpty then ([], rest) else (run, digits.drop run.length)
      | rest => ([], rest)
    if whole.isEmpty && fraction.isEmpty then Option.none
    else
      let (power, rest) : Int × List Char := match rest with
        | e :: after =>
          if e = 'e' || e = 'E' then
            let (below, digits) := readSign after
            let run := digits.takeWhile Json.isDigit
            if run.isEmpty then (0, rest)
            else
              let n : Int := Json.digitsValue run
              (if below then -n else n, digits.drop run.length)
          else (0, rest)
        | [] => (0, [])
      let digits := Json.digitsValue (whole ++ fraction)
      let exponent := power - fraction.length
      some (if 0 ≤ exponent then .quotient negative (digits * tenTo exponent.toNat) 1
        else .quotient negative digits (tenTo (-exponent).toNat), rest)

/-- The digits of a natural number, zeros being put in front of too few. -/
def padded (width n : Nat) : List Char :=
  let digits := Nat.toDigits 10 n
  List.replicate (width - digits.length) '0' ++ digits

/-- A point and the digits behind it, unless there are none. -/
def fractionText (point : Bool) (digits : List Char) : List Char :=
  if digits.isEmpty && !point then [] else '.' :: digits

/-- A quotient with so many places behind the point. -/
def fixedText (point : Bool) (places num den : Nat) : List Char :=
  let digits := padded (places + 1) (roundHalfEven (num * Nat.pow 10 places) den)
  digits.take (digits.length - places) ++ fractionText point (digits.drop (digits.length - places))

/-- The power of ten of the first digit of a quotient. -/
def leadingPower (num den : Nat) : Int :=
  if num = 0 then 0
  else if num ≥ den then ((Nat.toDigits 10 (num / den)).length : Int) - 1
  else -((Nat.toDigits 10 ((den - 1) / num)).length : Int)

/-- The significant digits of a quotient, so many behind the first, and its power of ten. -/
def scientificDigits (places num den : Nat) : List Char × Int :=
  let power := leadingPower num den
  let shift := power - places
  let n := if 0 ≤ shift then roundHalfEven num (den * Nat.pow 10 shift.toNat)
    else roundHalfEven (num * Nat.pow 10 (-shift).toNat) den
  let digits := padded (places + 1) n
  if digits.length > places + 1 then (digits.take (places + 1), power + 1) else (digits, power)

def powerText (power : Int) : List Char :=
  (if power < 0 then '-' else '+') :: padded 2 power.natAbs

/-- A quotient as one digit, so many more behind the point, and a power of ten. -/
def scientificText (point : Bool) (places num den : Nat) : List Char :=
  let (digits, power) := scientificDigits places num den
  digits.take 1 ++ fractionText point (digits.drop 1) ++ 'e' :: powerText power

def withoutZeros (digits : List Char) : List Char :=
  (digits.reverse.dropWhile (· = '0')).reverse

/-- A quotient in the shorter of two ways, with so many significant digits at most. -/
def generalText (point : Bool) (significant num den : Nat) : List Char :=
  let significant := max significant 1
  let (digits, power) := scientificDigits (significant - 1) num den
  let shown (digits : List Char) : List Char := if point then digits else withoutZeros digits
  if -4 ≤ power && power < significant then
    let text := fixedText point (significant - 1 - power).toNat num den
    let whole := text.takeWhile (· ≠ '.')
    whole ++ fractionText point (shown (text.drop (whole.length + 1)))
  else digits.take 1 ++ fractionText point (shown (digits.drop 1)) ++ 'e' :: powerText power

end Agentry.Host

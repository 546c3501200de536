import Agentry.Json.Number
import Agentry.Text.Blank
import Agentry.Text.Lowercase
/-!
# Timestamps

A timestamp is a day, counted from 1970-01-01 in the Gregorian calendar, a second of that day and
the nanoseconds since that second. From the sixtieth second of a leap second on there are more than
a thousand million nanoseconds.

A timestamp is read with any offset from universal time and with blanks between its parts, and is
written in universal time with as many groups of three fractional digits as it needs.
-/
namespace Agentry

open Json (isDigit digitsValue)

structure Timestamp where
  day : Int
  second : Nat
  nanos : Nat
  deriving DecidableEq, Repr

namespace Timestamp

def epoch : Timestamp := ⟨0, 0, 0⟩

def billion : Nat := 1000000000

def secondsPerDay : Nat := 86400

/-- The moment so many nanoseconds after the epoch. -/
def ofUnixNanos (n : Int) : Timestamp :=
  let second := n.ediv billion
  ⟨second.ediv secondsPerDay, (second.emod secondsPerDay).toNat, (n.emod billion).toNat⟩

/-- A day of the calendar. -/
structure Date where
  year : Int
  month : Nat
  day : Nat
  deriving DecidableEq, Repr

def isLeapYear (year : Int) : Bool :=
  year % 4 = 0 && (year % 100 != 0 || year % 400 = 0)

def daysInMonth (year : Int) (month : Nat) : Nat :=
  if month = 2 then (if isLeapYear year then 29 else 28)
  else if month = 4 || month = 6 || month = 9 || month = 11 then 30
  else 31

def daysPerEra : Nat := 146097

/-- Days from 0000-03-01 to 1970-01-01. -/
def epochShift : Int := 719468

/-- The years start in March, so that the leap day is the last of its year, and 400 of them make an
era. -/
def dayOfDate (date : Date) : Int :=
  let year := if date.month ≤ 2 then date.year - 1 else date.year
  let month := (date.month + 9) % 12
  let ofEra := year.emod 400
  let ofYear := (153 * month + 2) / 5 + date.day - 1
  year.ediv 400 * daysPerEra + (ofEra * 365 + ofEra / 4 - ofEra / 100 + ofYear) - epochShift

def dateOfDay (day : Int) : Date :=
  let shifted := day + epochShift
  let era := shifted.ediv daysPerEra
  let dayOfEra := (shifted.emod daysPerEra).toNat
  let yearOfEra := (dayOfEra - dayOfEra / 1460 + dayOfEra / 36524 - dayOfEra / 146096) / 365
  let ofYear := dayOfEra - (365 * yearOfEra + yearOfEra / 4 - yearOfEra / 100)
  let shiftedMonth := (5 * ofYear + 2) / 153
  let month := if shiftedMonth < 10 then shiftedMonth + 3 else shiftedMonth - 9
  let year := era * 400 + yearOfEra
  ⟨if month ≤ 2 then year + 1 else year, month, ofYear - (153 * shiftedMonth + 2) / 5 + 1⟩

/-- The years that a timestamp can lie in. -/
def isYear (year : Int) : Bool :=
  -262143 ≤ year && year ≤ 262142

def padded (width n : Nat) : List Char :=
  let digits := Nat.toDigits 10 n
  List.replicate (width - digits.length) '0' ++ digits

/-- A year of four digits, or a longer or a negative one behind its sign. -/
def yearText (year : Int) : List Char :=
  if 0 ≤ year && year ≤ 9999 then padded 4 year.toNat
  else (if year < 0 then '-' else '+') :: padded 4 year.natAbs

def fractionText (nanos : Nat) : List Char :=
  if nanos = 0 then []
  else if nanos % 1000000 = 0 then '.' :: padded 3 (nanos / 1000000)
  else if nanos % 1000 = 0 then '.' :: padded 6 (nanos / 1000)
  else '.' :: padded 9 nanos

def text (t : Timestamp) : String :=
  let date := dateOfDay t.day
  let second := t.second % 60 + t.nanos / billion
  String.ofList (yearText date.year ++ '-' :: padded 2 date.month ++ '-' :: padded 2 date.day ++
    'T' :: padded 2 (t.second / 3600) ++ ':' :: padded 2 (t.second / 60 % 60) ++
    ':' :: padded 2 second ++ fractionText (t.nanos % billion) ++ ['Z'])

/-- One or more digits at the front of a text, at most `width` of them. -/
def readDigits (width : Nat) (cs : List Char) : Option (List Char × List Char) :=
  let digits := (cs.take width).takeWhile isDigit
  if digits.isEmpty then none else some (digits, cs.drop digits.length)

/-- A number of at most `width` digits, after blanks, between two bounds. -/
def readNumber (width low high : Nat) (cs : List Char) : Option (Nat × List Char) := do
  let (digits, rest) ← readDigits width (Text.trimLeft cs)
  let n := digitsValue digits
  if low ≤ n && n ≤ high then some (n, rest) else none

/-- A year of at most four digits, or of any number of digits behind a sign. -/
def readYear (cs : List Char) : Option (Int × List Char) :=
  match Text.trimLeft cs with
  | '-' :: rest =>
    (readDigits rest.length rest).map fun (digits, rest) => (-(digitsValue digits : Int), rest)
  | '+' :: rest =>
    (readDigits rest.length rest).map fun (digits, rest) => ((digitsValue digits : Int), rest)
  | cs => (readDigits 4 cs).map fun (digits, rest) => ((digitsValue digits : Int), rest)

/-- A character that is expected next, after blanks. -/
def readMark (mark : Char) (cs : List Char) : Option (List Char) :=
  match Text.trimLeft cs with
  | c :: rest => if c = mark then some rest else none
  | [] => none

def readSeparator : List Char → Option (List Char)
  | c :: rest => if c = 'T' || c = 't' || c = ' ' then some rest else none
  | [] => none

/-- The nanoseconds of a fraction. Digits after the ninth are dropped. -/
def readNanos : List Char → Option (Nat × List Char)
  | '.' :: rest => do
    let (digits, rest) ← readDigits 9 rest
    some (digitsValue digits * Nat.pow 10 (9 - digits.length), rest.dropWhile isDigit)
  | cs => some (0, cs)

/-- Two digits, the first of them below `limit`. -/
def readPair (limit : Nat) : List Char → Option (Nat × List Char)
  | a :: b :: rest =>
    if isDigit a && isDigit b && Json.digitValue a < limit then some (digitsValue [a, b], rest)
    else none
  | _ => none

/-- The minutes of an offset, after colons and blanks. -/
def readOffsetMinutes (cs : List Char) : Option (Nat × List Char) :=
  readPair 6 (cs.dropWhile fun c => c = ':' || Text.isBlank c)

def readOffsetAfterSign (sign : Int) (cs : List Char) : Option (Int × List Char) := do
  let (hours, rest) ← readPair 10 cs
  let (minutes, rest) ← readOffsetMinutes rest
  some (sign * (hours * 3600 + minutes * 60 : Nat), rest)

/-- An offset from universal time in seconds. -/
def readOffset (cs : List Char) : Option (Int × List Char) :=
  if Text.asciiLowercase (String.ofList (cs.take 3)) = "utc" then some (0, cs.drop 3)
  else
    match cs with
    | 'Z' :: rest => some (0, rest)
    | 'z' :: rest => some (0, rest)
    | '+' :: rest => readOffsetAfterSign 1 rest
    | '-' :: rest => readOffsetAfterSign (-1) rest
    | '\u2212' :: rest => readOffsetAfterSign (-1) rest
    | _ => none

def readDate (cs : List Char) : Option (Date × List Char) := do
  let (year, rest) ← readYear cs
  let rest ← readMark '-' rest
  let (month, rest) ← readNumber 2 1 12 rest
  let rest ← readMark '-' rest
  let (day, rest) ← readNumber 2 1 31 rest
  if isYear year && day ≤ daysInMonth year month then some (⟨year, month, day⟩, rest) else none

/-- A time of day: its second and its nanoseconds. The sixtieth second counts into the last one. -/
def readTime (cs : List Char) : Option (Nat × Nat × List Char) := do
  let (hour, rest) ← readNumber 2 0 23 cs
  let rest ← readMark ':' rest
  let (minute, rest) ← readNumber 2 0 59 rest
  let rest ← readMark ':' rest
  let (second, rest) ← readNumber 2 0 60 rest
  let (nanos, rest) ← readNanos rest
  let whole := hour * 3600 + minute * 60
  if second = 60 then some (whole + 59, nanos + billion, rest)
  else some (whole + second, nanos, rest)

/-- The timestamp of a local time, if its day in universal time is in range. -/
def ofLocal (date : Date) (second nanos : Nat) (offset : Int) : Option Timestamp :=
  let total := dayOfDate date * secondsPerDay + second - offset
  let day := total.ediv secondsPerDay
  if isYear (dateOfDay day).year then some ⟨day, (total.emod secondsPerDay).toNat, nanos⟩ else none

def parse (s : String) : Option Timestamp := do
  let (date, rest) ← readDate s.toList
  let rest ← readSeparator rest
  let (second, nanos, rest) ← readTime rest
  let (offset, rest) ← readOffset (Text.trimLeft rest)
  if (Text.trimLeft rest).isEmpty && offset.natAbs < secondsPerDay then
    ofLocal date second nanos offset
  else none

end Timestamp
end Agentry

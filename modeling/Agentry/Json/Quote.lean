import Agentry.Text.Hex
/-!
# Quoted strings

A string is written between double quotes. The quote and the backslash get a backslash, the other
characters below the space an escape of one letter or of four hexadecimal digits, and every other
character stands for itself.
-/
namespace Agentry.Json

open Text (hexDigit hexValue?)

def quoteChar (c : Char) : List Char :=
  if c = '"' then ['\\', '"']
  else if c = '\\' then ['\\', '\\']
  else if c = '\n' then ['\\', 'n']
  else if c = '\r' then ['\\', 'r']
  else if c = '\t' then ['\\', 't']
  else if c.toNat = 8 then ['\\', 'b']
  else if c.toNat = 12 then ['\\', 'f']
  else if c.toNat < 0x20 then
    ['\\', 'u', '0', '0', hexDigit (c.toNat / 16), hexDigit (c.toNat % 16)]
  else [c]

def quoteBody (cs : List Char) : List Char :=
  cs.flatMap quoteChar

def quote (s : String) : List Char :=
  '"' :: quoteBody s.toList ++ ['"']

def hexValue4? (a b c d : Char) : Option Nat :=
  match hexValue? a, hexValue? b, hexValue? c, hexValue? d with
  | some a, some b, some c, some d => some (((a * 16 + b) * 16 + c) * 16 + d)
  | _, _, _, _ => none

def isHighSurrogate (n : Nat) : Bool := 0xD800 ≤ n && n ≤ 0xDBFF

def isLowSurrogate (n : Nat) : Bool := 0xDC00 ≤ n && n ≤ 0xDFFF

def joinSurrogates (high low : Nat) : Char :=
  Char.ofNat (0x10000 + (high - 0xD800) * 0x400 + (low - 0xDC00))

/-- The character of an escape of one letter. -/
def letterEscape? (c : Char) : Option Char :=
  match c with
  | '"' => some '"'
  | '\\' => some '\\'
  | '/' => some '/'
  | 'b' => some (Char.ofNat 8)
  | 'f' => some (Char.ofNat 12)
  | 'n' => some '\n'
  | 'r' => some '\r'
  | 't' => some '\t'
  | _ => none

/-- A character of a string, or one half of a surrogate pair that an escape named. -/
inductive Piece where
  | char (c : Char)
  | half (n : Nat)

def Piece.ofUnit (n : Nat) : Piece :=
  if isHighSurrogate n || isLowSurrogate n then .half n else .char (Char.ofNat n)

/-- A string read after its opening quote: its pieces, and what follows the closing quote. -/
def readPieces : List Char → Option (List Piece × List Char)
  | [] => none
  | '"' :: rest => some ([], rest)
  | '\\' :: 'u' :: a :: b :: c :: d :: rest =>
    match hexValue4? a b c d with
    | some n => (readPieces rest).map fun (pieces, after) => (.ofUnit n :: pieces, after)
    | none => none
  | '\\' :: e :: rest =>
    match letterEscape? e with
    | some c => (readPieces rest).map fun (pieces, after) => (.char c :: pieces, after)
    | none => none
  | c :: rest =>
    if c = '\\' || c.toNat < 0x20 then none
    else (readPieces rest).map fun (pieces, after) => (.char c :: pieces, after)

/-- The characters of a string, if every half of a pair is followed by its other half. -/
def joinPieces : List Piece → Option (List Char)
  | [] => some []
  | .char c :: rest => (joinPieces rest).map (c :: ·)
  | .half high :: .half low :: rest =>
    if isHighSurrogate high && isLowSurrogate low then
      (joinPieces rest).map (joinSurrogates high low :: ·)
    else none
  | .half _ :: _ => none

/-- A string read after its opening quote: its text, which is missing when half of a pair stands
alone, and what follows the closing quote. -/
def unquote (cs : List Char) : Option (Option String × List Char) :=
  (readPieces cs).map fun (pieces, after) => ((joinPieces pieces).map String.ofList, after)

end Agentry.Json

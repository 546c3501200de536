/-!
# Balanced scans

A scan finds the literal that the first opening delimiter on the current line begins. It counts the
delimiters that are still open, passes over strings, in which a backslash takes the next character
with it, and ends where the count returns to zero.
-/
namespace Agentry

inductive ScanError where
  | noOpener
  | unterminated (depth : Nat)
  deriving DecidableEq, Repr

def ScanError.message : ScanError → String
  | .noOpener => "no opening delimiter on the label's line"
  | .unterminated depth =>
    "literal is unterminated (" ++ toString depth ++ " delimiter(s) still open)"

namespace Balanced

/-- Where a scan stands: outside strings, inside one, or behind a backslash inside one. -/
inductive Mode where
  | outside
  | inside
  | escaped
  deriving DecidableEq, Repr

/-- A text in three parts, the middle one being the literal. -/
structure Span where
  before : List Char
  literal : List Char
  after : List Char
  deriving DecidableEq, Repr

/-- One more character at the front of what has been passed. -/
def keep (c : Char) : Except ScanError (List Char × List Char) →
    Except ScanError (List Char × List Char)
  | .ok (passed, rest) => .ok (c :: passed, rest)
  | .error e => .error e

/-- The characters up to the delimiter that closes the last open one, and those after it. -/
def close (opening closing : Char) :
    Nat → Mode → List Char → Except ScanError (List Char × List Char)
  | depth, _, [] => .error (.unterminated depth)
  | depth, .escaped, c :: rest => keep c (close opening closing depth .inside rest)
  | depth, .inside, c :: rest =>
    keep c (close opening closing depth
      (if c = '\\' then .escaped else if c = '"' then .outside else .inside) rest)
  | depth, .outside, c :: rest =>
    if c = '"' then keep c (close opening closing depth .inside rest)
    else if c = opening then keep c (close opening closing (depth + 1) .outside rest)
    else if c = closing then
      if depth ≤ 1 then .ok ([c], rest)
      else keep c (close opening closing (depth - 1) .outside rest)
    else keep c (close opening closing depth .outside rest)

/-- Splits a text at the first opening delimiter before the end of its first line. -/
def openOnLine (opening : Char) : List Char → Option (List Char × List Char)
  | [] => none
  | c :: rest =>
    if c = '\n' then none
    else if c = opening then some ([], rest)
    else (openOnLine opening rest).map fun (before, after) => (c :: before, after)

def span (opening closing : Char) (cs : List Char) : Except ScanError Span :=
  match openOnLine opening cs with
  | none => .error .noOpener
  | some (before, rest) =>
    match close opening closing 1 .outside rest with
    | .ok (passed, after) => .ok ⟨before, opening :: passed, after⟩
    | .error e => .error e

def utf8Size (cs : List Char) : Nat :=
  cs.foldr (fun c size => c.utf8Size + size) 0

/-- Splits a text at an offset in octets. An offset inside a character counts as the next one. -/
def splitAtOctet : Nat → List Char → List Char × List Char
  | _, [] => ([], [])
  | offset, c :: rest =>
    if offset = 0 then ([], c :: rest)
    else
      let (before, after) := splitAtOctet (offset - c.utf8Size) rest
      (c :: before, after)

/-- A scan that starts at an offset in octets, and the offsets of both ends of the literal. -/
def octetSpan (text : String) (offset : Nat) (opening closing : Char) :
    Except ScanError (Nat × Nat) :=
  let (before, rest) := splitAtOctet offset text.toList
  match span opening closing rest with
  | .ok s =>
    let start := utf8Size before + utf8Size s.before
    .ok (start, start + utf8Size s.literal)
  | .error e => .error e

end Balanced
end Agentry

import Agentry.Text.Search
/-!
# Labels

A label stands at the start of a line, with spaces and tabs before it, and a colon after it with
spaces and tabs on both sides. The first line whose label is followed by what is looked for counts.
-/
namespace Agentry.Label

/-- The suffixes that follow a line feed. -/
def afterLineFeeds : List Char → List (List Char)
  | [] => []
  | c :: rest => if c = '\n' then rest :: afterLineFeeds rest else afterLineFeeds rest

/-- The suffixes of a text that start at a line. -/
def lineStarts (cs : List Char) : List (List Char) :=
  cs :: afterLineFeeds cs

def isInlineBlank (c : Char) : Bool :=
  c = ' ' || c = '\t'

def skipInline (cs : List Char) : List Char :=
  cs.dropWhile isInlineBlank

/-- What follows a text that is expected next. -/
def dropText : List Char → List Char → Option (List Char)
  | [], cs => some cs
  | _ :: _, [] => none
  | e :: expected, c :: cs => if e = c then dropText expected cs else none

/-- What follows the label at the front of a line. -/
def afterLabel (label : String) (line : List Char) : Option (List Char) :=
  match dropText label.toList (skipInline line) with
  | some rest =>
    match skipInline rest with
    | ':' :: rest => some (skipInline rest)
    | _ => none
  | none => none

/-- What follows whichever of some labels a line has. -/
def afterAny (labels : List String) (line : List Char) : Option (List Char) :=
  labels.findSome? (afterLabel · line)

/-- The first answer of `tail` to what follows one of the labels. -/
def find (labels : List String) (tail : List Char → Option α) (cs : List Char) : Option α :=
  (lineStarts cs).findSome? fun line => (afterAny labels line).bind tail

/-- The literal between two quotes at the front of a text, and what follows it. `allowed` says what
may stand inside unescaped; a backslash takes any character but a line feed with it. -/
def quotedBody (allowed : Char → Bool) : List Char → Option (List Char × List Char)
  | [] => none
  | '"' :: rest => some (['"'], rest)
  | '\\' :: c :: rest =>
    if c = '\n' then none
    else (quotedBody allowed rest).map fun (body, after) => ('\\' :: c :: body, after)
  | c :: rest =>
    if c = '\\' || !allowed c then none
    else (quotedBody allowed rest).map fun (body, after) => (c :: body, after)

def quotedLiteral (allowed : Char → Bool) : List Char → Option (List Char × List Char)
  | '"' :: rest => (quotedBody allowed rest).map fun (body, after) => ('"' :: body, after)
  | _ => none

/-- The opening of a raw literal: its hashes, and what follows its quote. -/
def rawOpening : List Char → Option (List Char × List Char)
  | 'r' :: rest =>
    match rest.dropWhile (· = '#') with
    | '"' :: body => some (rest.takeWhile (· = '#'), body)
    | _ => none
  | _ => none

end Agentry.Label

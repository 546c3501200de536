import Agentry.Files.Tree
import Agentry.Host.Octets
/-!
# Patterns

A pattern is a text some of whose characters are active: a star stands for any text, a question mark
for any character, and brackets for one character of a set. An active backslash takes the activity
from the character behind it. A pattern of files is matched step by step: a step without anything
active is taken as it is, and a name that begins with a point is matched only by such a step.
-/
namespace Agentry.Host

/-- A character, and whether it may stand for others. -/
abbrev Mark := Char × Bool

def textOfMarks (marks : List Mark) : String := String.ofList (marks.map (·.1))

/-- The marks of a text that stands for itself alone. -/
def plainMarks (text : String) : List Mark := text.toList.map (·, false)

/-- Some of the characters in a set. -/
inductive Member where
  | between (low high : Char)
  | kind (name : String)
  deriving DecidableEq, Repr

/-- A part of a pattern. -/
inductive Sign where
  | exactly (c : Char)
  | anyOne
  | anyText
  | oneOf (negated : Bool) (members : List Member)
  deriving DecidableEq, Repr

namespace Pattern

/-- The kinds of characters, and which octets are of them. -/
def kinds : List (String × (Char → Bool)) :=
  let isGraph (c : Char) : Bool := 33 ≤ c.toNat && c.toNat ≤ 126
  [("alnum", Char.isAlphanum), ("alpha", Char.isAlpha), ("digit", Char.isDigit),
   ("lower", Char.isLower), ("upper", Char.isUpper), ("blank", fun c => c = ' ' || c = '\t'),
   ("space", fun c => c = ' ' || (9 ≤ c.toNat && c.toNat ≤ 13)),
   ("cntrl", fun c => c.toNat < 32 || c.toNat = 127), ("graph", isGraph),
   ("print", fun c => c = ' ' || isGraph c), ("punct", fun c => isGraph c && !c.isAlphanum),
   ("xdigit", fun c => c.isDigit || ('a' ≤ c && c ≤ 'f') || ('A' ≤ c && c ≤ 'F'))]

def Member.holds (c : Char) : Member → Bool
  | .between low high => low ≤ c && c ≤ high
  | .kind name => ((kinds.lookup name).map (· c)).getD false

/-- The kind between colons at the front of a text, and what follows it. -/
def readKind (marks : List Mark) : Option (String × List Mark) :=
  match marks with
  | (':', _) :: rest =>
    let name := textOfMarks (rest.takeWhile fun mark => mark.1.isAlpha)
    match rest.drop name.length with
    | (':', _) :: (']', _) :: rest =>
      if kinds.any (·.1 == name) then some (name, rest) else none
    | _ => none
  | _ => none

/-- The members of a set up to its bracket, and what follows it. A bracket that comes first is a
member. -/
def readMembers : Nat → Bool → List Mark → Option (List Member × List Mark)
  | 0, _, _ => none
  | _, _, [] => none
  | fuel + 1, first, (c, active) :: rest =>
    if !first && active && c = ']' then some ([], rest)
    else
      let add (member : Member) (rest : List Mark) : Option (List Member × List Mark) :=
        (readMembers fuel false rest).map fun (members, rest) => (member :: members, rest)
      match if active && c = '[' then readKind rest else none with
      | some (name, rest) => add (.kind name) rest
      | none =>
        match rest with
        | ('-', true) :: (high, highActive) :: after =>
          if highActive && high = ']' then add (.between c c) rest
          else add (.between c high) after
        | rest => add (.between c c) rest

/-- The set behind an opening bracket, and what follows it. -/
def readSet (marks : List Mark) : Option (Sign × List Mark) :=
  let (negated, rest) : Bool × List Mark := match marks with
    | ('!', true) :: rest => (true, rest)
    | rest => (false, rest)
  (readMembers (rest.length + 1) true rest).map fun (members, rest) =>
        (.oneOf negated members, rest)

/-- An active backslash takes the activity from the character behind it. -/
def unescaped : List Mark → List Mark
  | ('\\', true) :: (c, _) :: rest => (c, false) :: unescaped rest
  | [('\\', true)] => [('\\', false)]
  | mark :: rest => mark :: unescaped rest
  | [] => []

/-- The parts of a pattern. The first argument bounds the number of characters. -/
def signs : Nat → List Mark → List Sign
  | 0, _ => []
  | _, [] => []
  | fuel + 1, (c, false) :: rest => .exactly c :: signs fuel rest
  | fuel + 1, (c, true) :: rest =>
    if c = '?' then .anyOne :: signs fuel rest
    else if c = '*' then .anyText :: signs fuel rest
    else
      match if c = '[' then readSet rest else none with
      | some (sign, rest) => sign :: signs fuel rest
      | none => .exactly c :: signs fuel rest

def ofMarks (marks : List Mark) : List Sign :=
  let marks := unescaped marks
  signs marks.length marks

def Sign.holds (c : Char) : Sign → Bool
  | .exactly d => c = d
  | .oneOf negated members => members.any (Member.holds c) != negated
  | _ => true

/-- Whether a text has the form of a pattern. -/
def fits : List Sign → List Char → Bool
  | [], cs => cs.isEmpty
  | .anyText :: rest, [] => fits rest []
  | .anyText :: rest, c :: cs => fits rest (c :: cs) || fits (.anyText :: rest) cs
  | _ :: _, [] => false
  | sign :: rest, c :: cs => Sign.holds c sign && fits rest cs
termination_by signs cs => signs.length + cs.length

/-- Whether the parts stand for anything but one text. -/
def isOpen (signs : List Sign) : Bool :=
  signs.any fun sign => match sign with
    | .exactly _ => false
    | _ => true

/-- The front of a text that has the form of a pattern, the longest or the shortest one. -/
def front? (longest : Bool) (signs : List Sign) (cs : List Char) : Option Nat :=
  let lengths := List.range (cs.length + 1)
  (if longest then lengths.reverse else lengths).find? fun n => fits signs (cs.take n)

/-- How much stands before the end of a text that has the form of a pattern. -/
def back? (longest : Bool) (signs : List Sign) (cs : List Char) : Option Nat :=
  let lengths := List.range (cs.length + 1)
  (if longest then lengths else lengths.reverse).find? fun n => fits signs (cs.drop n)

/-- The steps of a pattern of files. -/
def steps : List Mark → List (List Mark)
  | [] => [[]]
  | mark :: rest =>
    match steps rest with
    | step :: more => if mark.1 = '/' then [] :: step :: more else (mark :: step) :: more
    | [] => [[mark]]

def sorted (names : List String) : List String :=
  names.mergeSort fun a b => decide (a ≤ b)

/-- The names in a directory that a step fits. -/
def namesAt (tree : FileTree) (home : Location) (path : String) (step : List Mark) :
    List String :=
  match tree.directoryAt home (Octets.toPath (if path.isEmpty then "." else path)) with
  | .error _ => []
  | .ok loc =>
    let signs := ofMarks step
    let shown (name : String) : Bool :=
      name.toList.head? ≠ some '.' || (unescaped step).head?.map (·.1) = some '.'
    ([".", ".."] ++ (tree.names loc).map Octets.ofSpelling).filter fun name =>
      shown name && fits signs name.toList

/-- The paths that some steps lead to behind a path. -/
def pathsFrom (tree : FileTree) (home : Location) : List (List Mark) → String → List String
  | [], path => if (tree.locatePath home .entry (Octets.toPath path)).toBool &&
      ((tree.locatePath home .entry (Octets.toPath path)).toOption.bind tree.get?).isSome
    then [path] else []
  | step :: rest, path =>
    let onward (name : String) : List String :=
      pathsFrom tree home rest (path ++ name ++ if rest.isEmpty then "" else "/")
    if isOpen (ofMarks step) then (namesAt tree home path step).flatMap onward
    else onward (textOfMarks (unescaped step))

/-- The files that a pattern stands for. There are none for a pattern without anything active. -/
def files (tree : FileTree) (home : Location) (marks : List Mark) : List String :=
  let steps := steps marks
  if steps.any fun step => isOpen (ofMarks step) then sorted (pathsFrom tree home steps "")
  else []

end Pattern
end Agentry.Host

import Agentry.Host.Numeral
import Agentry.Host.Pattern
/-!
# Regular expressions

A regular expression is read in one of two spellings, which differ in whether a backslash gives or
takes the meaning of the signs for groups, choices and repetitions. It is matched at the first place
where it can be, and each repetition takes as much as it can.
-/
namespace Agentry.Host

inductive Regular where
  | nothing
  | char (c : Char)
  | any
  | oneOf (negative : Bool) (members : List Member)
  | front
  | back
  /-- An edge of a word: its beginning, its end, or one of them. -/
  | edge (atStart atEnd : Bool)
  | group (index : Nat) (body : Regular)
  | sequence (first second : Regular)
  | choice (first second : Regular)
  | repeated (least : Nat) (most : Option Nat) (body : Regular)
  /-- What a group matched, once more. -/
  | same (index : Nat)

namespace Regular

/-- How many groups are numbered. -/
def groupCount : Regular → Nat
  | .group index body => max index body.groupCount
  | .sequence first second => max first.groupCount second.groupCount
  | .choice first second => max first.groupCount second.groupCount
  | .repeated _ _ body => body.groupCount
  | _ => 0

/-- Why a text is no regular expression. -/
inductive Fault where
  | openGroup
  | openSet
  | openCount
  | badCount
  | strayClose
  | strayBackslash
  | badReference
  deriving DecidableEq, Repr

def Fault.message : Fault → String
  | .openGroup => "Unmatched ( or \\("
  | .openSet => "Invalid regular expression"
  | .openCount => "Unmatched \\\x7b"
  | .badCount => "Invalid content of \\\x7b\\\x7d"
  | .strayClose => "Unmatched ) or \\)"
  | .strayBackslash => "Trailing backslash"
  | .badReference => "Invalid back reference"

/-- The characters that are left, and how many groups were opened. -/
structure Source where
  rest : List Char
  groups : Nat

abbrev Reader := StateT Source (Except Fault)

def isWordChar (c : Char) : Bool := c.isAlphanum || c = '_'

def wordMembers : List Member := [.kind "alnum", .between '_' '_']

/-- What is special at the front of a text, and what follows it. -/
inductive Sign where
  | openGroup
  | closeGroup
  | choice
  | openCount
  | star
  | plus
  | question

/-- The sign at the front of a text. -/
def sign? (extended : Bool) : List Char → Option (Sign × List Char)
  | '*' :: rest => some (.star, rest)
  | '\\' :: c :: rest => if extended then none else (ofChar? c).map (·, rest)
  | c :: rest => if extended then (ofChar? c).map (·, rest) else none
  | [] => none
where
  ofChar? (c : Char) : Option Sign :=
    if c = '(' then some .openGroup
    else if c = ')' then some .closeGroup
    else if c = '|' then some .choice
    else if c = '\x7b' then some .openCount
    else if c = '+' then some .plus
    else if c = '?' then some .question
    else none

/-- The bounds of a count, and what follows its closing. -/
def readCount (extended : Bool) (cs : List Char) : Except Fault (Nat × Option Nat × List Char) :=
  let least := cs.takeWhile Json.isDigit
  let rest := cs.drop least.length
  let (most, rest) : Option (List Char) × List Char := match rest with
    | ',' :: rest =>
      let digits := rest.takeWhile Json.isDigit
      (some digits, rest.drop digits.length)
    | rest => (none, rest)
  let closing : List Char := if extended then ['\x7d'] else ['\\', '\x7d']
  if !closing.isPrefixOf rest then .error (if rest.isEmpty then .openCount else .badCount)
  else
    let n := Json.digitsValue least
    let bound : Option Nat := match most with
      | none => some n
      | some digits => if digits.isEmpty then none else some (Json.digitsValue digits)
    if least.isEmpty && most.isNone then .error .badCount
    else .ok (n, bound, rest.drop closing.length)

def take (rest : List Char) : Reader Unit := modify fun source => { source with rest }

mutual

def readChoice (extended inGroup : Bool) : Nat → Reader Regular
  | 0 => return .nothing
  | fuel + 1 => do
    let first ← readSequence extended inGroup fuel true
    match sign? extended (← get).rest with
    | some (.choice, rest) =>
      take rest
      return .choice first (← readChoice extended inGroup fuel)
    | _ => return first

def readSequence (extended inGroup : Bool) : Nat → Bool → Reader Regular
  | 0, _ => return .nothing
  | fuel + 1, first => do
    let source ← get
    match source.rest, sign? extended source.rest with
    | [], _ => return .nothing
    | _, some (.choice, _) => return .nothing
    | _, some (.closeGroup, _) =>
      if inGroup then return .nothing
      else if extended then
        take (source.rest.drop 1)
        return .sequence (.char ')') (← readSequence extended inGroup fuel false)
      else throw .strayClose
    | _, _ =>
      let atom ← readAtom extended fuel first
      let isFront := match atom with
        | .front => first && !extended
        | _ => false
      let atom ← readRepeats extended fuel atom isFront
      return .sequence atom (← readSequence extended inGroup fuel isFront)

def readRepeats (extended : Bool) : Nat → Regular → Bool → Reader Regular
  | 0, atom, _ => return atom
  | fuel + 1, atom, isFront => do
    if isFront then return atom
    match sign? extended (← get).rest with
    | some (.star, rest) =>
      take rest
      readRepeats extended fuel (.repeated 0 none atom) false
    | some (.plus, rest) =>
      take rest
      readRepeats extended fuel (.repeated 1 none atom) false
    | some (.question, rest) =>
      take rest
      readRepeats extended fuel (.repeated 0 (some 1) atom) false
    | some (.openCount, rest) =>
      match readCount extended rest with
      | .ok (least, most, rest) =>
        take rest
        readRepeats extended fuel (.repeated least most atom) false
      | .error fault => throw fault
    | _ => return atom

def readAtom (extended : Bool) : Nat → Bool → Reader Regular
  | 0, _ => return .nothing
  | fuel + 1, first => do
    let source ← get
    match sign? extended source.rest, source.rest with
    | some (.openGroup, rest), _ =>
      set (⟨rest, source.groups + 1⟩ : Source)
      let body ← readChoice extended true fuel
      match sign? extended (← get).rest with
      | some (.closeGroup, rest) =>
        take rest
        return .group (source.groups + 1) body
      | _ => throw .openGroup
    | _, '.' :: rest =>
      take rest
      return .any
    | _, '[' :: rest =>
      let (negative, members) := match rest with
        | '^' :: rest => (true, rest)
        | rest => (false, rest)
      match Pattern.readMembers (members.length + 1) true (members.map (·, true)) with
      | some (members, rest) =>
        take (rest.map (·.1))
        return .oneOf negative members
      | none => throw .openSet
    | _, '^' :: rest =>
      take rest
      return if extended || first then .front else .char '^'
    | _, '$' :: rest =>
      take rest
      let ends := match sign? extended rest with
        | some (.closeGroup, _) => true
        | some (.choice, _) => true
        | _ => rest.isEmpty
      return if extended || ends then .back else .char '$'
    | _, ['\\'] => throw .strayBackslash
    | _, '\\' :: c :: rest =>
      take rest
      if c.isDigit && c ≠ '0' then
        let index := c.toNat - '0'.toNat
        if index ≤ source.groups then return .same index else throw .badReference
      else if c = 'w' then return .oneOf false wordMembers
      else if c = 'W' then return .oneOf true wordMembers
      else if c = 's' then return .oneOf false [.kind "space"]
      else if c = 'S' then return .oneOf true [.kind "space"]
      else if c = 'b' then return .edge true true
      else if c = '<' then return .edge true false
      else if c = '>' then return .edge false true
      else return .char c
    | _, c :: rest =>
      take rest
      return .char c
    | _, [] => return .nothing

end

/-- Reads a regular expression. -/
def ofText (extended : Bool) (text : String) : Except Fault Regular :=
  let cs := text.toList
  match readChoice extended false (4 * cs.length + 4) ⟨cs, 0⟩ with
  | .ok (regular, _) => .ok regular
  | .error fault => .error fault

/-- A place in a text, and what groups matched, the last one first. -/
structure Cursor where
  before : Option Char
  rest : List Char
  place : Nat
  groups : List (Nat × List Char)

def Cursor.step (cursor : Cursor) : Option (Char × Cursor) :=
  match cursor.rest with
  | [] => none
  | c :: rest => some (c, { cursor with before := some c, rest, place := cursor.place + 1 })

/-- Goes on behind a match. -/
abbrev Next := Cursor → Option Cursor

/-- A repetition of what a step matches. One that matches nothing ends it. -/
def repeatStep (step : Cursor → Next → Option Cursor) (next : Next) :
    Nat → Nat → Option Nat → Cursor → Option Cursor
  | 0, _, _, cursor => next cursor
  | fuel + 1, least, most, cursor =>
    let more : Option Cursor :=
      if most = some 0 then none
      else
        step cursor fun after =>
          if after.place = cursor.place && least = 0 then none
          else repeatStep step next fuel (least - 1) (most.map (· - 1)) after
    match more with
    | some found => some found
    | none => if least = 0 then next cursor else none

def matchAt (fold : Char → Char) : Regular → Cursor → Next → Option Cursor
  | .nothing, cursor, next => next cursor
  | .char c, cursor, next =>
    match cursor.step with
    | some (d, after) => if fold c = fold d then next after else none
    | none => none
  | .any, cursor, next => cursor.step.bind fun (_, after) => next after
  | .oneOf negative members, cursor, next =>
    match cursor.step with
    | some (c, after) =>
      let holds := members.any fun member =>
        Pattern.Member.holds c member || Pattern.Member.holds (fold c) member
      if holds ≠ negative then next after else none
    | none => none
  | .front, cursor, next => if cursor.place = 0 then next cursor else none
  | .back, cursor, next => if cursor.rest.isEmpty then next cursor else none
  | .edge atStart atEnd, cursor, next =>
    let left := cursor.before.any isWordChar
    let right := cursor.rest.head?.any isWordChar
    if (atStart && !left && right) || (atEnd && left && !right) then next cursor else none
  | .group index body, cursor, next =>
    matchAt fold body cursor fun after =>
      let matched := cursor.rest.take (after.place - cursor.place)
      next { after with groups := (index, matched) :: after.groups }
  | .sequence first second, cursor, next =>
    matchAt fold first cursor fun after => matchAt fold second after next
  | .choice first second, cursor, next =>
    (matchAt fold first cursor next).or (matchAt fold second cursor next)
  | .repeated least most body, cursor, next =>
    repeatStep (fun cursor next => matchAt fold body cursor next) next
      (cursor.rest.length + least + 1) least most cursor
  | .same index, cursor, next =>
    let text := (cursor.groups.lookup index).getD []
    if text.isPrefixOf cursor.rest then
      next { cursor with
        before := text.getLast?.or cursor.before, rest := cursor.rest.drop text.length
        place := cursor.place + text.length }
    else none

/-- A match: where it begins, and the place behind it. -/
structure Match where
  start : Nat
  stop : Cursor

def Match.length (found : Match) : Nat := found.stop.place - found.start

/-- The first match from a place on. -/
def find (fold : Char → Char) (regular : Regular) : Nat → Cursor → Option Match
  | 0, _ => none
  | fuel + 1, cursor =>
    match matchAt fold regular { cursor with groups := [] } some with
    | some stop => some ⟨cursor.place, stop⟩
    | none => cursor.step.bind fun (_, after) => find fold regular fuel after

/-- The first match in a text. -/
def findIn (fold : Char → Char) (regular : Regular) (text : List Char) : Option Match :=
  find fold regular (text.length + 1) ⟨none, text, 0, []⟩

end Regular
end Agentry.Host

import Agentry.Host.Regular
import Agentry.Json.Number
/-!
# Scripts for editing lines

A script is a list of edits. Each is done on the lines that its selector holds for: a line with some
number, the last one, one in which a regular expression matches, or those from one such line to
another. An edit can be a block of edits, which is kept as their number in front of them.
-/
namespace Agentry.Host

/-- What is looked for in a line. Without an expression it is the one that was used last. -/
structure Finder where
  regular : Option Regular
  ignoringCase : Bool

inductive Address where
  | number (n : Nat)
  | every (first step : Nat)
  | last
  | finder (finder : Finder)

/-- Where a range of lines ends. -/
inductive RangeEnd where
  | upTo (address : Address)
  | after (lines : Nat)
  | multiple (n : Nat)

structure Selector where
  start : Option Address
  stop : Option RangeEnd
  negated : Bool

/-- A part of what is put in the place of a match. A turn changes the case of what follows. -/
inductive ReplacementPart where
  | text (c : Char)
  | group (index : Nat)
  | turn (letter : Char)
  deriving DecidableEq

structure Substitution where
  finder : Finder
  parts : List ReplacementPart
  /-- The match that is the first to be replaced. -/
  count : Nat
  all : Bool
  shows : Bool
  file : Option String

inductive Edit where
  | nothing
  | block (size : Nat)
  | mark (label : String)
  | jump (condition : Option Bool) (label : String)
  | substitute (substitution : Substitution)
  | exchange (pairs : List (Char × Char))
  | append (text : List Char)
  | insert (text : List Char)
  | change (text : List Char)
  | readFile (path : String)
  | writeFile (path : String)
  | quit (code : Nat) (shows : Bool)
  | spell (width : Option Nat)
  /-- An edit that is told by its letter. -/
  | plain (letter : Char)

namespace EditScript

/-- Why a text is no script, and how many characters of it are not read yet, if that is told. -/
structure Fault where
  message : String
  left : Option Nat

abbrev Reader := StateT (List Char) (Except Fault)

def fail (message : String) : Reader α := do
  throw ⟨message, some (← get).length⟩

def isBlank (c : Char) : Bool := c.isWhitespace

/-- The next character, which is taken. -/
def next : Reader (Option Char) := do
  match ← get with
  | c :: rest =>
    set rest
    return some c
  | [] => return none

def skip (p : Char → Bool) : Reader Unit := modify (List.dropWhile p)

/-- The next character that is not blank. -/
def nextSolid : Reader (Option Char) := do
  skip fun c => isBlank c && c ≠ '\n'
  next

def number : Reader Nat := do
  let digits := (← get).takeWhile Json.isDigit
  modify (List.drop digits.length)
  return Json.digitsValue digits

/-- What stands in front of a delimiter, which is taken too. In an expression a delimiter behind a
backslash stands for itself, and so does a line end. -/
def upTo (delimiter : Char) (inExpression : Bool) (message : String) : Reader (List Char) := do
  let rec go : List Char → Option (List Char × List Char)
    | [] => none
    | '\n' :: _ => none
    | ['\\'] => none
    | '\\' :: c :: rest =>
      (go rest).map fun (cs, rest) =>
        if c = delimiter && (inExpression || c ≠ '&') || c = '\n' then (c :: cs, rest)
        else if c = 'n' && inExpression then ('\n' :: cs, rest)
        else ('\\' :: c :: cs, rest)
    | c :: rest =>
      if c = delimiter then some ([], rest) else (go rest).map fun (cs, rest) => (c :: cs, rest)
  match go (← get) with
  | some (cs, rest) =>
    set rest
    return cs
  | none =>
    modify fun cs => cs.dropWhile (· ≠ '\n')
    fail message

/-- The finder for a text. Nothing stands for the expression that was used last. -/
def finderOf (extended : Bool) (text : List Char) (ignoringCase : Bool) : Reader Finder := do
  if text.isEmpty then return ⟨none, ignoringCase⟩
  match Regular.ofText extended (String.ofList text) with
  | .ok regular => return ⟨some regular, ignoringCase⟩
  | .error fault => fail fault.message

def addressFinder (extended : Bool) (delimiter : Char) : Reader Address := do
  let text ← upTo delimiter true "unterminated address regex"
  let flags := (← get).takeWhile fun c => c = 'I' || c = 'M'
  modify (List.drop flags.length)
  return .finder (← finderOf extended text (flags.contains 'I'))

/-- An address, if one stands there. -/
def address (extended : Bool) : Reader (Option Address) := do
  skip fun c => isBlank c && c ≠ '\n'
  match ← get with
  | '/' :: rest =>
    set rest
    return some (← addressFinder extended '/')
  | '\\' :: c :: rest =>
    set rest
    return some (← addressFinder extended c)
  | '$' :: rest =>
    set rest
    return some .last
  | c :: _ =>
    if c.isDigit then
      let n ← number
      match ← get with
      | '~' :: rest =>
        set rest
        let step ← number
        return some (if step = 0 then .number n else .every n step)
      | _ => return some (.number n)
    else return none
  | [] => return none

def rangeEnd (extended : Bool) : Reader RangeEnd := do
  skip fun c => isBlank c && c ≠ '\n'
  match ← get with
  | '+' :: rest =>
    set rest
    return .after (← number)
  | '~' :: rest =>
    set rest
    return .multiple (← number)
  | _ =>
    match ← address extended with
    | some address => return .upTo address
    | none =>
      let _ ← next
      fail "unexpected \x60,'"

def isFinder : RangeEnd → Bool
  | .upTo (.finder _) => true
  | _ => false

def selector (extended : Bool) : Reader Selector := do
  let start ← address extended
  skip fun c => isBlank c && c ≠ '\n'
  let stop ← match start, ← get with
    | some _, ',' :: rest => do
      set rest
      pure (some (← rangeEnd extended))
    | _, _ => pure none
  if let some (.number 0) := start then
    unless stop.any isFinder do
      let _ ← nextSolid
      fail "invalid usage of line address 0"
  skip fun c => isBlank c && c ≠ '\n'
  match ← get with
  | '!' :: rest =>
    set rest
    skip fun c => isBlank c && c ≠ '\n'
    if (← get).head? = some '!' then
      let _ ← next
      fail "multiple \x60!'s"
    return ⟨start, stop, true⟩
  | _ => return ⟨start, stop, false⟩

/-- The end of an edit. -/
def finish : Reader Unit := do
  skip fun c => isBlank c && c ≠ '\n'
  match ← get with
  | [] => return
  | c :: rest =>
    if c = '\n' || c = ';' then set rest
    else if c ≠ '\x7d' && c ≠ '#' then
      set rest
      fail "extra characters after command"

def label : Reader String := do
  skip fun c => isBlank c && c ≠ '\n'
  let cs := (← get).takeWhile fun c => !isBlank c && c ≠ ';' && c ≠ '\x7d'
  modify (List.drop cs.length)
  return String.ofList cs

/-- The name of a file, which is what is left of the line. -/
def fileName : Reader String := do
  skip fun c => isBlank c && c ≠ '\n'
  let cs := (← get).takeWhile (· ≠ '\n')
  modify (List.drop (cs.length + 1))
  if cs.isEmpty then fail "missing filename in r/R/w/W commands" else return String.ofList cs

/-- Lines up to one that has no backslash at its end. -/
def textLines : List Char → List Char × List Char
  | [] => ([], [])
  | ['\\'] => ([], [])
  | '\\' :: c :: rest =>
    let (cs, rest) := textLines rest
    (c :: cs, rest)
  | c :: rest =>
    if c = '\n' then ([], rest)
    else
      let (cs, rest) := textLines rest
      (c :: cs, rest)

/-- The text of an edit that puts lines in. -/
def text : Reader (List Char) := do
  skip fun c => isBlank c && c ≠ '\n'
  match ← get with
  | [] => fail "expected \\ after \x60a', \x60c' or \x60i'"
  | ['\\'] =>
    set ([] : List Char)
    return []
  | '\\' :: '\n' :: rest => set rest
  | '\\' :: rest => if rest.head?.any isBlank then set rest
  | _ => return ← lines
  lines
where
  lines : Reader (List Char) := do
    match ← get with
    | [] => return []
    | cs =>
      let (cs, rest) := textLines cs
      set rest
      return cs ++ ['\n']

/-- The parts of what is put in the place of a match. -/
def partsOf : List Char → List ReplacementPart
  | '\\' :: c :: rest =>
    let part : ReplacementPart :=
      if c.isDigit then .group (c.toNat - '0'.toNat)
      else if "LUEul".toList.contains c then .turn c
      else if c = 'n' then .text '\n'
      else if c = 't' then .text '\t'
      else .text c
    part :: partsOf rest
  | '&' :: rest => .group 0 :: partsOf rest
  | c :: rest => .text c :: partsOf rest
  | [] => []

def optionTwice (what : String) : Reader α :=
  fail ("multiple " ++ what ++ " options to \x60s' command")

/-- The options of a substitution. -/
def options : Nat → Substitution → Bool → Reader (Substitution × Bool)
  | 0, found, ignoring => return (found, ignoring)
  | fuel + 1, found, ignoring => do
    match ← get with
    | [] => return (found, ignoring)
    | c :: rest =>
      if c = '\x7d' || c = '#' then return (found, ignoring)
      set rest
      if c = '\n' || c = ';' then return (found, ignoring)
      else if isBlank c then options fuel found ignoring
      else if c = 'i' || c = 'I' then options fuel found true
      else if c = 'm' || c = 'M' then options fuel found ignoring
      else if c = 'g' then
        if found.all then optionTwice "\x60g'"
        options fuel { found with all := true } ignoring
      else if c = 'p' then
        if found.shows then optionTwice "\x60p'"
        options fuel { found with shows := true } ignoring
      else if c = 'w' then return ({ found with file := some (← fileName) }, ignoring)
      else if c.isDigit then
        set (c :: rest)
        let n ← number
        if found.count ≠ 0 then optionTwice "number"
        if n = 0 then fail "number option to \x60s' command may not be zero"
        options fuel { found with count := n } ignoring
      else fail "unknown option to \x60s'"

def substitution (extended : Bool) : Reader Edit := do
  let unterminated := "unterminated \x60s' command"
  match ← next with
  | none => fail unterminated
  | some delimiter =>
    let sought ← upTo delimiter true unterminated
    let parts := partsOf (← upTo delimiter false unterminated)
    let (found, ignoring) ←
      options ((← get).length + 1) ⟨⟨none, false⟩, parts, 0, false, false, none⟩ false
    let finder ← finderOf extended sought ignoring
    let groups := match finder.regular with
      | some regular => regular.groupCount
      | none => 9
    let named := parts.foldl (fun (n : Nat) part => match part with
      | .group index => max n index
      | _ => n) 0
    if named > groups then
      fail ("invalid reference \\" ++ toString named ++ " on \x60s' command's RHS")
    return .substitute { found with finder, count := max 1 found.count }

/-- The characters of an exchange. -/
def exchanged : List Char → List Char
  | '\\' :: '\\' :: rest => '\\' :: exchanged rest
  | '\\' :: 'n' :: rest => '\n' :: exchanged rest
  | '\\' :: 't' :: rest => '\t' :: exchanged rest
  | c :: rest => c :: exchanged rest
  | [] => []

def exchange : Reader Edit := do
  let unterminated := "unterminated \x60y' command"
  match ← next with
  | none => fail unterminated
  | some delimiter =>
    let olds := exchanged (← upTo delimiter false unterminated)
    let news := exchanged (← upTo delimiter false unterminated)
    if olds.length ≠ news.length then fail "strings for \x60y' command are different lengths"
    finish
    return .exchange (olds.zip news)

/-- The edits that are told by their letters. -/
def plainLetters : List Char := "=dDgGhHnNpPxz".toList

/-- The edit for a letter. -/
def edit (extended : Bool) (selector : Selector) (c : Char) : Reader Edit := do
  if plainLetters.contains c then
    finish
    return .plain c
  else if c = 's' then substitution extended
  else if c = 'y' then exchange
  else if c = 'a' then return .append (← text)
  else if c = 'i' then return .insert (← text)
  else if c = 'c' then return .change (← text)
  else if c = 'r' then return .readFile (← fileName)
  else if c = 'w' then return .writeFile (← fileName)
  else if c = 'b' then return .jump none (← ended label)
  else if c = 't' then return .jump (some true) (← ended label)
  else if c = 'T' then return .jump (some false) (← ended label)
  else if c = ':' then
    if selector.start.isSome then fail ": doesn't want any addresses"
    let name ← label
    if name.isEmpty then fail "\":\" lacks a label"
    return .mark name
  else if c = 'q' || c = 'Q' then
    if selector.stop.isSome then fail "command only uses one address"
    skip fun c => isBlank c && c ≠ '\n'
    return .quit (← ended number) (c = 'q')
  else if c = 'l' then
    skip fun c => isBlank c && c ≠ '\n'
    let digits := (← get).takeWhile Json.isDigit
    let n ← number
    let width := if digits.isEmpty then none else some n
    finish
    return .spell width
  else if c = 'v' then
    let _ ← ended label
    return .nothing
  else if (c = '+' || c = '~') && selector.start.isNone then
    let _ ← number
    fail "invalid usage of +N or ~N as first address"
  else fail ("unknown command: \x60" ++ String.singleton c ++ "'")
where
  ended {α : Type} (read : Reader α) : Reader α := do
    let a ← read
    finish
    return a

/-- Reads edits up to the end of a block, or of the script. -/
def edits (extended inBlock : Bool) : Nat → Reader (List (Selector × Edit))
  | 0 => return []
  | fuel + 1 => do
    skip fun c => isBlank c || c = ';'
    if (← get).isEmpty then
      if inBlock then throw ⟨"unmatched \x60\x7b'", none⟩ else return []
    let selector ← selector extended
    match ← nextSolid with
    | none => fail "missing command"
    | some '#' =>
      if selector.start.isSome then fail "comments don't accept any addresses"
      skip (· ≠ '\n')
      edits extended inBlock fuel
    | some '\x7b' =>
      let body ← edits extended true fuel
      return (selector, .block body.length) :: body ++ (← edits extended inBlock fuel)
    | some '\x7d' =>
      if !inBlock then fail "unexpected \x60\x7d'"
      if selector.start.isSome then fail "\x7d doesn't want any addresses"
      finish
      return []
    | some c =>
      let first := (selector, ← edit extended selector c)
      return first :: (← edits extended inBlock fuel)

/-- Reads a script. -/
def ofText (extended : Bool) (text : String) : Except Fault (Array (Selector × Edit)) :=
  match edits extended false (text.length + 1) text.toList with
  | .ok (edits, _) => .ok edits.toArray
  | .error fault => .error fault

/-- A label that a script jumps to and does not have. -/
def missingLabel (script : Array (Selector × Edit)) : Option String :=
  script.toList.findSome? fun (_, edit) => match edit with
    | .jump _ label =>
      if label.isEmpty || script.any fun (_, edit) => match edit with
        | .mark name => name == label
        | _ => false
      then none
      else some label
    | _ => none

end EditScript
end Agentry.Host

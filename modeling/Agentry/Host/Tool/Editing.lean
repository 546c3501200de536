import Agentry.Host.Tool.EditScript
import Agentry.Host.Tool.Lines
/-!
# Editing lines by a script

A script is carried out once for each line. The line can be shown, changed and left out, and a
second text is held from line to line. What is put behind a line is written when the line is done
with.
-/
namespace Agentry.Host

/-- What is written behind a line: a text, or what a file holds then. -/
inductive Appended where
  | text (cs : List Char)
  | file (path : String)

/-- Where editing stands. Lines that are left stand beside whether they are ended. -/
structure Editing where
  left : List (List Char × Bool)
  number : Nat
  /-- The line that is edited, and whether it is ended. -/
  line : List Char
  ended : Bool
  held : List Char
  heldEnded : Bool
  replaced : Bool
  appended : List Appended
  /-- The selectors whose ranges are open, and the line that ends such a range if that is known. -/
  ranges : List (Nat × Option Nat)
  lastRegular : Option Regular
  output : String
  /-- The end of the last line that was written is missing. -/
  unended : Bool
  files : List (String × String)

/-- What follows when a script has been carried out for a line. -/
inductive Turn where
  | done
  | dropped
  | again
  | quit (code : Nat) (shows : Bool)
  | missingExpression
  | endless

namespace Editing

def start (left : List (List Char × Bool)) (files : List (String × String)) : Editing :=
  ⟨left, 0, [], true, [], true, false, [], [], none, "", false, files⟩

/-- Writes a text. A line end that is missing comes first. -/
def write (editing : Editing) (cs : List Char) : Editing :=
  let front := if editing.unended then "\n" else ""
  { editing with output := editing.output ++ front ++ String.ofList cs, unended := false }

/-- Writes a line, which is ended as the one that is edited is. -/
def writeLine (editing : Editing) (cs : List Char) : Editing :=
  if editing.ended then editing.write (cs ++ ['\n'])
  else { editing.write cs with unended := true }

def writeTo (editing : Editing) (path : String) (cs : List Char) : Editing :=
  if path = "/dev/stdout" then
    let back := if editing.ended then "\n" else ""
    { editing with output := editing.output ++ String.ofList cs ++ back }
  else
    { editing with
      files := editing.files.map fun (name, text) =>
        if name = path then (name, text ++ String.ofList cs ++ "\n") else (name, text) }

/-- Writes what is put behind the line. -/
def flush (readFile : String → List Char) (editing : Editing) : Editing :=
  let step (editing : Editing) : Appended → Editing
    | .text cs => editing.write cs
    | .file path =>
      let cs := readFile path
      if cs.isEmpty then editing
      else { editing.write cs with unended := false }
  { editing.appended.foldl step editing with appended := [] }

/-- Takes the next line. -/
def advance (editing : Editing) : Option Editing :=
  match editing.left with
  | (line, ended) :: left => some { editing with left, line, ended, number := editing.number + 1 }
  | [] => none

def foldOf (finder : Finder) : Char → Char :=
  if finder.ignoringCase then Text.asciiLower else id

/-- What a finder looks for, which is then the expression that was used last. -/
def regularOf (editing : Editing) (finder : Finder) : Option Regular :=
  finder.regular.or editing.lastRegular

def used (editing : Editing) (finder : Finder) : Editing :=
  { editing with lastRegular := editing.regularOf finder }

/-- Whether an address is that of the line. -/
def isAt (editing : Editing) : Address → Bool
  | .number n => editing.number = n
  | .every first step =>
    if editing.number < first then false else (editing.number - first) % step = 0
  | .last => editing.left.isEmpty
  | .finder finder =>
    match editing.regularOf finder with
    | some regular => (Regular.findIn (foldOf finder) regular editing.line).isSome
    | none => false

def usedBy (editing : Editing) : Address → Editing
  | .finder finder => editing.used finder
  | _ => editing

def close (editing : Editing) (index : Nat) : Editing :=
  { editing with ranges := editing.ranges.filter (·.1 != index) }

def openTo (editing : Editing) (index : Nat) (stop : Option Nat) : Editing :=
  { editing with ranges := editing.ranges ++ [(index, stop)] }

/-- Whether a line begins a range, which is then open if it goes on. -/
def opens (editing : Editing) (index : Nat) (start : Address) (stop : RangeEnd) : Bool × Editing :=
  let editing := editing.usedBy start
  if !editing.isAt start then (false, editing)
  else
    let reach (n : Nat) : Bool × Editing :=
      (true, if n ≤ editing.number then editing else editing.openTo index (some n))
    match stop with
    | .upTo (.number n) => reach n
    | .upTo _ => (true, editing.openTo index none)
    | .after lines => reach (editing.number + lines)
    | .multiple n => reach (if n = 0 then 0 else (editing.number / n + 1) * n)

/-- Whether the selector of an edit holds for the line. -/
def selects (editing : Editing) (index : Nat) (selector : Selector) : Bool × Editing :=
  let (holds, editing) : Bool × Editing := match selector.start, selector.stop with
    | none, _ => (true, editing)
    | some start, none => (editing.isAt start, editing.usedBy start)
    | some start, some stop =>
      match editing.ranges.lookup index, stop with
      | some (some n), _ =>
        (decide (editing.number ≤ n), if editing.number ≥ n then editing.close index else editing)
      | some none, .upTo address =>
        let editing := editing.usedBy address
        (true, if editing.isAt address then editing.close index else editing)
      | some none, _ => (true, editing)
      | none, .upTo address =>
        match start with
        | .number 0 =>
          if editing.number ≠ 1 then (false, editing)
          else
            let editing := editing.usedBy address
            (true, if editing.isAt address then editing else editing.openTo index none)
        | _ => editing.opens index start stop
      | none, _ => editing.opens index start stop
  (holds != selector.negated, editing)

/-- What changes the case of a text: of all that follows, and of its next character. -/
structure Casing where
  all : Char → Char
  next : Option (Char → Char)

def Casing.turn (casing : Casing) (letter : Char) : Casing :=
  if letter = 'U' then ⟨Char.toUpper, casing.next⟩
  else if letter = 'L' then ⟨Char.toLower, casing.next⟩
  else if letter = 'u' then { casing with next := some Char.toUpper }
  else if letter = 'l' then { casing with next := some Char.toLower }
  else ⟨id, none⟩

def Casing.apply (casing : Casing) : List Char → List Char × Casing
  | [] => ([], casing)
  | c :: rest =>
    ((casing.next.getD casing.all) c :: rest.map casing.all, { casing with next := none })

/-- What stands in the place of a match. -/
def expand (whole : List Char) (groups : List (Nat × List Char)) :
    Casing → List ReplacementPart → List Char
  | _, [] => []
  | casing, part :: parts =>
    match part with
    | .turn letter => expand whole groups (casing.turn letter) parts
    | .text c =>
      let (cs, casing) := casing.apply [c]
      cs ++ expand whole groups casing parts
    | .group index =>
      let matched := if index = 0 then whole else (groups.lookup index).getD []
      let (cs, casing) := casing.apply matched
      cs ++ expand whole groups casing parts

/-- The line with matches replaced, and whether there were any. `touching` says that a match ends
where reading goes on, and `n` matches were found. -/
def replace (fold : Char → Char) (regular : Regular) (substitution : Substitution) :
    Nat → Nat → Bool → Regular.Cursor → List Char × Bool
  | 0, _, _, cursor => (cursor.rest, false)
  | fuel + 1, n, touching, cursor =>
    match Regular.find fold regular (cursor.rest.length + 1) cursor with
    | none => (cursor.rest, false)
    | some found =>
      let front := cursor.rest.take (found.start - cursor.place)
      let whole := (cursor.rest.drop front.length).take found.length
      let stop := { found.stop with groups := [] }
      let goOn (n : Nat) (text : List Char) (changed : Bool) : List Char × Bool :=
        if whole.isEmpty then
          match stop.step with
          | none => (text, changed)
          | some (c, after) =>
            let (rest, more) := replace fold regular substitution fuel n false after
            (text ++ c :: rest, changed || more)
        else
          let (rest, more) := replace fold regular substitution fuel n true stop
          (text ++ rest, changed || more)
      if touching && whole.isEmpty && front.isEmpty then goOn n [] false
      else if n + 1 < substitution.count then goOn (n + 1) (front ++ whole) false
      else
        let text := front ++ expand whole found.stop.groups ⟨id, none⟩ substitution.parts
        if substitution.all then goOn (n + 1) text true else (text ++ stop.rest, true)

def substitute (editing : Editing) (substitution : Substitution) : Editing :=
  match editing.regularOf substitution.finder with
  | none => editing
  | some regular =>
    let editing := editing.used substitution.finder
    let (line, changed) := replace (foldOf substitution.finder) regular substitution
      (2 * editing.line.length + 2) 0 false ⟨none, editing.line, 0, []⟩
    if !changed then editing
    else
      let editing := { editing with line, replaced := true }
      let editing := if substitution.shows then editing.writeLine line else editing
      match substitution.file with
      | some path => editing.writeTo path line
      | none => editing

/-- The part of a line in front of its first line end, and the part behind it. -/
def firstLine (line : List Char) : List Char × Option (List Char) :=
  let first := line.takeWhile (· ≠ '\n')
  (first, (line.drop first.length).tail?)

/-- The width of a line that is spelled out. -/
def spellWidth : Nat := 70

/-- A character as it is spelled out. -/
def spelling (c : Char) : List Char :=
  match [('\\', '\\'), ('\x07', 'a'), ('\x08', 'b'), ('\x0c', 'f'), ('\n', 'n'), ('\r', 'r'),
    ('\t', 't'), ('\x0b', 'v')].lookup c with
  | some letter => ['\\', letter]
  | none =>
    if Tool.isPlain c then [c]
    else
      let n := c.toNat
      ['\\', Nat.digitChar (n / 64), Nat.digitChar (n / 8 % 8), Nat.digitChar (n % 8)]

/-- A line that is spelled out, in pieces that end in a backslash. -/
def spelled (width : Nat) (line : List Char) : List Char :=
  let (text, _) := line.foldl (fun (text, used) c =>
    let piece := spelling c
    if width > 1 && used + piece.length > width - 1 then
      (text ++ ['\\', '\n'] ++ piece, piece.length)
    else (text ++ piece, used + piece.length)) (([], 0) : List Char × Nat)
  text ++ ['$', '\n']

/-- What goes on behind an edit: with the next one, or with the next line. -/
abbrev Step := Editing × Option Turn

/-- Takes the next line, after what is put behind this one. -/
def takeNext (readFile : String → List Char) (editing : Editing)
    (combine : List Char → List Char) : Step :=
  match (editing.flush readFile).advance with
  | some after => ({ after with line := combine after.line }, none)
  | none => (editing, some .done)

/-- Does an edit that is told by its letter. -/
def plain (readFile : String → List Char) (quiet : Bool) (editing : Editing) (letter : Char) :
    Step :=
  let line := editing.line
  let on (editing : Editing) : Step := (editing, none)
  if letter = '=' then on (editing.write (toString editing.number ++ "\n").toList)
  else if letter = 'd' then (editing, some .dropped)
  else if letter = 'D' then
    match firstLine line with
    | (_, some rest) => ({ editing with line := rest }, some .again)
    | (_, none) => (editing, some .dropped)
  else if letter = 'g' then on { editing with line := editing.held, ended := editing.heldEnded }
  else if letter = 'G' then
    on { editing with
      line := line ++ '\n' :: editing.held, ended := editing.ended || editing.heldEnded }
  else if letter = 'h' then on { editing with held := line, heldEnded := editing.ended }
  else if letter = 'H' then
    on { editing with
      held := editing.held ++ '\n' :: line, heldEnded := editing.heldEnded || editing.ended }
  else if letter = 'n' then
    if editing.left.isEmpty then (editing, some .done)
    else takeNext readFile (if quiet then editing else editing.writeLine line) id
  else if letter = 'N' then takeNext readFile editing fun added => line ++ '\n' :: added
  else if letter = 'p' then on (editing.writeLine line)
  else if letter = 'P' then on (editing.write ((firstLine line).1 ++ ['\n']))
  else if letter = 'x' then on { editing with
    line := editing.held, ended := editing.heldEnded, held := line, heldEnded := editing.ended }
  else on { editing with line := [] }

/-- Whether a finder stands for the expression that was used last, and there is none. -/
def lacks (editing : Editing) (finder : Finder) : Bool := (editing.regularOf finder).isNone

def lacksStart (editing : Editing) (selector : Selector) : Bool :=
  match selector.start with
  | some (.finder finder) => editing.lacks finder
  | _ => false

/-- Carries out a script from one of its edits on. -/
def carryOut (script : Array (Selector × Edit)) (readFile : String → List Char) (quiet : Bool) :
    Nat → Nat → Editing → Editing × Turn
  | 0, _, editing => (editing, .endless)
  | fuel + 1, index, editing =>
    match script[index]? with
    | none => (editing, .done)
    | some (selector, edit) =>
      if editing.lacksStart selector then (editing, .missingExpression)
      else
        let go (index : Nat) (editing : Editing) : Editing × Turn :=
          carryOut script readFile quiet fuel index editing
        let on (editing : Editing) : Editing × Turn := go (index + 1) editing
        let (selected, editing) := editing.selects index selector
        match selected, edit with
        | false, .block size => go (index + 1 + size) editing
        | false, _ => on editing
        | true, .jump condition label =>
          let jumps := condition.all (· = editing.replaced)
          let editing := if condition.isSome then { editing with replaced := false } else editing
          let target := script.findIdx fun (_, edit) => match edit with
            | .mark name => name == label
            | _ => false
          if !jumps then on editing
          else if label.isEmpty then (editing, .done)
          else go target editing
        | true, .substitute substitution =>
          if editing.lacks substitution.finder then (editing, .missingExpression)
          else on (editing.substitute substitution)
        | true, .exchange pairs =>
          on { editing with line := editing.line.map fun c => (pairs.lookup c).getD c }
        | true, .append text =>
          on { editing with appended := editing.appended ++ [.text text] }
        | true, .readFile path =>
          on { editing with appended := editing.appended ++ [.file path] }
        | true, .insert text => on (editing.write text)
        | true, .change text =>
          let inside := selector.stop.isSome && !selector.negated &&
            (editing.ranges.lookup index).isSome
          (if inside then editing else editing.write text, .dropped)
        | true, .writeFile path => on (editing.writeTo path editing.line)
        | true, .quit code shows => (editing, .quit code shows)
        | true, .spell width =>
          on (editing.write (spelled (width.getD spellWidth) editing.line))
        | true, .plain letter =>
          match plain readFile quiet editing letter with
          | (editing, none) => on editing
          | (editing, some turn) => (editing, turn)
        | true, _ => on editing

/-- How many edits are done for a line at most. -/
def editLimit : Nat := 100000

/-- Carries out a script for the lines that are left. The answer is the turn that ended it early. -/
def run (script : Array (Selector × Edit)) (readFile : String → List Char) (quiet : Bool) :
    Nat → Bool → Editing → Editing × Option Turn
  | 0, _, editing => (editing, some .endless)
  | fuel + 1, again, editing =>
    match if again then some editing else editing.advance with
    | none => (editing, none)
    | some editing =>
      let shown (editing : Editing) : Editing :=
        if quiet then editing else editing.writeLine editing.line
      let (editing, turn) :=
        carryOut script readFile quiet editLimit 0 { editing with replaced := false }
      match turn with
      | .done => run script readFile quiet fuel false ((shown editing).flush readFile)
      | .dropped => run script readFile quiet fuel false (editing.flush readFile)
      | .again => run script readFile quiet fuel true (editing.flush readFile)
      | .quit code true => ((shown editing).flush readFile, some (.quit code true))
      | turn => (editing, some turn)

end Editing

namespace Tool

/-- The arguments with the suffix for changed files behind an equals sign. -/
def withSuffixes (arguments : List String) : List String :=
  arguments.flatMap fun argument =>
    if argument = "--in-place" then ["--in-place="]
    else
      match argument.toList with
      | '-' :: cs =>
        let front := cs.takeWhile fun c => "nErsu".toList.contains c
        match cs.drop front.length with
        | 'i' :: suffix =>
          (if front.isEmpty then [] else [String.ofList ('-' :: front)]) ++
            ["--in-place=" ++ String.ofList suffix]
        | _ => [argument]
      | _ => [argument]

def sedOptions : Options where
  plain := ['n', 'E', 'r', 's', 'u']
  taking := ['e', 'f', 'i', 'l']
  long := [("quiet", 'n'), ("silent", 'n'), ("regexp-extended", 'E'), ("separate", 's'),
    ("unbuffered", 'u'), ("expression", 'e'), ("file", 'f'), ("in-place", 'i'),
    ("line-length", 'l')]
  trouble := 1
  strict := false

/-- The texts that make up the script, each behind what it is called in messages. -/
def scriptTexts (given : Given) : Work (List (String × String) × List String) := do
  let pieces := given.options.filter fun (letter, _) => letter = 'e' || letter = 'f'
  match pieces, given.operands with
  | [], [] => do
    Work.note "Usage: sed [OPTION]... \x7bscript-only-if-no-other-script\x7d [input-file]..."
    Work.quit 1
  | [], script :: names => return ([("-e expression #1, char ", script)], names)
  | pieces, names => do
    let texts ← pieces.mapM fun (letter, text) => do
      if letter = 'e' then return text
      match ← Work.operand text with
      | .ok octets =>
        return if octets.toList.getLast? = some '\n' then (octets.dropEnd 1).toString else octets
      | .error cause => Work.die 4 ("couldn't open file " ++ text ++ ": " ++ reasonText cause)
    let titles := (List.range texts.length).map fun n =>
      "-e expression #" ++ toString (n + 1) ++ ", char "
    return (titles.zip texts, names)

/-- Where a fault of a script stands, the texts that make it up being joined by line ends. -/
def faultPlace : Nat → List (String × String) → String
  | n, [(title, _)] => title ++ toString n
  | n, (title, text) :: rest =>
    if n ≤ text.length + 1 then title ++ toString n else faultPlace (n - text.length - 1) rest
  | n, [] => toString n

/-- The files that a script writes. -/
def writtenFiles (script : Array (Selector × Edit)) : List String :=
  (script.toList.filterMap fun (_, edit) => match edit with
    | .writeFile path => some path
    | .substitute substitution => substitution.file
    | _ => none).eraseDups.filter (· ≠ "/dev/stdout")

/-- The lines of a text, each with whether it is ended. -/
def markedLines (text : String) : List (List Char × Bool) :=
  (fullLines text.toList).map fun line =>
    if line.getLast? = some '\n' then (line.dropLast, true) else (line, false)

/-- The texts of operands, each behind its name. -/
def textsOf (inPlace : Bool) (names : List String) : Work (List (String × String)) := do
  let texts ← names.mapM fun name => do
    match ← Work.operand name with
    | .ok text => return some (name, text)
    | .error .isADirectory =>
      if inPlace then
        Work.complain ("couldn't edit " ++ name ++ ": not a regular file")
        Work.fail 4
      else Work.die 4 ("read error on " ++ name ++ ": Is a directory")
      return none
    | .error cause =>
      Work.refuse 2 ("can't read " ++ name ++ ": " ++ reasonText cause)
      return none
  return texts.filterMap id

/-- Ends as the last turn says. -/
def endTurn : Option Turn → Work Unit
  | some (.quit code _) => Work.quit code
  | some .missingExpression => 
    Work.die 1 "-e expression #1, char 0: no previous regular expression"
  | some .endless => do throw (← Work.onMachine fun machine => machine.wait machine.limit)
  | _ => return

/-- Edits lines by a script, and puts what comes of a file in its place if that is asked for. -/
def sed : Tool := ofWork do
  let arguments := withSuffixes (← Work.job).arguments
  let given ← sedOptions.readAll (arguments.length + 1) arguments
  let (texts, names) ← scriptTexts given
  let text := "\n".intercalate (texts.map (·.2))
  let extended := given.has 'E' || given.has 'r'
  let script ← match EditScript.ofText extended text with
    | .ok script => pure script
    | .error fault =>
      let read := match fault.left with
        | some left => text.length - left
        | none => 0
      Work.die 1 (faultPlace read texts ++ ": " ++ fault.message)
  if let some label := EditScript.missingLabel script then
    Work.complain ("can't find label for jump to \x60" ++ label ++ "'")
    Work.quit 4
  let silenced := "#n\n".toList.isPrefixOf (text ++ "\n").toList
  let quiet := given.has 'n' || silenced
  let job ← Work.job
  let readFile (machine : Machine) (path : String) : List Char :=
    match machine.readFile job.directory (Octets.toPath path) with
    | .ok bytes => (Octets.ofBytes bytes).toList
    | .error _ => []
  let files := (writtenFiles script).map fun path => (path, "")
  let names := if names.isEmpty then ["-"] else names
  let inPlace := given.argument? 'i'
  let run (lines : List (List Char × Bool)) (size : Nat) : Work (Editing × Option Turn) := do
    return Editing.run script (readFile (← Work.machine)) quiet (2 * size + 2) false
      (Editing.start lines files)
  let save (editing : Editing) : Work Unit :=
    editing.files.forM fun (path, text) => do let _ ← Work.writeFile path text
  match inPlace with
  | some suffix =>
    (← textsOf true names).forM fun (name, text) => do
      let (editing, turn) ← run (markedLines text) text.length
      unless suffix.isEmpty do let _ ← Work.writeFile (name ++ suffix) text
      let _ ← Work.writeFile name editing.output
      save editing
      endTurn turn
  | none =>
    let texts ← textsOf false names
    let groups := if given.has 's' then texts.map fun (_, text) => [text] else [texts.map (·.2)]
    groups.forM fun group => do
      let size := (group.map String.length).foldl (· + ·) 0
      let (editing, turn) ← run (group.flatMap markedLines) size
      Work.put editing.output
      save editing
      endTurn turn

end Tool
end Agentry.Host

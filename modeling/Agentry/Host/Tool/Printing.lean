import Agentry.Host.Condition
import Agentry.Host.Format
import Agentry.Host.Tool.Work
/-!
# Tools that print

Tools whose output hangs on their arguments alone, and tools that only wait or only answer.
-/
namespace Agentry.Host.Tool

def exits (code : Nat) : Tool := ofWork (Work.quit code)

def echoEscapes : Escapes := ⟨true, true, true, true, false, true, false⟩

def formatEscapes : Escapes := ⟨false, true, true, true, true, true, true⟩

/-- An option of a plain echo: a hyphen and some of three letters. -/
def isEchoOption (argument : String) : Bool :=
  match argument.toList with
  | '-' :: letters => !letters.isEmpty && letters.all fun c => c = 'n' || c = 'e' || c = 'E'
  | _ => false

/-- The last of the letters `e` and `E` says whether escapes are carried out. -/
def carriesEscapes (letters : List Char) : Bool :=
  (letters.filter fun c => c = 'e' || c = 'E').getLast? = some 'e'

def echo : Tool := ofWork do
  let arguments := (← Work.job).arguments
  let options := arguments.takeWhile isEchoOption
  let letters := options.flatMap String.toList
  let text := (" ".intercalate (arguments.drop options.length)).toList
  let (body, goesOn) := if carriesEscapes letters then unescape echoEscapes text.length text
    else (text, true)
  Work.put (String.ofList (body ++ if letters.contains 'n' || !goesOn then [] else ['\n']))

/-- How the tool formats. -/
def dialect : Dialect where
  format := formatEscapes
  argument := echoEscapes
  bits := 64
  notNumeric text := quoted text ++ ": expected a numeric value"
  leftOver text := quoted text ++ ": value not completely converted"
  outOfRange text := quoted text ++ ": Numerical result out of range"
  badDirective text := text ++ ": invalid conversion specification"
  missingLetter text := text ++ ": invalid conversion specification"
  widthLetters := true
  quotes := some named
  excess := some fun text => "warning: ignoring excess arguments, starting with " ++ quoted text

def printf : Tool := ofWork do
  let arguments := (← Work.job).arguments
  match if arguments.head? = some "--" then arguments.drop 1 else arguments with
  | [] => Work.misuse 1 "missing operand"
  | format :: arguments =>
    let (printing, fault) := Host.printf dialect format arguments
    Work.put printing.text
    printing.complaints.forM Work.complain
    match fault with
    | some complaint => Work.die 1 complaint
    | none => unless printing.sound do Work.fail 1

def pwd : Tool := ofWork do
  let given ← Options.read ⟨['L', 'P'], [], [("logical", 'L'), ("physical", 'P')], 1, false⟩
  unless given.operands.isEmpty do Work.complain "ignoring non-option arguments"
  let job ← Work.job
  let here := Octets.ofPath (.ofLocation job.directory)
  let claimed := if given.lastOf ['L', 'P'] = some 'L' then job.environment.lookup "PWD" else none
  let tree := (← Work.machine).tree
  match claimed with
  | some path =>
    let leadsHere := (tree.directoryAt [] (Octets.toPath path)).toOption = some job.directory
    Work.putLine (if Path.isAbsolute path && leadsHere then path else here)
  | none => Work.putLine here

/-- The milliseconds of a number of seconds, which may have a unit. -/
def duration? (text : String) : Option Nat :=
  match readQuantity text.toList with
  | some (.quotient negative num den, unit) =>
    let seconds? : Option Nat := match unit with
      | [] => some 1
      | ['s'] => some 1
      | ['m'] => some 60
      | ['h'] => some 3600
      | ['d'] => some 86400
      | _ => none
    if negative && num ≠ 0 then none
    else seconds?.map fun seconds => num * seconds * 1000 / den
  | some (.infinite false, []) => some (Nat.pow 10 18)
  | _ => none

def sleep : Tool := ofWork do
  let given ← Options.read ⟨[], [], [], 1, false⟩
  if given.operands.isEmpty then Work.misuse 1 "missing operand"
  let bad := given.operands.filter fun operand => (duration? operand).isNone
  bad.forM fun operand => Work.complain ("invalid time interval " ++ quoted operand)
  unless bad.isEmpty do Work.pointToHelp 1
  let total := (given.operands.filterMap duration?).foldl Nat.add 0
  let finish ← Work.onMachine fun machine => machine.wait total
  if finish = .outOfTime then throw finish

/-- How many octets are written when there is no end to them, before their reader has enough. -/
def endlessSize : Nat := 2097152

/-- Writes a line without end. Only a pipe stops it. -/
def yes : Tool := ofWork do
  let given ← Options.read ⟨[], [], [], 1, false⟩
  let job ← Work.job
  let line := " ".intercalate (if given.operands.isEmpty then ["y"] else given.operands) ++ "\n"
  let machine ← Work.machine
  match (job.descriptors.lookup 1).bind (machine.openings[·]?) with
  | some ⟨.pipe _, _, _, _, _⟩ =>
    Work.put (String.join (List.replicate (endlessSize / line.length + 1) line))
    throw (.signalled 13)
  | some _ => do throw (← Work.onMachine fun machine => machine.wait machine.limit)
  | none => Work.put line

/-- The last step of a path. -/
def baseName (path : List Char) : List Char :=
  match (Path.pieces path).getLast? with
  | some step => step
  | none => path.take 1

/-- A name without an ending, unless it is nothing but the ending. -/
def withoutEnding (ending name : List Char) : List Char :=
  if ending.isSuffixOf name && ending.length < name.length then
    name.take (name.length - ending.length)
  else name

def basename : Tool := ofWork do
  let given ← Options.read
    ⟨['a', 'z'], ['s'], [("multiple", 'a'), ("suffix", 's'), ("zero", 'z')], 1, true⟩
  let print (ending : List Char) (path : String) : Work Unit :=
    Work.put (String.ofList (withoutEnding ending (baseName path.toList)) ++
      if given.has 'z' then "\x00" else "\n")
  if given.operands.isEmpty then Work.misuse 1 "missing operand"
  match given.argument? 's', given.operands with
  | some ending, paths => paths.forM (print ending.toList)
  | none, path :: rest =>
    if given.has 'a' then (path :: rest).forM (print [])
    else
      match rest with
      | _ :: extra :: _ => Work.misuse 1 ("extra operand " ++ quoted extra)
      | rest => print ((rest.head?.map String.toList).getD []) path
  | none, [] => return

/-- A path without its last step. -/
def directoryName (path : List Char) : List Char :=
  let front := (path.reverse.dropWhile (· = '/')).dropWhile (· ≠ '/')
  match (front.dropWhile (· = '/')).reverse with
  | [] => if path.head? = some '/' then ['/'] else ['.']
  | name => name

def dirname : Tool := ofWork do
  let given ← Options.read ⟨['z'], [], [("zero", 'z')], 1, false⟩
  if given.operands.isEmpty then Work.misuse 1 "missing operand"
  given.operands.forM fun path =>
    Work.put (String.ofList (directoryName path.toList) ++ if given.has 'z' then "\x00" else "\n")

/-- How the tool words what is wrong with a condition. Behind a word that stands where none is
wanted, the next one is named. -/
def conditionText (words : List String) : ConditionFault → String
  | .unexpected word =>
    let extra := (words.dropWhile (· ≠ word)).drop 1
    "extra argument " ++ quoted (extra.head?.getD word)
  | .argumentExpected operator => "missing argument after " ++ quoted operator
  | .closingExpected => "')' expected"
  | .illegalNumber word => "invalid integer " ++ quoted word

def testWords (words : List String) : Work Unit := do
  let home := (← Work.job).directory
  let isKnown (operator : String) : Bool :=
    Condition.comparisons.contains operator || operator = "-a" || operator = "-o"
  let words := match words with
    | [a, "==", b] => [a, "=", b]
    | words => words
  match words with
  | [a, b] =>
    unless a = "!" || Condition.unaryOperators.contains a do
      Work.die 2 ("missing argument after " ++ quoted b)
  | [a, operator, _] =>
    unless a = "!" || a = "(" || isKnown operator do
      Work.die 2 (quoted operator ++ ": binary operator expected")
  | _ => pure ()
  match Condition.evaluate ⟨(← Work.machine).tree, home⟩ words with
  | .ok answer => unless answer do Work.fail 1
  | .error fault => Work.die 2 (conditionText words fault)

def test : Tool := ofWork do testWords (← Work.job).arguments

def bracket : Tool := ofWork do
  let arguments := (← Work.job).arguments
  if arguments.getLast? = some "]" then testWords arguments.dropLast
  else Work.die 2 "missing ']'"

/-- Prints a line, and takes no operands. -/
def printing (line : String) : Tool := ofWork do
  let given ← Options.read ⟨[], [], [], 1, false⟩
  match given.operands with
  | [] => Work.putLine line
  | extra :: _ => Work.misuse 1 ("extra operand " ++ quoted extra)

/-- Who the user is: all of it, or a number or a name. -/
def id : Tool := ofWork do
  let given ← Options.read
    ⟨['u', 'g', 'G', 'n', 'r'], [],
      [("user", 'u'), ("group", 'g'), ("groups", 'G'), ("name", 'n'), ("real", 'r')], 1, false⟩
  if (given.lastOf ['u', 'g', 'G']).isSome then
    Work.putLine (if given.has 'n' then "root" else "0")
  else Work.putLine "uid=0(root) gid=0(root) groups=0(root)"

def uname : Tool := ofWork do
  let given ← Options.read ⟨['s', 'm', 'n', 'r', 'o'], [], [], 1, false⟩
  let part (letter : Char) (text : String) : List String :=
    if given.has letter then [text] else []
  let parts := part 's' "Linux" ++ part 'm' "x86_64" ++ part 'o' "GNU/Linux"
  Work.putLine (" ".intercalate (if given.options.isEmpty then ["Linux"] else parts))

/-- Prints the values of variables of the environment, or all of it. -/
def printenv : Tool := ofWork do
  let given ← Options.read ⟨['0'], [], [("null", '0')], 2, true⟩
  let environment := (← Work.job).environment
  let ending := if given.has '0' then "\x00" else "\n"
  if given.operands.isEmpty then
    environment.forM fun (name, value) => Work.put (name ++ "=" ++ value ++ ending)
  else
    given.operands.forM fun name =>
      match environment.lookup name with
      | some value => Work.put (value ++ ending)
      | none => Work.fail 1

/-- A decimal as a whole number of units, and how many places the units have. -/
def decimal? (text : String) : Option (Int × Nat) :=
  let (negative, cs) := readSign text.toList
  let whole := cs.takeWhile Json.isDigit
  let rest := cs.drop whole.length
  let fraction := match rest with
    | '.' :: digits => digits
    | _ => []
  let shaped := match rest with
    | [] => true
    | '.' :: digits => digits.all Json.isDigit
    | _ => false
  if !shaped || (whole.isEmpty && fraction.isEmpty) then none
  else
    let n : Int := Json.digitsValue (whole ++ fraction)
    some (if negative then -n else n, fraction.length)

/-- A decimal in units of more places. -/
def inPlaces (places : Nat) (decimal : Int × Nat) : Int :=
  decimal.1 * (Nat.pow 10 (places - decimal.2) : Nat)

/-- The text of a number of units. -/
def decimalText (places shown : Nat) (n : Int) : String :=
  let digits := (toString n.natAbs).toList
  let digits := List.replicate (places + 1 - digits.length) '0' ++ digits
  let whole := digits.take (digits.length - places)
  let fraction := (digits.drop whole.length).take shown
  (if n < 0 then "-" else "") ++ String.ofList whole ++
    if shown = 0 then "" else "." ++ String.ofList fraction

/-- Zeros in front of a number, behind its sign. -/
def widened (width : Nat) (text : String) : String :=
  let zeros := String.ofList (List.replicate (width - text.length) '0')
  match text.toList with
  | '-' :: digits => "-" ++ zeros ++ String.ofList digits
  | _ => zeros ++ text

/-- The most numbers that are printed. -/
def countLimit : Nat := 1000000

/-- The options in front of some numbers, and the numbers. A negative number is no option. -/
def optionsBefore : List String → List String × List String
  | [] => ([], [])
  | argument :: rest =>
    match argument.toList with
    | '-' :: c :: more =>
      if c.isDigit || c = '.' then ([], argument :: rest)
      else if (c = 's' || c = 'f') && more.isEmpty then
        match rest with
        | value :: rest =>
          let (options, numbers) := optionsBefore rest
          (argument :: value :: options, numbers)
        | [] => ([argument], [])
      else
        let (options, numbers) := optionsBefore rest
        (argument :: options, numbers)
    | _ => ([], argument :: rest)

/-- The numbers from one to another. -/
def seq : Tool := ofWork do
  let (front, operands) := optionsBefore (← Work.job).arguments
  let options : Options :=
    ⟨['w'], ['s', 'f'], [("equal-width", 'w'), ("separator", 's'), ("format", 'f')], 1, false⟩
  let given ← options.readAll (front.length + 1) front
  let number (text : String) : Work (Int × Nat) :=
    match decimal? text with
    | some decimal => pure decimal
    | none => Work.misuse 1 ("invalid floating point argument: " ++ quoted text)
  let (first, step, last) ← match operands with
    | [] => Work.misuse 1 "missing operand"
    | [last] => do pure ((1, 0), (1, 0), ← number last)
    | [first, last] => do pure (← number first, (1, 0), ← number last)
    | [first, step, last] => do pure (← number first, ← number step, ← number last)
    | _ :: _ :: _ :: extra :: _ => Work.misuse 1 ("extra operand " ++ quoted extra)
  if step.1 = 0 then
    Work.misuse 1 ("invalid Zero increment value: " ++ quoted ((operands[1]?).getD "0"))
  let places := max (max first.2 step.2) last.2
  let shown := max first.2 step.2
  let (start, stride, stop) := (inPlaces places first, inPlaces places step, inPlaces places last)
  let count := if stride > 0 then ((stop - start) / stride + 1).toNat
    else ((start - stop) / (-stride) + 1).toNat
  let texts := (List.range (min count countLimit)).map fun k =>
    decimalText places shown (start + stride * Int.ofNat k)
  let texts := if given.has 'w' then
      let width := (texts.map String.length).foldl max 0
      texts.map (widened width)
    else texts
  let texts := match given.argument? 'f' with
    | some format => texts.map fun text => (Host.printf dialect format [text]).1.text
    | none => texts
  unless texts.isEmpty do
    Work.put (((given.argument? 's').getD "\n").intercalate texts ++ "\n")

end Agentry.Host.Tool

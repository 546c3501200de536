import Agentry.Host.Numeral
import Agentry.Host.Tool.Work
/-!
# Tools for octets and lines

Tools that write what they read, or parts of it, or how much it is.
-/
namespace Agentry.Host.Tool

/-- The lines of a text with their ends. Only the last one may have none. -/
def fullLines : List Char → List (List Char)
  | [] => []
  | c :: rest =>
    if c = '\n' then [c] :: fullLines rest
    else
      match fullLines rest with
      | line :: lines => (c :: line) :: lines
      | [] => [[c]]

/-- The lines of a text without their ends. -/
def linesOf (text : String) : List (List Char) :=
  (fullLines text.toList).map fun line =>
    if line.getLast? = some '\n' then line.dropLast else line

/-- The operands, or the input if there are none. -/
def sources (given : Given) : List String :=
  if given.operands.isEmpty then ["-"] else given.operands

/-- A text with blanks in front. -/
def rightIn (width : Nat) (text : String) : String :=
  String.ofList (List.replicate (width - text.length) ' ') ++ text

/-- The text of an octet that does not stand for itself. -/
def visible (c : Char) : List Char :=
  let n := c.toNat
  if n ≥ 128 then
    let m := n - 128
    'M' :: '-' :: if m < 32 then ['^', Char.ofNat (m + 64)] else if m = 127 then ['^', '?']
      else [Char.ofNat m]
  else if n < 32 then ['^', Char.ofNat (n + 64)]
  else if n = 127 then ['^', '?']
  else [c]

/-- A line as it is shown. -/
def shown (ends tabs others : Bool) (line : List Char) : List Char :=
  line.flatMap fun c =>
    if c = '\n' then if ends then ['$', '\n'] else ['\n']
    else if c = '\t' then if tabs then ['^', 'I'] else [c]
    else if others then visible c
    else [c]

/-- Lines without the empty ones behind an empty one. -/
def squeezed : Bool → List (List Char) → List (List Char)
  | _, [] => []
  | afterEmpty, line :: rest =>
    let empty := decide (line = ['\n'])
    if empty && afterEmpty then squeezed true rest else line :: squeezed empty rest

/-- Lines behind their numbers, empty ones having none if only others are counted. -/
def numbered (onlyFull : Bool) : Nat → List (List Char) → List (List Char)
  | _, [] => []
  | n, line :: rest =>
    if onlyFull && line = ['\n'] then line :: numbered onlyFull n rest
    else
      ((rightIn 6 (toString n) ++ "\t").toList ++ line) :: numbered onlyFull (n + 1) rest

def catOptions : Options where
  plain := ['A', 'b', 'e', 'E', 'n', 's', 't', 'T', 'u', 'v']
  taking := []
  long := [("show-all", 'A'), ("number-nonblank", 'b'), ("show-ends", 'E'), ("number", 'n'),
    ("squeeze-blank", 's'), ("show-tabs", 'T'), ("show-nonprinting", 'v')]
  trouble := 1
  strict := false

def cat : Tool := ofWork do
  let given ← catOptions.read
  let any (letters : List Char) : Bool := letters.any given.has
  let texts ← (sources given).mapM fun name => do
    match ← Work.operand name with
    | .ok text => return text
    | .error cause =>
      Work.refuse 1 (named name ++ ": " ++ reasonText cause)
      return ""
  let text := String.join texts
  if !any ['A', 'b', 'e', 'E', 'n', 's', 't', 'T', 'v'] then Work.put text
  else
    let lines := fullLines text.toList
    let lines := if given.has 's' then squeezed false lines else lines
    let lines := lines.map (shown (any ['A', 'e', 'E']) (any ['A', 't', 'T'])
      (any ['A', 'e', 't', 'v']))
    let lines := if given.has 'b' then numbered true 1 lines
      else if given.has 'n' then numbered false 1 lines
      else lines
    Work.put (String.ofList lines.flatten)

/-- A part of a text: so many lines or octets at its front or its end, or all but so many. -/
structure Portion where
  octets : Bool
  count : Nat
  /-- The count is that of what is left out. -/
  without : Bool

/-- The units that a count may be given in. -/
def unitOf (letters : List Char) : Option Nat :=
  match letters with
  | [] => some 1
  | ['b'] => some 512
  | ['k'] => some 1024
  | ['K'] => some 1024
  | ['k', 'B'] => some 1000
  | ['M'] => some (1024 * 1024)
  | _ => none

/-- A count with a sign in front that makes it one of what is left out. -/
def countOf (sign : Char) (text : String) : Option (Nat × Bool) :=
  let cs := text.toList
  let (without, cs) := match cs with
    | c :: rest => if c = sign then (true, rest) else if c = '+' || c = '-' then (false, rest)
      else (false, cs)
    | [] => (false, [])
  let digits := cs.takeWhile Json.isDigit
  if digits.isEmpty then none
  else (unitOf (cs.drop digits.length)).map fun unit => (Json.digitsValue digits * unit, without)

/-- The arguments with a plain number among them as what it is short for. -/
def spelledOut (plus : Bool) : List String → List String
  | first :: rest =>
    match first.toList with
    | '-' :: c :: digits =>
      if c.isDigit && digits.all Char.isDigit then
        "-n" :: String.ofList (c :: digits) :: rest
      else first :: rest
    | '+' :: c :: digits =>
      if plus && c.isDigit && digits.all Char.isDigit then "-n" :: first :: rest
      else first :: rest
    | _ => first :: rest
  | [] => []

def portionOptions : Options where
  plain := ['q', 'v', 'z', 'f', 'F']
  taking := ['n', 'c', 's']
  long := [("lines", 'n'), ("bytes", 'c'), ("quiet", 'q'), ("silent", 'q'), ("verbose", 'v'),
    ("follow", 'f')]
  trouble := 1
  strict := false

/-- The portion that options ask for. -/
def portionOf (sign : Char) (given : Given) : Work Portion := do
  match given.options.reverse.find? fun (letter, _) => letter = 'n' || letter = 'c' with
  | none => return ⟨false, 10, false⟩
  | some (letter, text) =>
    match countOf sign text with
    | some (count, without) => return ⟨letter = 'c', count, without⟩
    | none =>
      Work.die 1 ("invalid number of " ++ (if letter = 'c' then "bytes" else "lines") ++ ": " ++
        quoted text)

/-- Writes a portion of each operand, under titles if there are several. -/
def writePortions (sign : Char) (portion : Portion → String → String) : Work Given := do
  let job ← Work.job
  let arguments := spelledOut (sign = '+') job.arguments
  let given ← portionOptions.readAll (arguments.length + 1) arguments
  let wanted ← portionOf sign given
  let titled : Bool := match given.lastOf ['q', 'v'] with
    | some c => c = 'v'
    | none => decide (given.operands.length > 1)
  (sources given).foldlM (fun (begun : Bool) name => do
    let title := if name = "-" then "standard input" else name
    let head := if titled then (if begun then "\n" else "") ++ "==> " ++ title ++ " <==\n" else ""
    match ← Work.operand name with
    | .ok text =>
      Work.put (head ++ portion wanted text)
      return true
    | .error .isADirectory =>
      Work.put head
      Work.refuse 1 ("error reading " ++ quoted name ++ ": Is a directory")
      return true
    | .error cause =>
      Work.refuse 1 ("cannot open " ++ quoted name ++ " for reading: " ++ reasonText cause)
      return begun) false *> pure given

/-- The lines or octets that a portion is counted in. -/
def unitsOf (wanted : Portion) (text : String) : List (List Char) :=
  if wanted.octets then text.toList.map ([·]) else fullLines text.toList

def frontOf (wanted : Portion) (text : String) : String :=
  let cut (xs : List (List Char)) : List (List Char) :=
    if wanted.without then xs.take (xs.length - wanted.count) else xs.take wanted.count
  String.ofList (cut (unitsOf wanted text)).flatten

def endOf (wanted : Portion) (text : String) : String :=
  let cut (xs : List (List Char)) : List (List Char) :=
    if wanted.without then xs.drop (wanted.count - 1) else xs.drop (xs.length - wanted.count)
  String.ofList (cut (unitsOf wanted text)).flatten

def head : Tool := ofWork do
  let _ ← writePortions '-' frontOf

/-- With an option it waits for more to come, which does not. -/
def tail : Tool := ofWork do
  let given ← writePortions '+' endOf
  if given.has 'f' || given.has 'F' then
    throw (← Work.onMachine fun machine => machine.wait machine.limit)

def isBlank (c : Char) : Bool := c = ' ' || ('\t' ≤ c && c ≤ '\r')

/-- How many runs of octets are not blank. -/
def wordCount (cs : List Char) : Nat :=
  (cs.foldl (fun (count, inside) c =>
    if isBlank c then (count, false)
    else (if inside then count else count + 1, true)) ((0, false) : Nat × Bool)).1

/-- The counts that letters ask for. -/
def countsOf (letters : List Char) (cs : List Char) : List Nat :=
  letters.map fun letter =>
    if letter = 'l' then cs.count '\n'
    else if letter = 'w' then wordCount cs
    else if letter = 'L' then
      ((linesOf (String.ofList cs)).map fun line =>
        line.foldl (fun n c => if c = '\t' then n / 8 * 8 + 8 else n + 1) 0).foldl max 0
    else cs.length

def addCounts (a b : List Nat) : List Nat := List.zipWith (· + ·) a b

/-- What an operand adds to the width of the columns: the octets of a file, and much for what is
none. -/
def sizeFor (name : String) : Work (Nat × Nat) := do
  let job ← Work.job
  let machine ← Work.machine
  let node? : Option Node := if name = "-" then
      match (job.descriptors.lookup 0).bind (machine.openings[·]?) with
      | some ⟨.file loc, _, _, _, _⟩ => machine.tree.get? loc
      | _ => some (.directory 0)
    else
      match machine.tree.locatePath job.directory .existing (Octets.toPath name) with
      | .ok loc => machine.tree.get? loc
      | .error _ => none
  return match node? with
    | some (.file bytes _) => (bytes.size, 0)
    | some _ => (0, 7)
    | none => (0, 0)

def wc : Tool := ofWork do
  let given ← Options.read ⟨['c', 'l', 'L', 'm', 'w'], [],
    [("bytes", 'c'), ("chars", 'm'), ("lines", 'l'), ("words", 'w'), ("max-line-length", 'L')], 1,
    false⟩
  let letters := ['l', 'w', 'm', 'c', 'L'].filter given.has
  let letters := if letters.isEmpty then ['l', 'w', 'c'] else letters
  let names := sources given
  let sizes ← names.mapM sizeFor
  let total := (sizes.map (·.1)).foldl (· + ·) 0
  let width := if names.length = 1 && letters.length = 1 then 1
    else max ((sizes.map (·.2)).foldl max 1) (toString total).length
  let line (counts : List Nat) (name : String) : String :=
    " ".intercalate (counts.map fun n => rightIn width (toString n)) ++
      if name.isEmpty then "" else " " ++ name
  let sums ← names.foldlM (fun sums name => do
    let (counts, written) ← match ← Work.operand name with
      | .ok text => pure (countsOf letters text.toList, true)
      | .error cause =>
        Work.refuse 1 (named name ++ ": " ++ reasonText cause)
        pure (letters.map fun _ => 0, decide (cause = .isADirectory))
    if written then
      Work.putLine (line counts (if given.operands.isEmpty then "" else name))
    return addCounts sums counts) (letters.map fun _ => 0)
  if names.length > 1 then Work.putLine (line sums "total")

/-- Writes the input, and copies of it to files. -/
def tee : Tool := ofWork do
  let given ← Options.read
    ⟨['a', 'i', 'p'], [], [("append", 'a'), ("ignore-interrupts", 'i')], 1, false⟩
  let job ← Work.job
  let text ← Work.input
  given.operands.forM fun name => do
    let machine ← Work.machine
    let old : String := if given.has 'a' then
        match machine.readFile job.directory (Octets.toPath name) with
        | .ok bytes => Octets.ofBytes bytes
        | .error _ => ""
      else ""
    match ← Work.writeFile name (old ++ text) with
    | .ok () => return
    | .error cause => Work.refuse 1 (named name ++ ": " ++ reasonText cause)
  Work.put text

end Agentry.Host.Tool

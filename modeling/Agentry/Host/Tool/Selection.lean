import Agentry.Host.Format
import Agentry.Host.Regular
import Agentry.Host.Tool.Lines
/-!
# Tools that order and select

Tools that put lines in order, keep some of them, or keep or change some of their characters.
-/
namespace Agentry.Host.Tool

/-- A key of a line: from a field and a character in it to others, and how it is compared. -/
structure Key where
  start : Nat × Nat
  stop : Option (Nat × Nat)
  letters : List Char

/-- A place in a key, and the letters behind it. -/
def readKeyPlace (cs : List Char) : Option ((Nat × Nat) × List Char × List Char) :=
  let field := cs.takeWhile Json.isDigit
  if field.isEmpty then none
  else
    let rest := cs.drop field.length
    let (place, rest) : List Char × List Char := match rest with
      | '.' :: rest =>
        let digits := rest.takeWhile Json.isDigit
        (digits, rest.drop digits.length)
      | rest => ([], rest)
    let letters := rest.takeWhile Char.isAlpha
    some ((Json.digitsValue field, Json.digitsValue place), letters, rest.drop letters.length)

def keyOf (text : String) : Option Key :=
  match readKeyPlace text.toList with
  | some (start, letters, []) => some ⟨start, none, letters⟩
  | some (start, letters, ',' :: rest) =>
    match readKeyPlace rest with
    | some (stop, more, []) => some ⟨start, some stop, letters ++ more⟩
    | _ => none
  | _ => none

/-- The fields of a line, which blanks begin if no separator is given. -/
def fieldsOf (separator : Option Char) (line : List Char) : List (List Char) :=
  match separator with
  | some c => Text.splitOn c line
  | none =>
    let rec go : Nat → List Char → List (List Char)
      | 0, _ => []
      | _, [] => []
      | fuel + 1, cs =>
        let blanks := cs.takeWhile fun c => c = ' ' || c = '\t'
        let word := (cs.drop blanks.length).takeWhile fun c => c ≠ ' ' && c ≠ '\t'
        (blanks ++ word) :: go fuel (cs.drop (blanks.length + word.length))
    go (line.length + 1) line

/-- The part of a line that a key names. -/
def keyText (separator : Option Char) (key : Key) (line : List Char) : List Char :=
  let fields := fieldsOf separator line
  let join (parts : List (List Char)) : List Char := match separator with
    | some c => [c].intercalate parts
    | none => parts.flatten
  let (first, place) := key.start
  let before := (join (fields.take (first - 1))).length +
    if separator.isSome && first > 1 then 1 else 0
  let stop := match key.stop with
    | none => line.length
    | some (last, 0) => (join (fields.take last)).length
    | some (last, place) =>
      let gap := if separator.isSome && last > 1 then 1 else 0
      (join (fields.take (last - 1))).length + gap + place
  (line.take stop).drop (before + (place - 1))

/-- A number at the front of a text in thousandths of thousandths, for comparing. -/
def numberOf (cs : List Char) : Int :=
  let cs := cs.dropWhile fun c => c = ' ' || c = '\t'
  let (negative, cs) := match cs with
    | '-' :: rest => (true, rest)
    | cs => (false, cs)
  let whole := cs.takeWhile Json.isDigit
  let fraction := match cs.drop whole.length with
    | '.' :: rest => rest.takeWhile Json.isDigit
    | _ => []
  let n : Int := Json.digitsValue (whole ++ (fraction ++ List.replicate 6 '0').take 6)
  if negative then -n else n

/-- The order of two texts, as letters ask for it. -/
def compareTexts (letters : List Char) (a b : List Char) : Ordering :=
  let prepare (cs : List Char) : List Char :=
    let cs := if letters.contains 'b' then cs.dropWhile fun c => c = ' ' || c = '\t' else cs
    let cs := if letters.contains 'd' then
        cs.filter fun c => c.isAlphanum || c = ' ' || c = '\t'
      else cs
    if letters.contains 'f' then cs.map Text.asciiUpper else cs
  if letters.contains 'n' || letters.contains 'g' then compare (numberOf a) (numberOf b)
  else compare (String.ofList (prepare a)) (String.ofList (prepare b))

def sortOptions : Options where
  plain := ['b', 'c', 'C', 'd', 'f', 'g', 'm', 'n', 'r', 's', 'u', 'z']
  taking := ['k', 'o', 't', 'S', 'T']
  long := [("ignore-leading-blanks", 'b'), ("check", 'c'), ("dictionary-order", 'd'),
    ("ignore-case", 'f'), ("general-numeric-sort", 'g'), ("key", 'k'), ("merge", 'm'),
    ("numeric-sort", 'n'), ("output", 'o'), ("reverse", 'r'), ("stable", 's'),
    ("field-separator", 't'), ("unique", 'u'), ("zero-terminated", 'z')]
  trouble := 2
  strict := false

/-- Lines without those that are the same as the one before. -/
def withoutRepeats (same : List Char → List Char → Bool) : List (List Char) → List (List Char)
  | a :: b :: rest =>
    if same a b then withoutRepeats same (a :: rest) else a :: withoutRepeats same (b :: rest)
  | lines => lines
termination_by lines => lines.length

/-- The place of the first line that is out of order. -/
def disorder (fits : List Char → List Char → Bool) :
    Nat → List (List Char) → Option (Nat × List Char)
  | n, a :: b :: rest =>
    if fits a b then disorder fits (n + 1) (b :: rest) else some (n + 1, b)
  | _, _ => none

def sort : Tool := ofWork do
  let given ← sortOptions.read
  let letters := given.options.map (·.1)
  let keys ← (given.options.filter (·.1 = 'k')).mapM fun (_, text) =>
    match keyOf text with
    | some key => pure key
    | none =>
      Work.die 2 ("invalid number at field start: invalid count at start of " ++ quoted text)
  let separator := (given.argument? 't').bind fun text => text.toList.head?
  let byKeys (a b : List Char) : Ordering :=
    keys.foldl (fun found key =>
      if found ≠ .eq then found
      else
        let own := if key.letters.isEmpty then letters else key.letters
        let order := compareTexts own (keyText separator key a) (keyText separator key b)
        if own.contains 'r' then order.swap else order) .eq
  let whole (a b : List Char) : Ordering :=
    let order := if keys.isEmpty then compareTexts letters a b else byKeys a b
    if keys.isEmpty && letters.contains 'r' then order.swap else order
  let order (a b : List Char) : Ordering :=
    match whole a b with
    | .eq =>
      if letters.contains 's' || letters.contains 'u' then .eq
      else
        let last := compare (String.ofList a) (String.ofList b)
        if letters.contains 'r' then last.swap else last
    | found => found
  let names := sources given
  let lines ← names.mapM fun name => do
    match ← Work.operand name with
    | .ok text => pure (linesOf text)
    | .error .isADirectory => Work.die 2 ("read failed: " ++ named name ++ ": Is a directory")
    | .error cause => Work.die 2 ("cannot read: " ++ named name ++ ": " ++ reasonText cause)
  if letters.contains 'c' || letters.contains 'C' then
    let strict := letters.contains 'u'
    let fits (a b : List Char) : Bool :=
      match order a b with
      | .lt => true
      | .eq => !strict
      | .gt => false
    match disorder fits 1 lines.flatten with
    | none => return
    | some (n, line) =>
      if letters.contains 'c' then
        Work.complain (names.head?.getD "-" ++ ":" ++ toString n ++ ": disorder: " ++
          String.ofList line)
      Work.quit 1
  else
    let sorted := lines.flatten.mergeSort fun a b => order a b != .gt
    let kept := if letters.contains 'u' then withoutRepeats (fun a b => whole a b == .eq) sorted
      else sorted
    let text := String.join (kept.map fun line => String.ofList line ++ "\n")
    match given.argument? 'o' with
    | none => Work.put text
    | some name =>
      match ← Work.writeFile name text with
      | .ok () => return
      | .error cause => Work.die 2 ("open failed: " ++ named name ++ ": " ++ reasonText cause)

/-- Runs of lines that are the same, as the first line and how many. -/
def runsOf (same : List Char → List Char → Bool) :
    List (List Char) → List (List Char × Nat)
  | [] => []
  | line :: rest =>
    match runsOf same rest with
    | (next, n) :: runs =>
      if same line next then (line, n + 1) :: runs else (line, 1) :: (next, n) :: runs
    | [] => [(line, 1)]

def uniq : Tool := ofWork do
  let given ← Options.read
    ⟨['c', 'd', 'u', 'i'], ['f', 's', 'w'],
      [("count", 'c'), ("repeated", 'd'), ("unique", 'u'), ("ignore-case", 'i')], 1, false⟩
  let name := given.operands.head?.getD "-"
  match ← Work.operand name with
  | .error .isADirectory => Work.die 1 ("error reading " ++ quoted name ++ ": Is a directory")
  | .error cause => Work.die 1 (named name ++ ": " ++ reasonText cause)
  | .ok text =>
    let folded (line : List Char) : List Char :=
      if given.has 'i' then line.map Text.asciiLower else line
    let runs := runsOf (fun a b => folded a = folded b) (linesOf text)
    let runs := if given.has 'd' then runs.filter (·.2 > 1) else runs
    let runs := if given.has 'u' then runs.filter (·.2 = 1) else runs
    Work.put (String.join (runs.map fun (line, n) =>
      (if given.has 'c' then rightIn 7 (toString n) ++ " " else "") ++ String.ofList line ++ "\n"))

def grepOptions : Options where
  plain := ['c', 'E', 'F', 'G', 'h', 'H', 'i', 'y', 'l', 'L', 'n', 'o', 'q', 's', 'v', 'w', 'x',
    'a', 'r', 'R', 'z', 'b']
  taking := ['e', 'm', 'f', 'A', 'B', 'C']
  long := [("count", 'c'), ("extended-regexp", 'E'), ("fixed-strings", 'F'), ("basic-regexp", 'G'),
    ("no-filename", 'h'), ("with-filename", 'H'), ("ignore-case", 'i'), ("files-with-matches", 'l'),
    ("files-without-match", 'L'), ("line-number", 'n'), ("only-matching", 'o'), ("quiet", 'q'),
    ("silent", 'q'), ("no-messages", 's'), ("invert-match", 'v'), ("word-regexp", 'w'),
    ("line-regexp", 'x'), ("regexp", 'e'), ("max-count", 'm'), ("text", 'a')]
  trouble := 2
  strict := false

/-- A text that stands for itself, as a regular expression. -/
def literal (cs : List Char) : Regular :=
  cs.foldr (fun c rest => .sequence (.char c) rest) .nothing

/-- A regular expression for one of several. -/
def oneOf : List Regular → Regular
  | [] => .oneOf false []
  | [regular] => regular
  | regular :: rest => .choice regular (oneOf rest)

/-- The expression for a whole line, or for whole words. -/
def bounded (line word : Bool) (regular : Regular) : Regular :=
  if line then .sequence .front (.sequence (.group 0 regular) .back)
  else if word then
    .sequence (.edge true false) (.sequence (.group 0 regular) (.edge false true))
  else regular

/-- All matches in a line that are not empty. -/
def matchesIn (fold : Char → Char) (regular : Regular) : Nat → Regular.Cursor → List (List Char)
  | 0, _ => []
  | fuel + 1, cursor =>
    match Regular.find fold regular (cursor.rest.length + 1) cursor with
    | none => []
    | some found =>
      if found.length = 0 then
        match (Regular.Cursor.step { found.stop with groups := [] }) with
        | some (_, after) => matchesIn fold regular fuel after
        | none => []
      else
        (cursor.rest.drop (found.start - cursor.place)).take found.length ::
          matchesIn fold regular fuel found.stop

/-- The files in a directory at any depth, or the path itself. -/
def filesBelow (tree : FileTree) (home : Location) (path : String) : List String :=
  match tree.directoryAt home (Octets.toPath path) with
  | .error _ => [path]
  | .ok folder =>
    let files := tree.nodes.filterMap fun (loc, node) => match node with
      | .file _ _ =>
        if folder.isPrefixOf loc then some (loc.drop folder.length) else none
      | _ => none
    let front := if path.toList.getLast? = some '/' then path else path ++ "/"
    Pattern.sorted (files.map fun steps => front ++ Octets.ofSpelling ("/".intercalate steps))

/-- Selects the lines that an expression matches in. It fails when there are none. -/
def grep : Tool := ofWork do
  let given ← grepOptions.read
  let patterns := (given.options.filter (·.1 = 'e')).map (·.2)
  let (patterns, names) ← match patterns, given.operands with
    | [], [] => do
      Work.note "Usage: grep [OPTION]... PATTERNS [FILE]..."
      Work.pointToHelp 2
    | [], pattern :: names => pure ([pattern], names)
    | patterns, names => pure (patterns, names)
  let kind := given.lastOf ['E', 'F', 'G']
  let parts := patterns.flatMap fun pattern => Text.splitOn '\n' pattern.toList
  let regulars ← parts.mapM fun part =>
    if kind = some 'F' then pure (literal part)
    else
      match Regular.ofText (kind = some 'E') (String.ofList part) with
      | .ok regular => pure regular
      | .error fault => Work.die 2 fault.message
  let ignoring := given.has 'i' || given.has 'y'
  let fold : Char → Char := if ignoring then Text.asciiLower else fun c => c
  let regular := bounded (given.has 'x') (given.has 'w') (oneOf regulars)
  let selects (line : List Char) : Bool :=
    (Regular.findIn fold regular line).isSome != given.has 'v'
  let most := (given.argument? 'm').bind String.toNat?
  let titled : Bool := match given.lastOf ['h', 'H'] with
    | some c => c = 'H'
    | none => decide (names.length > 1)
  let quiet := given.has 'q'
  let silent := given.has 's'
  let deep := given.has 'r' || given.has 'R'
  let tree := (← Work.machine).tree
  let home := (← Work.job).directory
  let titled := titled || (deep && (given.lastOf ['h', 'H']).isNone)
  let names := if names.isEmpty then (if deep then ["."] else ["-"]) else names
  let names := if deep then names.flatMap (filesBelow tree home) else names
  let found ← names.foldlM (fun (found : Bool) name => do
    let title := if name = "-" then "(standard input)" else name
    match ← Work.operand name with
    | .error cause =>
      unless silent do Work.complain (title ++ ": " ++ reasonText cause)
      Work.fail 2
      return found
    | .ok text =>
      let lines := (linesOf text).zipIdx.filter fun (line, _) => selects line
      let lines := match most with
        | some n => lines.take n
        | none => lines
      let front := if titled then title ++ ":" else ""
      if quiet then return found || !lines.isEmpty
      else if given.has 'l' || given.has 'L' then
        if lines.isEmpty == given.has 'L' then Work.putLine title
      else if given.has 'c' then Work.putLine (front ++ toString lines.length)
      else if text.toList.contains '\x00' && !given.has 'a' && !lines.isEmpty then
        Work.complain (title ++ ": binary file matches")
      else
        lines.forM fun (line, n) => do
          let front := front ++ if given.has 'n' then toString (n + 1) ++ ":" else ""
          if given.has 'o' then
            unless given.has 'v' do
              (matchesIn fold regular (line.length + 1) ⟨none, line, 0, []⟩).forM fun part =>
                Work.putLine (front ++ String.ofList part)
          else Work.putLine (front ++ String.ofList line)
      return found || !lines.isEmpty) false
  let status := (← get).status
  if found && quiet then Work.quit 0
  else if status = 0 && !found then Work.quit 1

/-- A set with its escapes carried out. A backslash that begins none is left out. -/
def withoutEscapes : Nat → List Char → List Char
  | fuel + 1, '\\' :: c :: rest =>
    let digits := leading isOctal 3 (c :: rest)
    if !digits.isEmpty then
      octetChar (digitsIn 8 digits) :: withoutEscapes fuel ((c :: rest).drop digits.length)
    else (letterEscape c).getD c :: withoutEscapes fuel rest
  | fuel + 1, c :: rest => c :: withoutEscapes fuel rest
  | _, cs => cs

/-- The characters that a set names: a range by a hyphen, and kinds of characters between colons. -/
def setChars : Nat → List Char → Except String (List Char)
  | 0, _ => .ok []
  | _, [] => .ok []
  | fuel + 1, '[' :: ':' :: rest =>
    let name := rest.takeWhile (· ≠ ':')
    match rest.drop name.length, Pattern.kinds.lookup (String.ofList name) with
    | ':' :: ']' :: rest, some holds =>
      (setChars fuel rest).map ((((List.range 256).map Char.ofNat).filter holds) ++ ·)
    | _, _ => (setChars fuel (':' :: rest)).map ('[' :: ·)
  | fuel + 1, first :: '-' :: last :: rest =>
    if last < first then
      .error ("range-endpoints of '" ++ String.ofList [first, '-', last] ++
        "' are in reverse collating sequence order")
    else
      let between := (List.range (last.toNat + 1 - first.toNat)).map fun k =>
        Char.ofNat (first.toNat + k)
      (setChars fuel rest).map (between ++ ·)
  | fuel + 1, c :: rest => (setChars fuel rest).map (c :: ·)

def setOf (text : String) : Work (List Char) :=
  let cs := withoutEscapes text.length text.toList
  match setChars (cs.length + 1) cs with
  | .ok set => pure set
  | .error fault => Work.die 1 fault

/-- A text without repeats of the characters of a set. -/
def squeezeIn (holds : Char → Bool) : Option Char → List Char → List Char
  | _, [] => []
  | before, c :: rest =>
    if before = some c && holds c then squeezeIn holds before rest
    else c :: squeezeIn holds (some c) rest

/-- Puts characters of one set in place of those of another, drops them, or drops their repeats. -/
def tr : Tool := ofWork do
  let given ← Options.read
    ⟨['c', 'C', 'd', 's', 't'], [],
      [("complement", 'c'), ("delete", 'd'), ("squeeze-repeats", 's'), ("truncate-set1", 't')], 1,
      true⟩
  let deletes := given.has 'd'
  let squeezes := given.has 's'
  let complement := given.has 'c' || given.has 'C'
  let help (text extra : String) : Work Unit := do
    Work.complain text
    Work.note extra
    Work.pointToHelp 1
  match given.operands with
  | [] => Work.misuse 1 "missing operand"
  | [first] =>
    if deletes && squeezes then
      help ("missing operand after " ++ quoted first)
        "Two strings must be given when both deleting and squeezing repeats."
    else if !deletes && !squeezes then
      help ("missing operand after " ++ quoted first)
        "Two strings must be given when translating."
  | [_, second] =>
    if deletes && !squeezes then
      help ("extra operand " ++ quoted second)
        "Only one string may be given when deleting without squeezing repeats."
  | _ :: _ :: extra :: _ => Work.misuse 1 ("extra operand " ++ quoted extra)
  let set ← setOf (given.operands.head?.getD "")
  let into ← setOf ((given.operands.drop 1).head?.getD "")
  let octets := (List.range 256).map Char.ofNat
  let olds := if complement then octets.filter fun c => !set.contains c else set
  let olds := if given.has 't' then olds.take into.length else olds
  let text := (← Work.input).toList
  let translated : List Char :=
    if deletes then text.filter fun c => !olds.contains c
    else if into.isEmpty then text
    else text.map fun c =>
      match olds.reverse.idxOf? c with
      | none => c
      | some k => ((into[olds.length - 1 - k]?).or into.getLast?).getD c
  let repeats := if into.isEmpty then olds else into
  let result := if squeezes then squeezeIn repeats.contains none translated else translated
  Work.put (String.ofList result)

/-- The ranges of a list of places. -/
def readRanges (fields : Bool) (text : String) : Work (List (Nat × Option Nat)) :=
  let kind := if fields then "field" else "byte/character position"
  (Text.splitOn ',' text.toList).mapM fun part => do
    let low := part.takeWhile Json.isDigit
    let rest := part.drop low.length
    let (high, ranged, shaped) : List Char × Bool × Bool := match rest with
      | [] => ([], false, true)
      | '-' :: digits => (digits, true, digits.all Json.isDigit)
      | _ => ([], false, false)
    if !shaped || (low.isEmpty && !ranged) then
      Work.misuse 1 ("invalid " ++ kind ++ " " ++ (if fields then "value " else "") ++
        quoted (String.ofList part))
    if low.isEmpty && high.isEmpty then Work.misuse 1 "invalid range with no endpoint: -"
    let first := if low.isEmpty then 1 else Json.digitsValue low
    let last : Option Nat := if !ranged then some first
      else if high.isEmpty then none
      else some (Json.digitsValue high)
    if first = 0 || last = some 0 then
      Work.misuse 1 (if fields then "fields are numbered from 1"
        else "byte/character positions are numbered from 1")
    if last.any (· < first) then Work.misuse 1 "invalid decreasing range"
    return (first, last)

/-- The members of a list at some places, which are counted from one. -/
def atPlaces (wanted : Nat → Bool) (xs : List α) : List α :=
  (xs.zipIdx.filter fun (_, k) => wanted (k + 1)).map (·.1)

def cutOptions : Options where
  plain := ['n', 's', 'z', 'C']
  taking := ['b', 'c', 'd', 'f', 'O']
  long := [("bytes", 'b'), ("characters", 'c'), ("delimiter", 'd'), ("fields", 'f'),
    ("only-delimited", 's'), ("complement", 'C'), ("output-delimiter", 'O')]
  trouble := 1
  strict := false

/-- Keeps some characters or fields of each line. -/
def cut : Tool := ofWork do
  let given ← cutOptions.read
  let delimiter ← match given.argument? 'd' with
    | none => pure '\t'
    | some text =>
      match text.toList with
      | [c] => pure c
      | [] => pure '\x00'
      | _ => Work.misuse 1 "the delimiter must be a single character"
  match given.options.find? fun (letter, _) => letter = 'b' || letter = 'c' || letter = 'f' with
  | none => Work.misuse 1 "you must specify a list of bytes, characters, or fields"
  | some (letter, list) =>
    let ranges ← readRanges (letter = 'f') list
    let wanted (n : Nat) : Bool :=
      (ranges.any fun (first, last) => first ≤ n && last.all (n ≤ ·)) != given.has 'C'
    let cutLine (line : List Char) : Option (List Char) :=
      if letter ≠ 'f' then some (atPlaces wanted line)
      else if !line.contains delimiter then (if given.has 's' then none else some line)
      else
        let joint := ((given.argument? 'O').map String.toList).getD [delimiter]
        some (joint.intercalate (atPlaces wanted (Text.splitOn delimiter line)))
    (sources given).forM fun name => do
      match ← Work.operand name with
      | .error cause => Work.refuse 1 (named name ++ ": " ++ reasonText cause)
      | .ok text =>
        Work.put (String.join ((linesOf text).filterMap fun line =>
          (cutLine line).map fun line => String.ofList line ++ "\n"))

end Agentry.Host.Tool

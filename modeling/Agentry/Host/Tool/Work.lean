import Agentry.Host.Shell.Redirection
/-!
# The work of a tool

A tool reads its options and operands, works on the machine, and goes on over all its operands: it
fails at the end if one of them failed. What it says is wrong begins with its name. A tool that
could not write what it wrote fails.
-/
namespace Agentry.Host

/-- The machine that a tool works on, the status that it will have, and whether something could not
be written. -/
structure Progress where
  machine : Machine
  status : Nat
  unwritten : Bool

/-- What a tool does. It may end at any point. -/
abbrev Work := ReaderT Job (ExceptT Finish (StateM Progress))

namespace Work

def job : Work Job := read

def machine : Work Machine := do return (← get).machine

def onMachine (act : StateM Machine α) : Work α := do
  let progress ← get
  let (a, machine) := act progress.machine
  set { progress with machine }
  return a

/-- Ends the tool. -/
def quit (code : Nat) : Work α := throw (.exited code)

/-- Gives the tool a status that is no better than the one it has. -/
def fail (code : Nat) : Work Unit :=
  modify fun progress => { progress with status := max progress.status code }

/-- Writes to the output. -/
def put (text : String) : Work Unit := do
  let descriptors := (← job).descriptors
  let progress ← get
  if text.isEmpty then return
  else if progress.machine.canWrite descriptors 1 then
    set { progress with machine := progress.machine.write descriptors 1 text }
  else set { progress with unwritten := true }

def putLine (text : String) : Work Unit := put (text ++ "\n")

/-- Writes a line to where messages go. -/
def note (text : String) : Work Unit := do
  let descriptors := (← job).descriptors
  onMachine (modify fun machine => machine.write descriptors 2 (text ++ "\n"))

/-- Says what is wrong. -/
def complain (text : String) : Work Unit := do note ((← job).name ++ ": " ++ text)

/-- Says what is wrong with an operand, and goes on. -/
def refuse (code : Nat) (text : String) : Work Unit := do
  complain text
  fail code

/-- Says what is wrong, and ends the tool. -/
def die (code : Nat) (text : String) : Work α := do
  complain text
  quit code

/-- Where a tool that was not called as it has to be points to. -/
def pointToHelp (code : Nat) : Work α := do
  note ("Try '" ++ (← job).name ++ " --help' for more information.")
  quit code

/-- Ends a tool that was not called as it has to be. -/
def misuse (code : Nat) (text : String) : Work α := do
  complain text
  pointToHelp code

/-- What is left of the input. -/
def input : Work String := do onMachine (takeInput (← job).descriptors 0)

/-- Answers with a cause are faults of an operand. -/
def orRefuse (code : Nat) (words : IoError → String) (answer : Except IoError α)
    (go : α → Work Unit) : Work Unit :=
  match answer with
  | .ok a => go a
  | .error cause => refuse code (words cause)

/-- Works on the tree of the machine. -/
def onTree (code : Nat) (words : IoError → String)
    (change : FileTree → Location → Except IoError FileTree) : Work Unit := do
  let home := (← job).directory
  orRefuse code words (change (← machine).tree home) fun tree =>
    onMachine (modify fun machine => { machine with tree })

/-- The octets of an operand: the input for a hyphen, and otherwise a file. -/
def operand (name : String) : Work (Except IoError String) := do
  if name = "-" then
    let home := (← job).descriptors
    let machine ← machine
    match (home.lookup 0).bind (machine.openings[·]?) with
    | some ⟨.file loc, _, _, _, _⟩ =>
      if machine.tree.isDirectoryAt loc then return .error .isADirectory
      else return .ok (← input)
    | some opening =>
      if opening.reads then return .ok (← input) else return .error (.other "Bad file descriptor")
    | none => return .error (.other "Bad file descriptor")
  else
    match Shell.deviceDescriptor? name with
    | some descriptor =>
      return .ok (← onMachine (takeInput (← job).descriptors descriptor))
    | none =>
      if name = "/dev/null" then return .ok ""
      else if name = "/dev/zero" then
        return .ok (String.ofList (List.replicate Machine.endlessCount '\x00'))
      else
        let machine ← machine
        let bytes := machine.readFile (← job).directory (Octets.toPath name)
        return bytes.map Octets.ofBytes

/-- Writes a whole file, or to what a device stands for. -/
def writeFile (path text : String) : Work (Except IoError Unit) := do
  let job ← job
  match Shell.deviceDescriptor? path with
  | some descriptor =>
    onMachine (modify fun machine => machine.write job.descriptors descriptor text)
    return .ok ()
  | none =>
    if path = "/dev/null" then return .ok ()
    else
      let machine ← machine
      match machine.writeFile job.directory job.mask (Octets.toPath path) (Octets.toBytes text) with
      | .ok machine =>
        onMachine (set machine)
        return .ok ()
      | .error cause => return .error cause

end Work

/-- The options that a tool knows: letters that stand alone, letters that take an argument, and
words for letters. -/
structure Options where
  plain : List Char
  taking : List Char
  long : List (String × Char)
  /-- The status of a tool that is given others. -/
  trouble : Nat
  /-- Whether operands end the options. -/
  strict : Bool

/-- The options of a call, each with its argument, and the operands. -/
structure Given where
  options : List (Char × String)
  operands : List String

namespace Given

def has (given : Given) (letter : Char) : Bool := given.options.any (·.1 == letter)

/-- The argument of an option that was given last. -/
def argument? (given : Given) (letter : Char) : Option String :=
  (given.options.reverse.find? (·.1 == letter)).map (·.2)

/-- The last one given of some letters. -/
def lastOf (given : Given) (letters : List Char) : Option Char :=
  ((given.options.map (·.1)).filter letters.contains).getLast?

def addOption (letter : Char) (argument : String) (given : Given) : Given :=
  { given with options := (letter, argument) :: given.options }

def addOperand (operand : String) (given : Given) : Given :=
  { given with operands := operand :: given.operands }

end Given

namespace Options

/-- The words for letters that a word is short for. -/
def meant (options : Options) (word : String) : List (String × Char) :=
  match options.long.find? (·.1 == word) with
  | some found => [found]
  | none => options.long.filter fun (name, _) => word.toList.isPrefixOf name.toList

/-- Reads arguments. -/
def readAll (options : Options) : Nat → List String → Work Given
  | 0, operands => return ⟨[], operands⟩
  | _, [] => return ⟨[], []⟩
  | fuel + 1, argument :: rest => do
    let bad (text : String) : Work Given := Work.misuse options.trouble text
    let rec letters : List Char → Work Given
      | [] => readAll options fuel rest
      | c :: more => do
        if options.plain.contains c then return (← letters more).addOption c ""
        else if options.taking.contains c then
          if more.isEmpty then
            match rest with
            | value :: rest => return (← readAll options fuel rest).addOption c value
            | [] => bad ("option requires an argument -- '" ++ String.singleton c ++ "'")
          else return (← readAll options fuel rest).addOption c (String.ofList more)
        else bad ("invalid option -- '" ++ String.singleton c ++ "'")
    match argument.toList with
    | ['-', '-'] => return ⟨[], rest⟩
    | '-' :: '-' :: word =>
      let name := String.ofList (word.takeWhile (· ≠ '='))
      let value := (word.drop name.length).drop 1
      let hasValue := word.contains '='
      match options.meant name with
      | [(name, c)] =>
        if options.taking.contains c then
          if hasValue then return (← readAll options fuel rest).addOption c (String.ofList value)
          else
            match rest with
            | value :: rest => return (← readAll options fuel rest).addOption c value
            | [] => bad ("option '--" ++ name ++ "' requires an argument")
        else if hasValue then bad ("option '--" ++ name ++ "' doesn't allow an argument")
        else return (← readAll options fuel rest).addOption c ""
      | [] => bad ("unrecognized option '" ++ argument ++ "'")
      | several =>
        bad ("option '" ++ argument ++ "' is ambiguous; possibilities:" ++
          String.join (several.map fun (name, _) => " '--" ++ name ++ "'"))
    | '-' :: c :: more => letters (c :: more)
    | _ =>
      if options.strict then return ⟨[], argument :: rest⟩
      else return (← readAll options fuel rest).addOperand argument

/-- Reads the arguments of the tool. -/
def read (options : Options) : Work Given := do
  let arguments := (← Work.job).arguments
  options.readAll (arguments.length + 1) arguments

end Options

namespace Tool

/-- The tool that does some work. -/
def ofWork (work : Work Unit) : Tool := fun job machine =>
  let (result, progress) := (work.run job).run ⟨machine, 0, false⟩
  let finish := match result with
    | .ok () => .exited progress.status
    | .error finish => finish
  if progress.unwritten then
    let reason := if job.name = "cat" then "standard output" else "write error"
    let text := job.name ++ ": " ++ reason ++ ": Bad file descriptor\n"
    (.exited 1, progress.machine.write job.descriptors 2 text)
  else (finish, progress.machine)

/-- Whether a character can be written as it is. -/
def isPlain (c : Char) : Bool := 32 ≤ c.toNat && c.toNat < 127

/-- An escape for a character that cannot be written as it is. -/
def escapeOf (c : Char) : List Char :=
  if c = '\n' then ['\\', 'n']
  else if c = '\t' then ['\\', 't']
  else if c = '\r' then ['\\', 'r']
  else
    let n := c.toNat
    ['\\', Nat.digitChar (n / 64), Nat.digitChar (n / 8 % 8), Nat.digitChar (n % 8)]

/-- A text in quotes in which parts are escaped, `escaping` saying that such a part is open. -/
def quotedParts : Bool → List Char → List Char
  | escaping, [] => if escaping then ['\'', '\''] else []
  | escaping, c :: rest =>
    if isPlain c then
      let front : List Char := if escaping then ['\'', '\''] else []
      if c = '\'' then front ++ ['\'', '\\', '\'', '\''] ++ quotedParts false rest
      else front ++ c :: quotedParts false rest
    else
      let front : List Char := if escaping then [] else ['\'', '$', '\'']
      front ++ escapeOf c ++ quotedParts true rest

/-- A text between quotes, as tools name what they were given. -/
def quoted (text : String) : String :=
  let cs := text.toList
  if cs.contains '\'' && cs.all isPlain && !cs.any fun c => "\"$\\!\x60".toList.contains c then
    "\"" ++ text ++ "\""
  else
    let body := quotedParts false cs
    let body := if cs.getLast?.any (!isPlain ·) then body.take (body.length - 2) else body
    "'" ++ String.ofList body ++ "'"

/-- What a shell would not take as it stands. -/
def needsQuotes (text : String) : Bool :=
  let cs := text.toList
  cs.isEmpty || cs.head? = some '#' || cs.head? = some '~' || text = "\x7b" || text = "\x7d" ||
    cs.any fun c =>
      !isPlain c || " !\"$&'()*:;<=>?[\\^\x60|".toList.contains c

/-- A name as it is, or between quotes if it needs them. -/
def named (name : String) : String := if needsQuotes name then quoted name else name

end Tool
end Agentry.Host

import Agentry.Host.Condition
import Agentry.Host.Format
import Agentry.Host.Shell.Redirection
/-!
# Commands of the shell

Some commands the shell carries out itself, because they change it or because that is quicker. Each
is given its arguments and answers with a status.
-/
namespace Agentry.Host

abbrev Builtin := List String → Act Nat

namespace Builtin

/-- Writes what a command of the shell puts out. -/
def output (text : String) : Act Nat := do
  if text.isEmpty then return 0
  else if ← Act.write 1 text then return 0
  else
    Act.complain (((← Act.shell).context.getD "") ++ ": I/O error")
    return 1

def isNumber (text : String) : Bool := !text.isEmpty && text.toList.all Char.isDigit

/-- The natural number that an argument has to be. -/
def number (text : String) : Act Nat :=
  if isNumber text then pure (Json.digitsValue text.toList)
  else Act.fail ("Illegal number: " ++ text)

/-- The letters of the options in front of some arguments, and the operands. Only some letters are
allowed. -/
def letters (allowed : List Char) : List String → Act (List Char × List String)
  | [] => return ([], [])
  | "--" :: rest => return ([], rest)
  | argument :: rest => do
    match argument.toList with
    | '-' :: c :: more =>
      match (c :: more).find? fun c => !allowed.contains c with
      | some bad => Act.fail ("Illegal option -" ++ String.singleton bad)
      | none =>
        let (found, operands) ← letters allowed rest
        return (c :: more ++ found, operands)
    | _ => return ([], argument :: rest)

def always (status : Nat) : Builtin := fun _ => return status

def exit : Builtin := fun arguments => do
  match arguments with
  | [] =>
    let shell ← Act.shell
    Act.setStatus (shell.held.getD shell.status)
    throw .leave
  | code :: _ =>
    Act.setStatus ((← number code) % 256)
    throw .leave

def leaveFunction : Builtin := fun arguments => do
  let status ← match arguments with
    | [] => do
      let shell ← Act.shell
      pure (shell.held.getD shell.status)
    | code :: _ => number code
  Act.modifyShell fun shell => { shell with skip := some .returning }
  return status

/-- Leaves loops, or begins their next turn. -/
def leaveLoops (skip : Nat → Skip) : Builtin := fun arguments => do
  let count ← match arguments with
    | [] => pure 1
    | text :: _ => number text
  if count = 0 then Act.fail ("Illegal number: " ++ (arguments.head?.getD ""))
  let loops := min count (← Act.shell).loops
  if loops > 0 then Act.modifyShell fun shell => { shell with skip := some (skip loops) }
  return 0

/-- Goes to a directory by a path. -/
def goTo (physical : Bool) (path : String) : Act Bool := do
  let world ← get
  let target := if physical then path else Shell.normalPath world.shell.path path
  match world.machine.tree.directoryAt world.shell.directory (Octets.toPath target) with
  | .error _ => return false
  | .ok directory =>
    let path := if physical then Octets.ofPath (.ofLocation directory) else target
    let old := (world.shell.valueOf? "PWD").getD world.shell.path
    Act.modifyShell fun shell =>
      let tracked := shell.tracked.filter fun (_, path) => Path.isAbsolute path
      let shell := { shell with directory, path, tracked }
      let shell := (shell.withValue "OLDPWD" old).withExported "OLDPWD"
      (shell.withValue "PWD" path).withExported "PWD"
    return true

/-- Whether a path is looked for in the directories of a search path. -/
def isSearched (path : String) : Bool :=
  match path.toList with
  | '/' :: _ => false
  | ['.'] => false
  | '.' :: '/' :: _ => false
  | ['.', '.'] => false
  | '.' :: '.' :: '/' :: _ => false
  | _ => true

def changeDirectory : Builtin := fun arguments => do
  let (options, operands) ← letters ['L', 'P'] arguments
  let physical := options.getLast? = some 'P'
  let shell ← Act.shell
  let (path, printing) : String × Bool := match operands with
    | [] => ((shell.valueOf? "HOME").getD "", false)
    | "-" :: _ => ((shell.valueOf? "OLDPWD").getD "", true)
    | path :: _ => (path, false)
  let tell : Act Nat := do output ((← Act.shell).path ++ "\n")
  let folders := if isSearched path then
      ((shell.valueOf? "CDPATH").map fun text =>
        (Text.splitOn ':' text.toList).map String.ofList).getD []
    else []
  let searched := if path.isEmpty then "." else path
  let candidates := folders.map fun folder =>
    if folder.isEmpty then (searched, false) else (folder ++ "/" ++ searched, true)
  let machine ← Act.machine
  let there := candidates.find? fun (candidate, _) =>
    (machine.tree.directoryAt shell.directory (Octets.toPath candidate)).toBool
  let (target, printing) := match there with
    | some (candidate, named) => (candidate, printing || named)
    | none => (searched, printing)
  if ← goTo physical target then
    if printing then tell else return 0
  else Act.fail ("can't cd to " ++ path)

def pwd : Builtin := fun arguments => do
  let (options, _) ← letters ['L', 'P'] arguments
  let shell ← Act.shell
  let path := if options.getLast? = some 'P' then Octets.ofPath (.ofLocation shell.directory)
    else shell.path
  output (path ++ "\n")

def echoEscapes : Escapes := ⟨true, true, false, true, false, false, false⟩

def formatEscapes : Escapes := ⟨false, true, false, false, false, true, false⟩

def echo : Builtin := fun arguments => do
  let (bare, arguments) := match arguments with
    | "-n" :: rest => (true, rest)
    | arguments => (false, arguments)
  let text := (" ".intercalate arguments).toList
  let (body, goesOn) := unescape echoEscapes text.length text
  output (String.ofList (body ++ if bare || !goesOn then [] else ['\n']))

/-- How the shell formats. -/
def dialect : Dialect where
  format := formatEscapes
  argument := echoEscapes
  bits := 53
  notNumeric text := text ++ ": expected numeric value"
  leftOver text := text ++ ": not completely converted"
  outOfRange text := text ++ ": Numerical result out of range"
  badDirective text := text ++ ": invalid directive"
  missingLetter _ := "missing format character"
  widthLetters := false
  quotes := none
  excess := none

def printf : Builtin := fun arguments => do
  match (← letters [] arguments).2 with
  | [] => Act.fail "usage: printf format [arg ...]"
  | format :: arguments =>
    let (printing, fault) := Host.printf dialect format arguments
    let status ← output printing.text
    printing.complaints.forM Act.complain
    match fault with
    | some complaint => Act.fail complaint
    | none => return if printing.sound then status else 1

def test : Builtin := fun arguments => do
  let world ← get
  match Condition.evaluate ⟨world.machine.tree, world.shell.directory⟩ arguments with
  | .ok answer => return if answer then 0 else 1
  | .error fault => Act.fail fault.message

def bracket : Builtin := fun arguments =>
  if arguments.getLast? = some "]" then test arguments.dropLast else Act.fail "missing ]"

def shift : Builtin := fun arguments => do
  let count ← match arguments with
    | [] => pure 1
    | text :: _ => number text
  let shell ← Act.shell
  if count > shell.arguments.length then Act.fail "can't shift that many"
  Act.modifyShell fun shell => { shell with arguments := shell.arguments.drop count }
  return 0

/-- The options by their names. -/
def optionNames : List (String × Char) :=
  [("errexit", 'e'), ("noglob", 'f'), ("ignoreeof", 'I'), ("interactive", 'i'), ("monitor", 'm'),
   ("noexec", 'n'), ("stdin", 's'), ("xtrace", 'x'), ("verbose", 'v'), ("vi", 'V'), ("emacs", 'E'),
   ("noclobber", 'C'), ("allexport", 'a'), ("notify", 'b'), ("nounset", 'u'), ("privileged", 'p'),
   ("nolog", '\x01'), ("debug", '\x02')]

def setOption (on : Bool) (letter : Char) : Act Unit :=
  Act.modifyShell fun shell =>
    let others := shell.options.filter (· ≠ letter)
    { shell with options := if on then letter :: others else others }

/-- Sets the options of one argument. The answer is whether a name has to follow. -/
def setLetters (on : Bool) : List Char → Act Bool
  | [] => return false
  | 'o' :: rest => do
    let _ ← setLetters on rest
    return true
  | letter :: rest => do
    if optionNames.any (·.2 == letter) && letter.isAlpha then setOption on letter
    else Act.fail ("Illegal option -" ++ String.singleton letter)
    setLetters on rest

def setNamed (on : Bool) (name : String) : Act Unit :=
  match optionNames.lookup name with
  | some letter => setOption on letter
  | none => Act.fail ("Illegal option -o " ++ name)

/-- A name with blanks up to where the settings stand. -/
def column (name : String) : String :=
  name ++ String.ofList (List.replicate (16 - name.length) ' ')

def listOptions (on : Bool) : Act Nat := do
  let shell ← Act.shell
  let lines := optionNames.map fun (name, letter) =>
    let set := shell.hasOption letter
    if on then column name ++ (if set then "on" else "off") ++ "\n"
    else "set " ++ (if set then "-o " else "+o ") ++ name ++ "\n"
  output ((if on then "Current option settings\n" else "") ++ String.join lines)

/-- Text in single quotes, in which a single quote is put between double quotes. -/
def singleQuoted (text : String) : String :=
  "'" ++ "'\"'\"'".intercalate ((Text.splitOn '\'' text.toList).map String.ofList) ++ "'"

def listVariables : Act Nat := do
  let shell ← Act.shell
  let bindings := shell.bindings.mergeSort fun a b => decide (a.name ≤ b.name)
  output (String.join (bindings.filterMap fun binding =>
    binding.value.map fun value => binding.name ++ "=" ++ singleQuoted value ++ "\n"))

def setArguments (arguments : List String) : Act Unit :=
  Act.modifyShell fun shell => { shell with arguments, optionIndex := 1, optionPlace := 0 }

/-- Sets options, up to an argument that is none, and then arguments. -/
def setAll : List String → Act Nat
  | [] => return 0
  | "--" :: rest => do
    setArguments rest
    return 0
  | "-" :: rest => do
    setOption false 'x'
    setOption false 'v'
    unless rest.isEmpty do setArguments rest
    return 0
  | argument :: rest => do
    let sign? : Option Bool := match argument.toList with
      | '-' :: _ => some true
      | '+' :: _ => some false
      | _ => none
    match sign? with
    | none =>
      setArguments (argument :: rest)
      return 0
    | some on =>
      if ← setLetters on (argument.toList.drop 1) then
        match rest with
        | name :: rest =>
          setNamed on name
          setAll rest
        | [] => listOptions on
      else setAll rest

def changeOptions : Builtin := fun arguments =>
  if arguments.isEmpty then listVariables else setAll arguments

/-- An octal digit for each class of users. -/
def maskText (mask : Nat) : String :=
  String.ofList ('0' :: (List.range 3).map fun k =>
    Nat.digitChar (mask / Nat.pow 8 (2 - k) % 8))

/-- What a class of users may do, as letters. -/
def rightsText (mask : Nat) : String :=
  let rights (shift : Nat) : String :=
    let bits := 7 - mask / shift % 8
    String.ofList ((if bits &&& 4 != 0 then ['r'] else []) ++
      (if bits &&& 2 != 0 then ['w'] else []) ++ if bits &&& 1 != 0 then ['x'] else [])
  "u=" ++ rights 64 ++ ",g=" ++ rights 8 ++ ",o=" ++ rights 1

/-- The bits that letters of rights name, for each of some classes. -/
def rightsBits (classes : List Nat) (letters : List Char) : Nat :=
  let bits := (if letters.contains 'r' then 4 else 0) + (if letters.contains 'w' then 2 else 0) +
    if letters.contains 'x' || letters.contains 'X' then 1 else 0
  (classes.map (bits * ·)).foldl (· ||| ·) 0

/-- What a change of rights makes of the rights before it. -/
def changeRights (rights : Nat) (change : List Char) : Option Nat :=
  let who := change.takeWhile fun c => "ugoa".toList.contains c
  let classes := if who.isEmpty || who.contains 'a' then [64, 8, 1]
    else (if who.contains 'u' then [64] else []) ++ (if who.contains 'g' then [8] else []) ++
      if who.contains 'o' then [1] else []
  match change.drop who.length with
  | sign :: letters =>
    if !letters.all fun c => "rwxXst".toList.contains c then none
    else
      let bits := rightsBits classes letters
      let whole := rightsBits classes ['r', 'w', 'x']
      let without (mask : Nat) : Nat := rights - (rights &&& mask)
      if sign = '+' then some (rights ||| bits)
      else if sign = '-' then some (without bits)
      else if sign = '=' then some (without whole ||| bits)
      else none
  | [] => none

def umask : Builtin := fun arguments => do
  let (options, operands) ← letters ['S'] arguments
  let shell ← Act.shell
  match operands with
  | [] => output ((if options.isEmpty then maskText shell.mask else rightsText shell.mask) ++ "\n")
  | text :: _ =>
    let setMask (mask : Nat) : Act Nat := do
      Act.modifyShell fun shell => { shell with mask }
      return 0
    if text.toList.head?.any Char.isDigit then
      if text.toList.all isOctal then setMask (digitsIn 8 text.toList % 512)
      else Act.fail ("Illegal number: " ++ text)
    else
      match (Text.splitOn ',' text.toList).foldlM changeRights (511 - shell.mask) with
      | some rights => setMask (511 - rights)
      | none => Act.fail ("Illegal mode: " ++ text)

def aliasLine (name value : String) : String := name ++ "=" ++ singleQuoted value ++ "\n"

/-- Gives names to texts, or shows what they stand for. -/
def defineAliases : Builtin := fun arguments => do
  let shell ← Act.shell
  if arguments.isEmpty then output (String.join (shell.aliases.map fun (n, v) => aliasLine n v))
  else
    arguments.foldlM (fun status argument => do
      match Text.cut ['='] argument.toList with
      | some (name, value) =>
        if name.isEmpty then return status
        let name := String.ofList name
        Act.modifyShell fun shell =>
          { shell with aliases :=
              shell.aliases.filter (·.1 != name) ++ [(name, String.ofList value)] }
        return status
      | none =>
        match (← Act.shell).aliases.lookup argument with
        | some value => do
          let _ ← output (aliasLine argument value)
          return status
        | none =>
          Act.say ("alias: " ++ argument ++ " not found")
          return 1) 0

def unalias : Builtin := fun arguments => do
  let (options, operands) ← letters ['a'] arguments
  if options.contains 'a' then
    Act.modifyShell fun shell => { shell with aliases := [] }
    return 0
  else
    operands.foldlM (fun status name => do
      if (← Act.shell).aliases.any (·.1 == name) then
        Act.modifyShell fun shell =>
          { shell with aliases := shell.aliases.filter (·.1 != name) }
        return status
      else
        Act.say ("unalias: " ++ name ++ " not found")
        return 1) 0

/-- The times that the shell took, which are not told. -/
def times : Builtin := fun _ =>
  output "0m0.000000s 0m0.000000s\n0m0.000000s 0m0.000000s\n"

def ulimit : Builtin := fun arguments =>
  if arguments.all fun argument => argument.toList.head? = some '-' then output "unlimited\n"
  else return 0

end Builtin
end Agentry.Host

import Agentry.Host.Shell.Lines
import Agentry.Host.Shell.Naming
/-!
# Simple commands

The words of a simple command are filled in first, then its redirections are carried out, then its
variables get their values. They keep them if the command is one that a fault ends the shell in, or
if there is none; otherwise they have them only while it is carried out.
-/
namespace Agentry.Host.Shell

/-- The fields of some words. -/
def fillWords (capture : Capture) : List String → List Word → Act (List String)
  | fields, [] => return fields
  | fields, word :: words => do
    let shell ← Act.shell
    let more ← if shell.assigns fields then Expansion.expandAssigning capture word
      else Expansion.expandFields capture word
    fillWords capture (fields ++ more) words

/-- How many characters a value may have for the effort of a command. -/
def charactersPerEffort : Nat := 16

/-- Gives variables their values, for good or for as long as a command is carried out. -/
def assignAll (capture : Capture) (passing exporting : Bool) :
    List (String × Word) → Act (List String)
  | [] => return []
  | (name, word) :: rest => do
    let value ← Expansion.expandValue capture word
    Act.spend (value.length / charactersPerEffort)
    if passing then Act.keep name
    Act.assign name value
    if exporting then Act.modifyShell (·.withExported name)
    return (name ++ "=" ++ value) :: (← assignAll capture passing exporting rest)

/-- Tells what is carried out, behind what such lines begin with. -/
def trace (capture : Capture) (descriptors : List (Nat × Nat)) (parts : List String) :
    Act Unit := do
  let shell ← Act.shell
  if shell.hasOption 'x' then
    let mark ← match Reader.readQuoted ((shell.valueOf? "PS4").getD "") shell.documents with
      | .ok (word, source) =>
        Act.modifyShell fun shell =>
          { shell with
            documents := source.documents, options := shell.options.filter (· ≠ 'x') }
        let text ← Expansion.expandDocument capture word
        Act.modifyShell fun inner => { inner with options := shell.options }
        pure text
      | .error _ => pure ""
    Act.onMachine (modify fun machine =>
      machine.write descriptors 2 (mark ++ " ".intercalate parts ++ "\n"))

/-- How often functions may be carried out within each other. -/
def callLimit : Nat := 1000

/-- Carries out a function. Its arguments are those of the shell until it has ended. -/
def call (run : Runner) (tested : Bool) (body : Command) (arguments : List String) : Act Unit := do
  let before ← Act.shell
  if before.depth ≥ callLimit then
    Act.fail ("Maximum function recursion depth (" ++ toString callLimit ++ ") reached")
  Act.modifyShell fun shell =>
    { shell with
      arguments, loops := 0, depth := shell.depth + 1, frames := [] :: shell.frames
      optionIndex := 1, optionPlace := 0 }
  Act.ensuring (run ⟨tested, false⟩ body) do
    Act.restoreFrame
    Act.modifyShell fun shell =>
      { shell with
        arguments := before.arguments, loops := before.loops, depth := before.depth
        optionIndex := before.optionIndex, optionPlace := before.optionPlace
        skip := if shell.skip = some .returning then none else shell.skip }

/-- Carries out a command of the shell. A fault in it ends the shell if the command is `special`. -/
def runBuiltin (special : Bool) (name : String) (act : Act Nat) : Act Unit := do
  let context := (← Act.shell).context
  Act.modifyShell fun shell => { shell with context := some name }
  let result ← Act.attempt act
  Act.modifyShell fun shell => { shell with context }
  match result with
  | .ok status => Act.setStatus status
  | .error .failure => if special then throw .failure
  | .error departure => throw departure

/-- The path of a file that is read as a text: without a slash it is looked for. -/
def sourcePath (name : String) : Act String := do
  let shell ← Act.shell
  let machine ← Act.machine
  let isFile (path : String) : Bool :=
    match machine.readFile shell.directory (Octets.toPath path) with
    | .ok _ => true
    | .error _ => false
  if Search.hasSlash name then return name
  else
    match (Search.candidates shell.searchPath name).find? isFile with
    | some path => return path
    | none => Act.fail (name ++ ": not found")

/-- Carries out a file as a part of the shell. -/
def readSource (run : Runner) : Builtin := fun arguments => do
  match (← Builtin.letters [] arguments).2 with
  | [] => return 0
  | name :: _ =>
    let path ← sourcePath name
    let shell ← Act.shell
    let machine ← Act.machine
    let text ← match machine.readFile shell.directory (Octets.toPath path) with
      | .ok bytes => pure (Octets.ofBytes bytes)
      | .error .isADirectory => pure ""
      | .error cause => Act.fail ("cannot open " ++ path ++ ": " ++ openReason cause)
    Act.modifyShell fun shell => { shell with context := some path }
    let status ← runText run false (String.ofList (text.toList.filter (· ≠ '\x00')))
    Act.modifyShell fun shell =>
      { shell with skip := if shell.skip = some .returning then none else shell.skip }
    return status

/-- Carries out its arguments as a text. -/
def evaluate (run : Runner) (tested : Bool) : Builtin := fun arguments =>
  runText run tested (" ".intercalate arguments)

/-- Puts a program in the place of the shell. -/
def exec (launch : Launcher) : Builtin := fun arguments => do
  match arguments with
  | [] => return 0
  | name :: arguments =>
    let shell ← Act.shell
    let paths := if Search.hasSlash name then [name] else Search.candidates shell.searchPath name
    become launch (shell.jobOf shell.process name arguments) paths

/-- The command of the shell that has a name. -/
def builtin? (launch : Launcher) (run : Runner) (tested : Bool) (name : String) : Option Builtin :=
  if name = "." then some (readSource run)
  else if name = "eval" then some (evaluate run tested)
  else if name = "exec" then some (exec launch)
  else if name = "command" then some commandOf
  else if name = "type" then some typeOf
  else if name = "hash" then some hash
  else plainBuiltins.lookup name

/-- Carries out a command by its name. -/
def runNamed (launch : Launcher) (run : Runner) (manner : Manner) (command : Named) :
    Act Unit := do
  match command.fields with
  | [] => Act.setStatus (← Act.shell).captured
  | name :: arguments =>
    let shell ← Act.shell
    match if command.plain then none else shell.functions.lookup name with
    | some body => call run manner.tested body arguments
    | none =>
      match builtin? launch run manner.tested name with
      | some act => runBuiltin (!command.plain && isSpecial name) name (act arguments)
      | none =>
        let search := if command.usual then Search.standard else shell.searchPath
        let inPlace := manner.last && shell.traps.isEmpty
        Act.setStatus (← startProgram launch search inPlace name arguments)

/-- Carries out a simple command. -/
def runSimple (launch : Launcher) (run : Runner) (manner : Manner) (line : Nat)
    (assignments : List (String × Word)) (words : List Word) (redirections : List Redirection) :
    Act Unit := do
  let capture := capture run
  Act.modifyShell fun shell => { shell with line, captured := 0 }
  let fields ← fillWords capture [] words
  let shell ← Act.shell
  let command := shell.named fields
  let special := !command.plain && command.fields.head?.any fun name =>
    isSpecial name && !shell.functions.any (·.1 == name)
  let filled ← redirections.mapM (fillIn capture)
  let before := (← Act.shell).descriptors
  let replaces := command.fields.head? = some "exec"
  let passing := !special && !command.fields.isEmpty
  Act.ensuring (do
    if ← redirectAll filled then
      if passing && !assignments.isEmpty then
        Act.modifyShell fun shell => { shell with frames := [] :: shell.frames }
        Act.ensuring (do
          let assigned ← assignAll capture true true assignments
          trace capture before (assigned ++ fields)
          runNamed launch run manner command) Act.restoreFrame
      else
        let assigned ← assignAll capture false (replaces && command.fields.length > 1) assignments
        trace capture before (assigned ++ fields)
        runNamed launch run manner command
    else
      Act.setStatus 2
      if special then throw .failure) do
    unless replaces do putBack before filled

end Agentry.Host.Shell

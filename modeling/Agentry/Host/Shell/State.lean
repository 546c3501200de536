import Agentry.Host.Search
import Agentry.Host.Shell.Reader
/-!
# The state of a shell

A shell knows its variables, its functions, where it stands and what its descriptors lead to. What
it does changes it and the machine, and may end it: by a fault, which a plain command of the shell
survives, by leaving, or with the process that it runs in.
-/
namespace Agentry.Host

/-- A variable. One without a value may still be exported or kept from changes. -/
structure Binding where
  name : String
  value : Option String
  exported : Bool
  readOnly : Bool

/-- What is passed over until a loop or a function has been left. -/
inductive Skip where
  | leaving (loops : Nat)
  | repeating (loops : Nat)
  | returning
  deriving DecidableEq, Repr

structure Shell where
  name : String
  /-- The command of the shell that is carried out, which complaints begin with. -/
  context : Option String
  line : Nat
  arguments : List String
  bindings : List Binding
  /-- What variables were before they became local, function by function. -/
  frames : List (List Binding)
  functions : List (String × Command)
  documents : Array Word
  directory : Location
  /-- The directory as it was gone to, links being steps of their own. -/
  path : String
  descriptors : List (Nat × Nat)
  status : Nat
  /-- The status of the last command whose output was asked for. -/
  captured : Nat
  options : List Char
  traps : List (String × String)
  skip : Option Skip
  loops : Nat
  depth : Nat
  process : Nat
  /-- The process that scripts know the shell by. -/
  root : Nat
  lastTask : Option Nat
  children : List Nat
  /-- The argument whose options are read next, and how far into the one before it they were
  read. -/
  optionIndex : Nat
  optionPlace : Nat
  mask : Nat
  aliases : List (String × String)
  /-- The programs that were found, and where. -/
  tracked : List (String × String)
  /-- The signals that did nothing to the process from its beginning. -/
  ignored : List Nat
  /-- The status that the shell leaves with when it is not told one, within a script that is kept
  for a signal. -/
  held : Option Nat

structure World where
  shell : Shell
  machine : Machine

/-- How a shell stops doing what it does. -/
inductive Departure where
  /-- The shell ends with its status. -/
  | leave
  /-- Something is wrong. A plain command of the shell ends with it, and all else ends the shell. -/
  | failure
  /-- The process of the shell has come to its end. -/
  | over (finish : Finish)

abbrev Act := ExceptT Departure (StateM World)

namespace Shell

def signalTable : List (String × String) :=
  [("HUP", "Hangup"), ("INT", ""), ("QUIT", "Quit"), ("ILL", "Illegal instruction"),
   ("TRAP", "Trace/breakpoint trap"), ("ABRT", "Aborted"), ("BUS", "Bus error"),
   ("FPE", "Floating point exception"), ("KILL", "Killed"), ("USR1", "User defined signal 1"),
   ("SEGV", "Segmentation fault"), ("USR2", "User defined signal 2"), ("PIPE", ""),
   ("ALRM", "Alarm clock"), ("TERM", "Terminated"), ("16", "Stack fault"), ("CHLD", ""),
   ("CONT", ""), ("STOP", ""), ("TSTP", ""), ("TTIN", ""), ("TTOU", ""), ("URG", ""),
   ("XCPU", "CPU time limit exceeded"), ("XFSZ", "File size limit exceeded"),
   ("VTALRM", "Virtual timer expired"), ("PROF", "Profiling timer expired"), ("WINCH", ""),
   ("IO", "I/O possible"), ("PWR", "Power failure"), ("SYS", "Bad system call")]

/-- The names of the signals, the first one being signal number one. -/
def signalNames : List String := signalTable.map (·.1)

/-- What is said about a program that a signal ended. -/
def signalText (signal : Nat) : Option String :=
  ((signalTable.map (·.2))[signal - 1]?).filter (!·.isEmpty)

/-- The signals that do nothing to a process. -/
def harmlessSignals : List Nat := [17, 18, 23, 28]

/-- The signals that stop a process. -/
def stoppingSignals : List Nat := [19, 20, 21, 22]

def binding? (shell : Shell) (name : String) : Option Binding :=
  shell.bindings.find? (·.name == name)

def valueOf? (shell : Shell) (name : String) : Option String :=
  (shell.binding? name).bind (·.value)

def putBinding (binding : Binding) : List Binding → List Binding
  | [] => [binding]
  | b :: rest => if b.name = binding.name then binding :: rest else b :: putBinding binding rest

/-- What hangs on the value of a variable: where options are read, and where programs were found. -/
def heedValue (shell : Shell) (name value : String) : Shell :=
  if name = "OPTIND" then
    { shell with optionIndex := max 1 (value.toNat?.getD 1), optionPlace := 0 }
  else if name = "PATH" then { shell with tracked := [] }
  else shell

/-- A shell in which a variable has a value, whatever kept it from changes. -/
def withValue (shell : Shell) (name value : String) : Shell :=
  let old := shell.binding? name
  let binding : Binding :=
    ⟨name, some value, (old.map (·.exported)).getD false || shell.options.contains 'a',
      (old.map (·.readOnly)).getD false⟩
  { shell with bindings := putBinding binding shell.bindings }.heedValue name value

def withExported (shell : Shell) (name : String) : Shell :=
  let old := shell.binding? name
  let binding : Binding := ⟨name, old.bind (·.value), true, (old.map (·.readOnly)).getD false⟩
  { shell with bindings := putBinding binding shell.bindings }

/-- The place of a name in the table of variables. -/
def tablePlace (name : String) : Nat :=
  let sum := (name.toList.map Char.toNat).foldl (· + ·) 0
  (16 * (name.toList.head?.map Char.toNat).getD 0 + sum) % 39

/-- The variables that are handed on to programs, in the order of the table. -/
def exportedBindings (shell : Shell) : List (String × String) :=
  let exported := shell.bindings.filterMap fun binding =>
    if binding.exported then binding.value.map (binding.name, ·) else none
  exported.mergeSort fun a b => tablePlace a.1 ≤ tablePlace b.1

/-- The signals that do nothing to the shell, which the programs that it starts inherit. -/
def ignoredSignals (shell : Shell) : List Nat :=
  ((List.range 31).map (· + 1)).filter fun signal =>
    shell.ignored.contains signal ||
      (signalNames[signal - 1]?).any fun name => shell.traps.lookup name == some ""

def hasOption (shell : Shell) (letter : Char) : Bool := shell.options.contains letter

/-- The options that are set, in the order in which a shell names them. -/
def optionText (shell : Shell) : String :=
  String.ofList ("pubaCEVvxsnmiIfe".toList.filter shell.hasOption)

/-- The characters that divide fields. -/
def separators (shell : Shell) : List Char :=
  ((shell.valueOf? "IFS").map String.toList).getD [' ', '\t', '\n']

/-- What stands between arguments that are joined. -/
def joint (shell : Shell) : String :=
  match shell.valueOf? "IFS" with
  | none => " "
  | some text => String.ofList (text.toList.take 1)

/-- The value of a parameter that is not made of arguments. -/
def parameter (shell : Shell) (name : String) : Option String :=
  match name.toNat? with
  | some 0 => some shell.name
  | some n => shell.arguments[n - 1]?
  | none =>
    if name = "$" then some (toString shell.root)
    else if name = "?" then some (toString shell.status)
    else if name = "#" then some (toString shell.arguments.length)
    else if name = "-" then some shell.optionText
    else if name = "!" then shell.lastTask.map toString
    else shell.valueOf? name

/-- Two slashes at the front of a path stay two, and more are one. -/
def rootText (path : String) : List Char :=
  match path.toList with
  | '/' :: '/' :: '/' :: _ => ['/']
  | '/' :: '/' :: _ => ['/', '/']
  | _ => ['/']

/-- A path without steps that lead nowhere, each step to the parent taking one off. -/
def normalPath (base path : String) : String :=
  let absolute := Path.isAbsolute path
  let steps := if absolute then Path.pieces path.toList
    else Path.pieces base.toList ++ Path.pieces path.toList
  let kept := steps.foldl (fun kept step =>
    if step = ['.'] then kept
    else if step = ['.', '.'] then kept.dropLast
    else kept ++ [step]) ([] : List (List Char))
  String.ofList (rootText (if absolute then path else base) ++ ['/'].intercalate kept)

/-- The variables that a shell begins with besides those of its environment. -/
def ownBindings (path : String) : List Binding :=
  [⟨"OPTIND", some "1", false, false⟩, ⟨"IFS", some " \t\n", false, false⟩,
   ⟨"PS1", some "# ", false, false⟩, ⟨"PS2", some "> ", false, false⟩,
   ⟨"PS4", some "+ ", false, false⟩, ⟨"PPID", some "4241", false, false⟩,
   ⟨"PWD", some path, true, false⟩]

/-- The shell that a job starts. A directory that the environment names is believed when it is the
one that the job stands in. -/
def ofJob (tree : FileTree) (job : Job) (name : String) (arguments : List String)
    (options : List Char) : Shell :=
  let named : List Binding := (job.environment.filter fun (name, _) => isName name.toList).map
    fun (name, value) => ⟨name, some value, true, false⟩
  let imported : List Binding :=
    if named.any (·.name == "PATH") then named
    else ⟨"PATH", some Search.standard, false, false⟩ :: named
  let here := Octets.ofPath (.ofLocation job.directory)
  let path := match job.environment.lookup "PWD" with
    | some claimed =>
      if Path.isAbsolute claimed &&
          (tree.directoryAt [] (Octets.toPath claimed)).toOption = some job.directory then claimed
      else here
    | none => here
  ⟨name, none, 0, arguments, (ownBindings path).foldl (fun bindings b => putBinding b bindings)
      imported, [], [], #[], job.directory, path, job.descriptors, 0, 0, options, [], none, 0, 0,
    job.process, job.process, none, [], 1, 0, job.mask, [], [], job.ignored, none⟩

end Shell

namespace Act

def shell : Act Shell := do return (← get).shell

def machine : Act Machine := do return (← get).machine

def modifyShell (f : Shell → Shell) : Act Unit :=
  modify fun world => { world with shell := f world.shell }

/-- Works on the machine alone. -/
def onMachine (act : StateM Machine α) : Act α :=
  modifyGet fun ⟨shell, machine⟩ =>
    let (a, machine) := act machine
    (a, ⟨shell, machine⟩)

/-- Leaves no time to go on. -/
def runOut : Act α := do
  onMachine (modify fun machine => { machine with clock := max machine.clock machine.limit })
  throw (.over .outOfTime)

/-- Uses up some of the effort that is left. There is no time for what takes more. -/
def spend (effort : Nat) : Act Unit := do
  let machine ← machine
  if machine.effort < effort then
    onMachine (modify fun machine => { machine with effort := 0 })
    runOut
  else onMachine (modify fun machine => { machine with effort := machine.effort - effort })

def setStatus (status : Nat) : Act Unit := modifyShell fun shell => { shell with status }

/-- Writes to a descriptor. The answer is whether that can be done. -/
def write (descriptor : Nat) (text : String) : Act Bool := do
  let world ← get
  if world.machine.canWrite world.shell.descriptors descriptor then
    set { world with machine := world.machine.write world.shell.descriptors descriptor text }
    return true
  else return false

def say (text : String) : Act Unit := do
  let _ ← write 2 (text ++ "\n")

/-- Says what is wrong, behind the name of the shell and the line. -/
def complain (message : String) : Act Unit := do
  let shell ← shell
  let context := match shell.context with
    | some name => name ++ ": "
    | none => ""
  say (shell.name ++ ": " ++ toString shell.line ++ ": " ++ context ++ message)

/-- Ends what is going on with a complaint. -/
def fail (message : String) : Act α := do
  complain message
  setStatus 2
  throw .failure

/-- Waits on the clock of the machine. -/
def wait (moment : Nat) : Act Unit := do
  match ← onMachine fun machine => machine.waitUntil moment with
  | .exited _ => return
  | finish => throw (.over finish)

/-- Gives a variable a value, unless it is kept from changes. -/
def assign (name value : String) : Act Unit := do
  let shell ← shell
  if (shell.binding? name).any (·.readOnly) then fail (name ++ ": is read only")
  else modifyShell (·.withValue name value)

/-- Keeps what a variable was until the function that is carried out, or the command, has ended. -/
def keep (name : String) : Act Unit :=
  modifyShell fun shell =>
    let old := (shell.binding? name).getD ⟨name, none, false, false⟩
    match shell.frames with
    | frame :: frames =>
      if frame.any (·.name == name) then shell
      else { shell with frames := (old :: frame) :: frames }
    | [] => shell

/-- Puts back what was kept last. -/
def restoreFrame : Act Unit :=
  modifyShell fun shell =>
    match shell.frames with
    | frame :: frames =>
      let bindings := frame.foldl (fun bindings binding =>
        if binding.value.isNone && !binding.exported && !binding.readOnly then
          bindings.filter (·.name != binding.name)
        else Shell.putBinding binding bindings) shell.bindings
      { shell with bindings, frames }
    | [] => shell

/-- What an act does, and something that is done behind it in any case. -/
def ensuring (act : Act α) (after : Act Unit) : Act α := do
  let result ← tryCatch (do return .ok (← act)) fun departure => return .error departure
  after
  match (result : Except Departure α) with
  | .ok a => return a
  | .error departure => throw departure

end Act
end Agentry.Host

import Agentry.Host.Shell.Signals
/-!
# Starting programs from a shell

A shell waits for a program that it starts, unless the program takes its place. A file that may be
executed but is no program is carried out by a shell, if its first line is text.
-/
namespace Agentry.Host.Shell

/-- The job of a program that a shell starts. -/
def jobOf (shell : Shell) (process : Nat) (name : String) (arguments : List String) : Job :=
  ⟨name, arguments, shell.directory, shell.exportedBindings, shell.descriptors, process,
    shell.mask, shell.ignoredSignals⟩

/-- Where programs are looked for. -/
def searchPath (shell : Shell) : String := (shell.valueOf? "PATH").getD ""

/-- The status that a program gives which cannot be executed. -/
def faultStatus : IoError → Nat
  | .notFound => 127
  | .notADirectory => 127
  | .tooManyLinks => 127
  | .nameTooLong => 127
  | _ => 126

/-- How many octets of a file are looked at to tell whether it is a text. -/
def lookSize : Nat := 128

/-- Whether an octet stands in no text. -/
def isBinaryOctet (octet : UInt8) : Bool :=
  octet = 127 || (octet < 32 && !(9 ≤ octet && octet ≤ 15) && octet ≠ 27)

/-- Whether the first line of a file holds what stands in no text. -/
def isBinary (tree : FileTree) (home : Location) (path : String) : Bool :=
  let place := tree.locatePath home .existing (Octets.toPath path)
  match place.toOption.bind tree.get? with
  | some (.file bytes _) =>
    let line := (bytes.extract 0 lookSize).toList.takeWhile (· ≠ 10)
    line.any isBinaryOctet
  | _ => false

/-- Executes a file, or has a shell carry it out if it is a text. -/
def execute (launch : Launcher) (job : Job) (machine : Machine) (path : String) :
    Except IoError (Finish × Machine) :=
  if isBinary machine.tree job.directory path then launch path job machine
  else Search.executeOrRead launch path job machine

/-- Executes the first of some paths that can be executed. When there is none, the last fault is
told that does not only say that nothing is there. -/
def executeFirst (attempt : String → Except IoError α) : IoError → List String → Except IoError α
  | cause, [] => .error cause
  | cause, path :: paths =>
    match attempt path with
    | .error .notFound => executeFirst attempt cause paths
    | .error .notADirectory => executeFirst attempt cause paths
    | .error other => executeFirst attempt other paths
    | answer => answer

/-- The paths of a program, the first of which leads to a file that may be executed if the name has
no slash. A program that was found before is looked for from there on. -/
def pathsOf (shell : Shell) (tree : FileTree) (search name : String) :
    Except IoError (List String) :=
  if Search.hasSlash name then .ok [name]
  else
    let candidates := Search.candidates search name
    let candidates := match shell.tracked.lookup name with
      | some path =>
        if candidates.contains path then candidates.dropWhile (· ≠ path) else candidates
      | none => candidates
    Search.find tree shell.directory .notFound candidates

/-- Puts the program of a job in the place of the shell. -/
def become (launch : Launcher) (job : Job) (paths : List String) : Act α := do
  let machine ← Act.machine
  match executeFirst (execute launch job machine) .notFound paths with
  | .ok (finish, machine) =>
    Act.onMachine (set machine)
    throw (.over finish)
  | .error cause =>
    Act.complain (job.name ++ ": " ++ executeReason cause)
    Act.setStatus (faultStatus cause)
    throw .leave

/-- Remembers where a program was found. -/
def track (name path : String) : Act Unit :=
  Act.modifyShell fun shell =>
    { shell with tracked := shell.tracked.filter (·.1 != name) ++ [(name, path)] }

/-- The status of a program that the shell waited for. -/
def statusAfter (finish : Finish) : Act Nat := do
  match finish with
  | .outOfTime => throw (.over finish)
  | finish =>
    Builtin.sayFinish finish
    return Builtin.statusOf finish

/-- Starts a program. `inPlace` says that the shell has nothing to do behind it. -/
def startProgram (launch : Launcher) (search : String) (inPlace : Bool) (name : String)
    (arguments : List String) : Act Nat := do
  Act.onMachine (modify Machine.catchUp)
  let shell ← Act.shell
  match shell.pathsOf (← Act.machine).tree search name with
  | .error cause =>
    Act.complain (name ++ ": " ++ executeReason cause)
    return 127
  | .ok paths =>
    unless Search.hasSlash name do track name (paths.head?.getD name)
    if inPlace then become launch (shell.jobOf shell.process name arguments) paths
    else
      let process ← Act.onMachine fun machine => machine.newProcess
      let job := shell.jobOf process name arguments
      let machine ← Act.machine
      match executeFirst (execute launch job machine) .notFound paths with
      | .ok (finish, machine) =>
        Act.onMachine (set machine)
        statusAfter finish
      | .error cause =>
        Act.complain (name ++ ": " ++ executeReason cause)
        return faultStatus cause

end Agentry.Host.Shell

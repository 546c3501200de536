import Agentry.Files.Disk
import Agentry.Host.Shell.Program
import Agentry.Host.Tool.Calculation
import Agentry.Host.Tool.Editing
import Agentry.Host.Tool.Files
import Agentry.Host.Tool.Selection
import Agentry.Host.Tool.Starting
import Agentry.Invocation.Behavior
/-!
# Programs on the host

A file is a program when it may be executed and is the image of a tool or of the shell, or a script
that names its interpreter. Starting a program for the sandbox gives it the host's file tree and the
time limit of the call. A call that brings a search path of its own has the shell carry out a file
which is no program.

This is one platform. Sandboxes, behaviors and command lines take any other as well, and nothing
that is proved of them depends on this one.
-/
namespace Agentry.Host

/-- The directory of the tools. -/
def toolDirectory : Location := ["usr", "bin"]

/-- The names of the shell. -/
def shellNames : List String := ["sh", "dash", "bash"]

/-- The tools that start no other program. -/
def plainTools : List (String × Tool) :=
  [("true", Tool.exits 0), ("false", Tool.exits 1), ("echo", Tool.echo), ("printf", Tool.printf),
   ("pwd", Tool.pwd), ("sleep", Tool.sleep), ("yes", Tool.yes), ("basename", Tool.basename),
   ("dirname", Tool.dirname), ("test", Tool.test), ("[", Tool.bracket),
   ("whoami", Tool.printing "root"), ("id", Tool.id), ("uname", Tool.uname),
   ("nproc", Tool.printing "1"), ("printenv", Tool.printenv), ("seq", Tool.seq),
   ("cat", Tool.cat), ("head", Tool.head),
   ("tail", Tool.tail), ("wc", Tool.wc), ("tee", Tool.tee), ("sort", Tool.sort),
   ("uniq", Tool.uniq), ("grep", Tool.grep), ("tr", Tool.tr), ("cut", Tool.cut), ("rm", Tool.rm),
   ("mkdir", Tool.mkdir), ("rmdir", Tool.rmdir), ("touch", Tool.touch), ("cp", Tool.cp),
   ("mv", Tool.mv), ("ln", Tool.ln), ("chmod", Tool.chmod), ("ls", Tool.ls),
   ("expr", Tool.expr), ("sed", Tool.sed), ("readlink", Tool.readlink), ("realpath", Tool.realpath)]

/-- The tools that are given what starts programs. -/
def startingTools : List (String × (Launcher → Tool)) :=
  [("env", Tool.env), ("timeout", Tool.timeout), ("sh", Shell.program)]

/-- What the file of a program begins with. -/
def imageMark : List UInt8 := [127, 69, 76, 70, 0]

/-- The octets of the file of a tool. -/
def imageOf (name : String) : ByteArray :=
  ⟨(imageMark ++ name.toUTF8.toList).toArray⟩

/-- The tool that a file is the image of. -/
def toolIn (launch : Launcher) (bytes : ByteArray) : Option Tool :=
  let octets := bytes.toList
  if imageMark.isPrefixOf octets then
    match String.fromUTF8? (bytes.extract imageMark.length bytes.size) with
    | some name => (plainTools.lookup name).or ((startingTools.lookup name).map (· launch))
    | none => none
  else none

/-- How many octets of a file are looked at for its interpreter. -/
def headSize : Nat := 256

def isShebangBlank (c : Char) : Bool := c = ' ' || c = '\t'

/-- The interpreter that the first line of a script names, and the argument for it. -/
def interpreterOf (bytes : ByteArray) : Option (String × Option String) :=
  match (Octets.ofBytes (bytes.extract 0 headSize)).toList with
  | '#' :: '!' :: rest =>
    let line := (rest.takeWhile fun c => c ≠ '\n' && c ≠ '\x00')
    let cut := line.length = rest.length && rest.length + 2 = headSize
    let line := (line.dropWhile isShebangBlank).reverse.dropWhile isShebangBlank |>.reverse
    let name := line.takeWhile (!isShebangBlank ·)
    let argument := (line.drop name.length).dropWhile isShebangBlank
    if name.isEmpty || (cut && argument.isEmpty) then none
    else some (String.ofList name,
      if argument.isEmpty then none else some (String.ofList argument))
  | _ => none

/-- How many files may name each other as interpreters. -/
def interpreterLimit : Nat := 6

/-- Executes a file, and the interpreter that it names if it is a script. -/
def execute (launch : Launcher) : Nat → Launcher
  | 0 => fun _ _ _ => .error .tooManyLinks
  | depth + 1 => fun path job machine => do
    let loc ← machine.tree.locatePath job.directory .existing (Octets.toPath path)
    match machine.tree.get? loc with
    | some (.file bytes mode) =>
      if !Machine.isExecutable mode then .error .permissionDenied
      else
        match toolIn launch bytes with
        | some tool =>
          let (finish, machine) := tool job machine
          if machine.clock ≥ machine.limit then .ok (.outOfTime, machine)
          else .ok (finish, machine)
        | none =>
          match interpreterOf bytes with
          | some (interpreter, argument) =>
            execute launch depth interpreter
              { job with
                name := interpreter, arguments := argument.toList ++ path :: job.arguments }
              machine
          | none => .error .notAProgram
    | some _ => .error .permissionDenied
    | none => .error .notFound

/-- How deep programs may start programs. -/
def depthLimit : Nat := 64

def launch : Nat → Launcher
  | 0 => fun _ _ _ => .error (.other "Resource temporarily unavailable")
  | depth + 1 => execute (launch depth) interpreterLimit

/-- What a program finds in its environment. -/
def baseEnvironment : List (String × String) :=
  [("PATH", Search.standard), ("HOME", "/root")]

abbrev Environment := List (String × String)

/-- An environment with some settings, later ones replacing earlier ones. -/
def extended (inherited settings : Environment) : Environment :=
  settings.foldl (fun environment (name, value) => Tool.withVariable name value environment)
    inherited

def octetEnvironment (environment : Environment) : Environment :=
  environment.map fun (name, value) => (Octets.ofText name, Octets.ofText value)

/-- Starts a program in a directory of a file tree. -/
def run (inherited : Environment) (tree : FileTree) (directory : Location) (call : ProgramCall) :
    Except IoError (Finish × Machine) :=
  let own := extended baseEnvironment inherited
  let environment := extended own call.environment
  let brings := call.environment.any (·.1 == "PATH")
  let search := ((if brings then environment else own).lookup "PATH").getD Search.standard
  let job : Job :=
    ⟨Octets.ofText call.program, call.arguments.map Octets.ofText, directory,
      octetEnvironment environment, Machine.standardDescriptors, Machine.firstProcess, 0o022, []⟩
  Search.start (launch depthLimit) brings (Octets.ofText search) job (.new tree call.limitMs)

def exitOctet (code : Nat) : UInt8 := UInt8.ofNat code

/-- The ending of a program, once those that it left behind have let go of its output. -/
def endingOf (machine : Machine) : Finish → Ending
  | .outOfTime => .timedOut none
  | .exited code =>
    if machine.busyUntil ≥ machine.limit then .timedOut none else .exited (exitOctet code) none
  | .signalled _ =>
    if machine.busyUntil ≥ machine.limit then .timedOut none else .signalled none

def hasNul (s : String) : Bool := s.toList.contains '\x00'

/-- No text of a call may hold a NUL. -/
def isWritable (call : ProgramCall) : Bool :=
  !(hasNul call.program || call.arguments.any hasNul || call.directory.octets.contains 0 ||
    call.environment.any fun (name, value) => hasNul name || hasNul value)

/-- Starts programs for the sandbox. A program that has no time is out of time as it starts. -/
def start (inherited : Environment) : Starter Disk := fun call disk =>
  if !isWritable call then (.notStarted .nulInArgument, disk)
  else
    match disk.tree.directoryAt disk.home call.directory with
    | .error cause => (.notStarted cause, disk)
    | .ok directory =>
      match run inherited disk.tree directory call with
      | .error cause => (.notStarted cause, disk)
      | .ok (finish, machine) =>
        let process := some Machine.firstProcess
        if call.limitMs = 0 then (.ran process 0 .empty .empty (.timedOut none), disk)
        else
          let settled := machine.settled
          (.ran process machine.clock settled.stdout settled.stderr (endingOf machine finish),
            { disk with tree := machine.tree })

/-- The host as a platform for behaviors. -/
def platform (inherited : Environment) : Platform Disk :=
  ⟨start inherited, fun disk base path => disk.tree.changeDirectory disk.home base path⟩

/-- The locations of an empty host: its usual directories and the tools. -/
def emptyTree : FileTree :=
  let directories : List Location :=
    [["usr"], ["usr", "bin"], ["usr", "local"], ["usr", "local", "bin"], ["etc"], ["dev"], ["tmp"],
     ["root"], ["home"], ["var"], ["var", "tmp"], ["opt"], ["proc"], ["sys"], ["mnt"], ["srv"],
     ["run"]]
  let files : List Location :=
    [["etc", "hosts"], ["etc", "passwd"], ["dev", "null"], ["dev", "zero"]]
  let tools := plainTools.map (·.1) ++ startingTools.map (·.1)
  ⟨directories.map (·, .directory directoryMode) ++ [(["bin"], .link "usr/bin")] ++
    files.map (·, .file .empty 0o644) ++
    tools.map (fun name => (toolDirectory ++ [name], .file (imageOf name) 0o755)) ++
    (shellNames.drop 1).map fun name => (toolDirectory ++ [name], .file (imageOf "sh") 0o755)⟩

end Agentry.Host

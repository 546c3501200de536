import Agentry.Host.Shell.Run
/-!
# The shell as a program

A script is given behind `-c`, or is in a file, or is the input. The shell ends with the status of
its last command.
-/
namespace Agentry.Host.Shell

/-- Sets the options that a shell is called with. The answer is whether a script is given behind
them, and what stands behind them. -/
def takeOptions : Bool → List String → Act (Bool × List String)
  | given, [] => return (given, [])
  | given, argument :: rest => do
    if argument = "-" || argument = "--" then return (given, rest)
    else
      match argument.toList with
      | sign :: letters =>
        if sign = '-' || sign = '+' then
          let given := given || letters.contains 'c'
          let on := decide (sign = '-')
          if ← Builtin.setLetters on (letters.filter fun c => c ≠ 'c' && c ≠ 'l') then
            match rest with
            | name :: rest =>
              Builtin.setNamed on name
              takeOptions given rest
            | [] =>
              let _ ← Builtin.listOptions on
              return (given, [])
          else takeOptions given rest
        else return (given, argument :: rest)
      | [] => return (given, argument :: rest)

/-- The text of a script, which holds no NUL. -/
def scriptText (octets : String) : String :=
  String.ofList (octets.toList.filter (· ≠ '\x00'))

/-- Reads the file of a script. A directory is a script without commands. -/
def readScript (path : String) : Act String := do
  let world ← get
  match world.machine.readFile world.shell.directory (Octets.toPath path) with
  | .ok bytes => return scriptText (Octets.ofBytes bytes)
  | .error .isADirectory => return ""
  | .error cause => Act.fail ("cannot open " ++ path ++ ": " ++ openReason cause)

/-- Carries out the script that the arguments ask for. -/
def runScript (run : Runner) (arguments : List String) : Act Unit := do
  let (given, operands) ← takeOptions false arguments
  match given, operands with
  | true, [] => Act.fail "-c requires an argument"
  | true, script :: rest =>
    Act.modifyShell fun shell =>
      { shell with name := rest.head?.getD shell.name, arguments := rest.drop 1 }
    let _ ← runText run false script
  | false, operands =>
    match if (← Act.shell).hasOption 's' then none else operands.head? with
    | some path =>
      let text ← readScript path
      Act.modifyShell fun shell => { shell with name := path, arguments := operands.drop 1 }
      let _ ← runText run false text
    | none =>
      Builtin.setOption true 's'
      Act.modifyShell fun shell => { shell with arguments := operands }
      let text ← Act.onMachine (takeInput (← Act.shell).descriptors 0)
      let _ ← runText run false (scriptText text)

def program (launch : Launcher) : Tool := fun job => do
  let machine ← get
  let run := run launch
  let world : World := ⟨ofJob machine.tree job job.name [] [], machine⟩
  let (result, world) := (settle run (runScript run job.arguments)).run world
  set world.machine
  match result with
  | .ok finish => return finish
  | .error _ => return .exited 2

end Agentry.Host.Shell

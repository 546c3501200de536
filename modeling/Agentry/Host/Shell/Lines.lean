import Agentry.Host.Shell.Signals
/-!
# Carrying out lines

A text is carried out line by line, a line being read only when those before it were carried out. A
loop or a function that is left, and an end of the shell, leave the rest of the text unread.
-/
namespace Agentry.Host

/-- How a command is carried out: whether its failure is tested for, and whether the shell has
nothing to do behind it. -/
structure Manner where
  tested : Bool
  last : Bool

/-- Carries out commands. -/
abbrev Runner := Manner → Command → Act Unit

namespace Act

/-- What an act does, its departure being an answer. -/
def attempt (act : Act α) : Act (Except Departure α) :=
  ExceptT.mk do return .ok (← act.run)

end Act

namespace Shell

/-- Carries out the lines of a source and gives the status of the last one. The first argument
bounds the number of lines. -/
def runLines (run : Runner) (tested : Bool) : Nat → Nat → Source → Act Nat
  | 0, status, _ => return status
  | fuel + 1, status, source => do
    let shell ← Act.shell
    let source := { source with documents := shell.documents, aliases := shell.aliases }
    match Reader.readLine source with
    | .error fault =>
      Act.modifyShell fun shell => { shell with line := fault.line }
      Act.fail ("Syntax error: " ++ fault.cause.message)
    | .ok (none, _) => return status
    | .ok (some command, source) =>
      Act.modifyShell fun shell => { shell with documents := source.documents }
      run ⟨tested, false⟩ command
      let shell ← Act.shell
      let status := if command.isNothing then status else shell.status
      if shell.skip.isSome then return status else runLines run tested fuel status source

/-- Carries out a text and gives the status of its last line, or zero if it has none. -/
def runText (run : Runner) (tested : Bool) (text : String) : Act Nat :=
  runLines run tested (text.length + 1) 0 (.ofText text #[])

/-- Carries out a script that is kept for a signal. The status is what it was, unless the script
returns from a function. -/
def runTrap (run : Runner) (script : String) : Act Unit := do
  let before ← Act.shell
  Act.modifyShell fun shell => { shell with held := some shell.status }
  let _ ← runText run false script
  Act.modifyShell fun shell =>
    { shell with
      held := before.held
      status := if shell.skip = some .returning then shell.status else before.status }

/-- Heeds the signals that were sent to the shell. -/
def heedSignals (run : Runner) : Act Unit := do
  unless (← Act.machine).doomed.isEmpty do
    (← Builtin.takeSignals).forM fun (signal, script) =>
      match script with
      | none => throw (.over (.signalled signal))
      | some script => runTrap run script

/-- How an act ends the shell, whose parting script follows it. -/
def settle (run : Runner) (act : Act Unit) : Act Finish := do
  let ending (shell : Shell) : Finish := .exited (shell.status % 256)
  match ← Act.attempt act with
  | .error (.over finish) => return finish
  | _ =>
    let shell ← Act.shell
    match shell.traps.lookup "EXIT" with
    | none => return ending shell
    | some script =>
      Act.modifyShell fun shell =>
        { shell with
          traps := shell.traps.filter (·.1 != "EXIT"), skip := none, held := some shell.status }
      match ← Act.attempt (runText run false script) with
      | .ok _ => return ending shell
      | .error (.over finish) => return finish
      | .error _ => return ending (← Act.shell)

/-- Carries out an act on a shell of its own, which is a process and has forgotten the scripts that
are kept for signals. -/
def apart (run : Runner) (process : Nat) (change : Shell → Shell) (act : Act Unit) :
    Act Finish := do
  let outer ← Act.shell
  Act.modifyShell fun shell =>
    change { shell with
      process, children := [], held := none, traps := shell.traps.filter (·.2.isEmpty) }
  let finish ← settle run act
  Act.modifyShell fun _ => outer
  return finish

def newProcess : Act Nat := Act.onMachine fun machine => machine.newProcess

/-- A text without the line ends at its end and without what no text holds. -/
def captureText (octets : String) : String :=
  String.ofList ((octets.toList.filter (· ≠ '\x00')).reverse.dropWhile (· = '\n')).reverse

/-- Carries out a command apart and gives what it writes. -/
def capture (run : Runner) : Capture := fun body => do
  if body.isNothing then
    Act.modifyShell fun shell => { shell with captured := 0 }
    return ""
  else
    let (read, write) ← Act.onMachine fun machine =>
      let (read, write, machine) := machine.openPipe
      ((read, write), machine)
    let finish ← apart run (← newProcess)
      (fun shell => { shell with descriptors := setDescriptor 1 (some write) shell.descriptors })
      (run ⟨false, true⟩ body)
    Act.onMachine (modify fun machine => machine.catchUp.closePipe write)
    match finish with
    | .outOfTime => throw (.over finish)
    | finish =>
      Builtin.sayFinish finish
      Act.modifyShell fun shell => { shell with captured := Builtin.statusOf finish }
      return captureText (← Act.onMachine (takeInput [(0, read)] 0))

end Shell
end Agentry.Host

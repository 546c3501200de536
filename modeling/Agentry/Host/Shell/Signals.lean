import Agentry.Host.Shell.Builtin
/-!
# Signals and tasks

A process that a signal was sent to notices it behind the command that it carries out. It dies of
it, unless a script is kept for the signal or the signal does nothing. A task that nobody waits for
has run already, so a signal that comes before its end takes back what it would have said later.
-/
namespace Agentry.Host.Builtin

/-- The number of a signal that is given by number or by name, whatever the case of its letters. -/
def signalNumber (least : Nat) (text : String) : Option Nat :=
  let wanted := String.ofList (text.toList.map Text.asciiUpper)
  if isNumber text then
    let n := Json.digitsValue text.toList
    if least ≤ n && n < 65 then some n else none
  else if wanted = "EXIT" && least = 0 then some 0
  else (Shell.signalNames.idxOf? wanted).map (· + 1)

/-- The name that a script for a signal is kept under. -/
def signalName (signal : Nat) : String :=
  if signal = 0 then "EXIT" else (Shell.signalNames[signal - 1]?).getD (toString signal)

def killUsage : String :=
  "Usage: kill [-s sigspec | -signum | -sigspec] [pid | job]... or\nkill -l [exitstatus]"

/-- A task as a signal leaves it at a moment. -/
def struck (moment signal : Nat) (task : Task) : Task :=
  { task with ending := moment, finish := .signalled signal }

/-- Sends a signal to a process. The answer is whether there is such a process. -/
def sendSignal (signal process : Nat) : Act Bool := do
  let world ← get
  let machine := world.machine
  if process = world.shell.process || process = world.shell.root then
    if signal ≠ 0 then
      Act.onMachine (modify fun machine =>
        { machine with doomed := machine.doomed ++ [(process, signal)] })
    return true
  else
    match machine.tasks.find? fun task => task.process = process && task.ending > machine.clock with
    | none => return false
    | some _ =>
      if signal ≠ 0 && !Shell.harmlessSignals.contains signal then
        Act.onMachine (modify fun machine =>
          { machine with
            tasks := machine.tasks.map fun task =>
              if task.process = process then struck machine.clock signal task else task
            utterances := machine.utterances.filter fun utterance =>
              utterance.process ≠ process || utterance.moment ≤ machine.clock })
      return true

/-- The process of a task that is given by its place among the tasks. -/
def jobProcess? (text : String) : Act (Option Nat) := do
  let shell ← Act.shell
  return match text.toList with
    | '%' :: digits =>
      match String.toNat? (String.ofList digits) with
      | some n => shell.children[n - 1]?
      | none => shell.lastTask
    | _ => none

/-- Sends a signal to each of some processes. -/
def sendAll (signal : Nat) (targets : List String) : Act Nat :=
  targets.foldlM (fun status target => do
    let process ← if target.toList.head? = some '%' then do
        match ← jobProcess? target with
        | some process => pure process
        | none => Act.fail ("No such job: " ++ target)
      else number (if target.toList.head? = some '-' then
        String.ofList (target.toList.drop 1) else target)
    let shell ← Act.shell
    let process := if process = 0 then shell.root else process
    if ← sendSignal signal process then return status
    else
      Act.complain "No such process\n"
      return 1) 0

def listSignals : List String → Act Nat
  | [] => output ("0\n" ++ String.join ((List.range 64).map fun n =>
      signalName (n + 1) ++ "\n"))
  | text :: _ => do
    let n ← number text
    let signal := if n > 128 then n - 128 else n
    if 0 < signal && signal < 65 then output (signalName signal ++ "\n")
    else Act.fail ("invalid signal number or exit status: " ++ text)

def kill : Builtin := fun arguments => do
  let named (signal : Nat) (targets : List String) : Act Nat :=
    if targets.isEmpty then Act.fail killUsage else sendAll signal targets
  match arguments with
  | [] => Act.fail killUsage
  | first :: rest =>
    match first.toList with
    | '-' :: c :: more =>
      match signalNumber 1 (String.ofList (c :: more)) with
      | some signal => named signal rest
      | none =>
        if first = "-0" then named 0 rest
        else if first = "--" then named 15 rest
        else if first = "-l" then listSignals rest
        else if c = 's' then
          let (name, targets) := if more.isEmpty then (rest.head?, rest.drop 1)
            else (some (String.ofList more), rest)
          match name with
          | none => Act.fail "No arg for -s option"
          | some name =>
            match signalNumber 0 name with
            | some signal => named signal targets
            | none => Act.fail ("invalid signal number or name: " ++ name)
        else Act.fail ("Illegal option -" ++ String.singleton c)
    | _ => named 15 arguments

/-- The scripts that are kept for signals, in the order of the signals. -/
def listTraps : Act Nat := do
  let traps := (← Act.shell).traps
  let lines := (List.range 65).filterMap fun signal =>
    (traps.lookup (signalName signal)).map fun script =>
      "trap -- " ++ singleQuoted script ++ " " ++ signalName signal ++ "\n"
  output (String.join lines)

/-- Keeps a script for signals, or for the end of the shell. -/
def trap : Builtin := fun arguments => do
  let (_, operands) ← letters [] arguments
  match operands with
  | [] => listTraps
  | first :: rest =>
    let (script, events) : Option String × List String :=
      if rest.isEmpty || (isNumber first && (signalNumber 0 first).isSome) then (none, operands)
      else (if first = "-" then none else some first, rest)
    let keep (event : String) : Act Bool := do
      match signalNumber 0 event with
      | none =>
        Act.say ("trap: " ++ event ++ ": bad trap")
        return false
      | some signal =>
        let name := signalName signal
        Act.modifyShell fun shell =>
          let others := shell.traps.filter (·.1 != name)
          { shell with traps := match script with
              | some script => others ++ [(name, script)]
              | none => others }
        return true
    let rec keepAll : List String → Act Nat
      | [] => return 0
      | event :: events => do if ← keep event then keepAll events else return 1
    keepAll events

/-- The status that the end of a program gives. -/
def statusOf : Finish → Nat
  | .exited code => code % 256
  | .signalled signal => 128 + signal
  | .outOfTime => 0

/-- Says how a program ended, if a signal ended it. -/
def sayFinish (finish : Finish) : Act Unit :=
  match finish with
  | .signalled signal =>
    match Shell.signalText signal with
    | some text => Act.say text
    | none => pure ()
  | _ => pure ()

/-- Waits for the end of a task, and forgets it. -/
def awaitTask (process : Nat) : Act Nat := do
  match (← Act.machine).tasks.find? (·.process = process) with
  | none => return 127
  | some task =>
    Act.wait task.ending
    sayFinish task.finish
    return statusOf task.finish

/-- Waits for the programs that nobody waited for. -/
def wait : Builtin := fun arguments => do
  let (_, operands) ← letters [] arguments
  if operands.isEmpty then
    (← Act.shell).children.forM fun process => do
      let _ ← awaitTask process
    return 0
  else
    operands.foldlM (fun _ target => do
      match ← jobProcess? target with
      | some process => awaitTask process
      | none =>
        if target.toList.head? = some '%' then Act.fail ("No such job: " ++ target)
        let process ← number target
        if (← Act.shell).children.contains process then awaitTask process else return 127) 0

/-- Takes the signals that were sent to the shell, and what is done about each: the script that is
kept for it, or nothing where the process dies of it. -/
def takeSignals : Act (List (Nat × Option String)) := do
  let world ← get
  let (mine, others) := world.machine.doomed.partition (·.1 = world.shell.process)
  if mine.isEmpty then return []
  else
    Act.onMachine (modify fun machine => { machine with doomed := others })
    return (mine.map (·.2)).filterMap fun signal =>
      let script := world.shell.traps.lookup (signalName signal)
      if signal = 9 then some (signal, none)
      else if world.shell.ignored.contains signal then none
      else
        match script with
        | some script => if script.isEmpty then none else some (signal, some script)
        | none => if Shell.harmlessSignals.contains signal then none else some (signal, none)

end Agentry.Host.Builtin

import Agentry.Host.Shell.Simple
/-!
# Running commands

Each end of a pipe, a group that is isolated and a command that nobody waits for have a shell of
their own, of which only the status remains. Time passes in all parts of a pipe at once. Behind each
command the shell heeds signals, and a failure that nobody tests for ends a shell that is told so.
-/
namespace Agentry.Host.Shell

/-- How many octets a pipe takes that nobody reads. -/
def pipeSize : Nat := 65536

/-- Connects the input and the output of a shell. -/
def connected (input output : Option Nat) (shell : Shell) : Shell :=
  let connect (descriptor : Nat) (index : Option Nat) (descriptors : List (Nat × Nat)) :=
    if index.isSome then setDescriptor descriptor index descriptors else descriptors
  { shell with descriptors := connect 1 output (connect 0 input shell.descriptors) }

/-- How the writer of a pipe ends. One that would go on for ever is stopped by the pipe, once that
is full and its reader has enough. -/
def relieved (machine : Machine) (began write : Nat) (finish : Finish) : Finish × Machine :=
  let written := match machine.openings[write]? with
    | some ⟨.pipe pipe, _, _, _, _⟩ => (machine.pipes[pipe]?.map (·.octets.size)).getD 0
    | _ => 0
  if finish = .outOfTime && machine.effort = 0 && written > pipeSize then
    (.signalled 13, { machine with clock := began, effort := Machine.effortLimit })
  else (finish, machine)

/-- Carries out the parts of a pipe, each reading what the one before it writes, and tells when and
how they ended. -/
def runParts (run : Runner) (tested : Bool) (began : Nat) :
    Option Nat → List Command → Act (List (Nat × Finish))
  | _, [] => return []
  | input, command :: rest => do
    Act.onMachine (modify fun machine => { machine with clock := began })
    let ends ← if rest.isEmpty then pure none
      else Act.onMachine fun machine =>
        let (read, write, machine) := machine.openPipe
        (some (read, write), machine)
    let finish ← apart run (← newProcess) (connected input (ends.map (·.2)))
      (run ⟨tested, true⟩ command)
    let finish ← match ends with
      | some (_, write) => Act.onMachine fun machine =>
        let (finish, machine) := relieved machine began write finish
        (finish, machine.closePipe write)
      | none => pure finish
    let ending := (← Act.machine).clock
    return (ending, finish) :: (← runParts run tested began (ends.map (·.1)) rest)

/-- Carries out a pipe. Its status is that of its last part. -/
def runPipe (run : Runner) (tested : Bool) (commands : List Command) : Act Unit := do
  Act.onMachine (modify Machine.catchUp)
  let parts ← runParts run tested (← Act.machine).clock none commands
  let ending := (parts.map (·.1)).foldl max 0
  Act.onMachine (modify fun machine => { machine with clock := ending }.catchUp)
  if parts.any (·.2 == .outOfTime) then throw (.over .outOfTime)
  parts.forM fun (_, finish) => Builtin.sayFinish finish
  Act.setStatus ((parts.getLast?.map fun (_, finish) => Builtin.statusOf finish).getD 0)

/-- The redirections of a command as a whole. -/
def redirectionsOf : Command → List Redirection
  | .simple _ _ _ redirections => redirections
  | .isolated _ _ redirections => redirections
  | .redirected _ _ redirections => redirections
  | _ => []

def descriptorOf : Redirection → Nat
  | .file descriptor _ _ => descriptor
  | .copy descriptor _ => descriptor
  | .document descriptor _ => descriptor

/-- Whether a command of a shell may write to the output of the call as long as it lasts. -/
def holdsOutput (shell : Shell) (machine : Machine) (body : Command) : Bool :=
  [1, 2].any fun descriptor =>
    !((redirectionsOf body).any fun redirection => descriptorOf redirection == descriptor) &&
      match (shell.descriptors.lookup descriptor).bind (machine.openings[·]?) with
      | some opening => opening.channel = .stdout || opening.channel = .stderr
      | none => false

/-- Carries out a command that nobody waits for. -/
def runAside (run : Runner) (body : Command) : Act Unit := do
  let process ← newProcess
  let before ← get
  let nowhere ← Act.onMachine fun machine =>
    { machine with aside := some process }.addOpening ⟨.nowhere, true, true, false, 0⟩
  let finish ← apart run process (connected (some nowhere) none) (run ⟨false, true⟩ body)
  let holds := holdsOutput before.shell before.machine body
  Act.onMachine (modify fun machine =>
    { machine with
      clock := before.machine.clock, aside := before.machine.aside
      tasks := machine.tasks ++ [⟨process, machine.clock, finish, holds⟩] })
  Act.modifyShell fun shell =>
    { shell with lastTask := some process, children := shell.children ++ [process], status := 0 }

/-- Carries out a command on a shell of its own. -/
def runIsolated (run : Runner) (manner : Manner) (line : Nat) (body : Command)
    (redirections : List Redirection) : Act Unit := do
  Act.onMachine (modify Machine.catchUp)
  Act.modifyShell fun shell => { shell with line }
  let filled ← redirections.mapM (fillIn (capture run))
  let act : Act Unit := do
    if ← redirectAll filled then run { manner with last := true } body
    else Act.setStatus 2
  let finish ← apart run (← newProcess) id act
  Act.setStatus (← statusAfter finish)

/-- Carries out a command with its descriptors changed. -/
def runRedirected (run : Runner) (tested : Bool) (line : Nat) (body : Command)
    (redirections : List Redirection) : Act Unit := do
  Act.modifyShell fun shell => { shell with line }
  let filled ← redirections.mapM (fillIn (capture run))
  let before := (← Act.shell).descriptors
  Act.ensuring (do
    if ← redirectAll filled then run ⟨tested, false⟩ body
    else
      Act.setStatus 2
      if !tested && (← Act.shell).hasOption 'e' then throw .leave)
    (putBack before filled)

/-- What is passed over behind a turn of a loop, and whether that was the last turn. -/
def afterTurn : Option Skip → Option Skip × Bool
  | none => (none, false)
  | some .returning => (some .returning, true)
  | some (.leaving loops) => (if loops ≤ 1 then none else some (.leaving (loops - 1)), true)
  | some (.repeating loops) =>
    if loops ≤ 1 then (none, false) else (some (.repeating (loops - 1)), true)

/-- Whether what was carried out last leaves a loop, and whether it leaves the turn. -/
def leaves : Act (Bool × Bool) := do
  let skip := (← Act.shell).skip
  let (after, finished) := afterTurn skip
  if skip.isSome then Act.modifyShell fun shell => { shell with skip := after }
  return (finished, skip.isSome)

/-- Goes round a loop and gives its status. The first argument bounds the number of turns. -/
def goRound (turn : Nat → Act (Nat × Bool)) : Nat → Nat → Act Nat
  | 0, status => return status
  | fuel + 1, status => do
    let (status, finished) ← turn status
    if finished then return status else goRound turn fuel status

def inLoop (act : Act Nat) : Act Unit := do
  Act.modifyShell fun shell => { shell with loops := shell.loops + 1 }
  let status ← act
  Act.modifyShell fun shell => { shell with loops := shell.loops - 1, status }

/-- Carries out a body as long as the success of a condition is as wanted. -/
def runLoop (run : Runner) (tested wanted : Bool) (condition body : Command) : Act Unit :=
  let turn (status : Nat) : Act (Nat × Bool) := do
    Act.spend 1
    run ⟨true, false⟩ condition
    let answer := (← Act.shell).status
    let returning := (← Act.shell).skip = some .returning
    let (finished, skipped) ← leaves
    if skipped then return (if returning then answer else status, finished)
    else if decide (answer = 0) ≠ wanted then return (status, true)
    else
      run ⟨tested, false⟩ body
      let status := (← Act.shell).status
      return (status, (← leaves).1)
  inLoop (goRound turn (Machine.effortLimit * Machine.effortLimit) 0)

/-- Carries out a body for each of some fields. -/
def runTurns (run : Runner) (tested : Bool) (name : String) (body : Command) :
    Nat → List String → Act Nat
  | status, [] => return status
  | _, field :: rest => do
    Act.assign name field
    run ⟨tested, false⟩ body
    let status := (← Act.shell).status
    if (← leaves).1 then return status else runTurns run tested name body status rest

def runEach (run : Runner) (tested : Bool) (line : Nat) (name : String) (words : List Word)
    (body : Command) : Act Unit := do
  Act.modifyShell fun shell => { shell with line }
  let fields ← words.mapM (Expansion.expandFields (capture run))
  inLoop (runTurns run tested name body 0 fields.flatten)

/-- The body whose patterns come first that a text fits. -/
def select (capture : Capture) (subject : List Char) :
    List (List Word × Command) → Act (Option Command)
  | [] => return none
  | (patterns, body) :: rest => do
    let rec fitsOne : List Word → Act Bool
      | [] => return false
      | pattern :: patterns => do
        let marks ← Expansion.expandPattern capture pattern
        if Pattern.fits (Pattern.ofMarks marks) subject then return true else fitsOne patterns
    if ← fitsOne patterns then return some body else select capture subject rest

def runSelection (run : Runner) (manner : Manner) (line : Nat) (subject : Word)
    (cases : List (List Word × Command)) : Act Unit := do
  Act.modifyShell fun shell => { shell with line }
  let text ← Expansion.expandText (capture run) subject
  match ← select (capture run) text.toList cases with
  | some body => if body.isNothing then Act.setStatus 0 else run manner body
  | none => Act.setStatus 0

/-- Whether nothing is passed over. -/
def goesOn : Act Bool := do return (← Act.shell).skip.isNone

/-- Carries out commands in order. -/
def runSequence (run : Runner) (manner : Manner) : List Command → Act Unit
  | [] => return
  | [command] => run manner command
  | command :: rest => do
    run { manner with last := false } command
    if ← goesOn then runSequence run manner rest

/-- Carries out the second of two commands if the success of the first one is as wanted. -/
def runSecond (run : Runner) (manner : Manner) (wanted : Bool) (first second : Command) :
    Act Unit := do
  run ⟨true, false⟩ first
  if ← goesOn then
    if decide ((← Act.shell).status = 0) = wanted then run manner second

/-- Whether a failure of a command ends a shell that is told so. -/
def isChecked : Command → Bool
  | .simple _ _ _ _ => true
  | .pipe _ => true
  | .background _ => true
  | .isolated _ _ _ => true
  | _ => false

/-- Carries out a command, whose parts another function carries out. -/
def runOnce (launch : Launcher) (run : Runner) (manner : Manner) (command : Command) :
    Act Unit := do
  match command with
  | .simple line assignments words redirections =>
    runSimple launch run manner line assignments words redirections
  | .sequence commands => runSequence run manner commands
  | .onSuccess first second => runSecond run manner true first second
  | .onFailure first second => runSecond run manner false first second
  | .negated body =>
    run ⟨true, false⟩ body
    if ← goesOn then
      let status := (← Act.shell).status
      Act.setStatus (if status = 0 then 1 else 0)
  | .pipe commands => runPipe run manner.tested commands
  | .background body => runAside run body
  | .isolated line body redirections => runIsolated run manner line body redirections
  | .redirected line body redirections => runRedirected run manner.tested line body redirections
  | .choice condition yes no =>
    run ⟨true, false⟩ condition
    if ← goesOn then
      if (← Act.shell).status = 0 then run manner yes
      else
        match no with
        | some no => run manner no
        | none => Act.setStatus 0
  | .loop wanted condition body => runLoop run manner.tested wanted condition body
  | .each line name words body => runEach run manner.tested line name words body
  | .selection line subject cases => runSelection run manner line subject cases
  | .definition name body =>
    Act.modifyShell fun shell =>
      { shell with
        functions := shell.functions.filter (·.1 != name) ++ [(name, body)], status := 0 }

/-- How deep commands may be nested as they are carried out. -/
def nestingLimit : Nat := 20000

/-- Carries out a command. The first argument bounds the nesting. -/
def runWithin (launch : Launcher) : Nat → Runner
  | 0 => fun _ _ => Act.runOut
  | fuel + 1 => fun manner command => do
    Act.spend 1
    unless (← Act.shell).hasOption 'n' do
      runOnce launch (runWithin launch fuel) manner command
      heedSignals (runWithin launch fuel)
      let shell ← Act.shell
      if isChecked command && !manner.tested && shell.hasOption 'e' && shell.status ≠ 0 then
        throw .leave

def run (launch : Launcher) : Runner := runWithin launch nestingLimit

end Agentry.Host.Shell

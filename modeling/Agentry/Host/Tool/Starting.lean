import Agentry.Host.Search
import Agentry.Host.Tool.Printing
/-!
# Tools that start programs

Tools that start another program in an environment of its own, or for a limited time.
-/
namespace Agentry.Host.Tool

/-- An environment in which a variable has a value. -/
def withVariable (name value : String) : List (String × String) → List (String × String)
  | [] => [(name, value)]
  | (n, v) :: rest =>
    if n = name then (name, value) :: rest else (n, v) :: withVariable name value rest

/-- The name and the value in a setting. -/
def setting? (argument : String) : Option (String × String) :=
  (Text.cut ['='] argument.toList).map fun (name, value) =>
    (String.ofList name, String.ofList value)

/-- Settings at the front of some arguments, and what follows them. -/
def settingsBefore : List String → List (String × String) × List String
  | [] => ([], [])
  | argument :: rest =>
    match setting? argument with
    | some pair =>
      let (settings, rest) := settingsBefore rest
      (pair :: settings, rest)
    | none => ([], argument :: rest)

def envOptions : Options where
  plain := ['i', '0', 'v']
  taking := ['u', 'C', 'S']
  long := [("ignore-environment", 'i'), ("null", '0'), ("unset", 'u'), ("chdir", 'C'),
    ("split-string", 'S'), ("debug", 'v')]
  trouble := 125
  strict := true

/-- Starts the program of a job, which takes the place of the tool. -/
def startProgram (launch : Launcher) (job : Job) (fault : IoError → Work Finish) : Work Finish := do
  let search := (job.environment.lookup "PATH").getD "/bin:/usr/bin"
  match Search.start launch true search job (← Work.machine) with
  | .ok (finish, machine) =>
    Work.onMachine (set machine)
    return finish
  | .error cause => fault cause

/-- Prints the environment, or starts a program in it. -/
def env (launch : Launcher) : Tool := ofWork do
  let given ← envOptions.read
  let job ← Work.job
  let (bare, operands) := match given.operands with
    | "-" :: rest => (true, rest)
    | operands => (given.has 'i', operands)
  let words := (given.argument? 'S').map fun text =>
    ((Text.splitOn ' ' text.toList).filter (!·.isEmpty)).map String.ofList
  let (settings, command) := settingsBefore (words.getD [] ++ operands)
  let inherited := if bare then [] else job.environment
  let dropped := (given.options.filter (·.1 = 'u')).map (·.2)
  let kept := inherited.filter fun (name, _) => !dropped.contains name
  let environment := settings.foldl (fun environment (name, value) =>
    withVariable name value environment) kept
  match command with
  | [] =>
    environment.forM fun (name, value) =>
      Work.put (name ++ "=" ++ value ++ if given.has '0' then "\x00" else "\n")
  | name :: arguments =>
    let directory ← match given.argument? 'C' with
      | none => pure job.directory
      | some path =>
        match (← Work.machine).tree.directoryAt job.directory (Octets.toPath path) with
        | .ok directory => pure directory
        | .error cause =>
          Work.die 125 ("cannot change directory to " ++ quoted path ++ ": " ++ reasonText cause)
    let started : Job := { job with name, arguments, environment, directory }
    let finish ← startProgram launch started fun cause => do
      Work.complain (quoted name ++ ": " ++ reasonText cause)
      if cause = .notFound && name.toList.any isBlank then
        Work.complain "use -[v]S to pass options in shebang lines"
      Work.quit (if cause = .notFound then 127 else 126)
    throw finish
where
  isBlank (c : Char) : Bool := c = ' ' || ('\t' ≤ c && c ≤ '\r')

def timeoutOptions : Options where
  plain := ['v', 'p', 'f']
  taking := ['s', 'k']
  long := [("signal", 's'), ("kill-after", 'k'), ("verbose", 'v'), ("preserve-status", 'p'),
    ("foreground", 'f')]
  trouble := 125
  strict := true

/-- The signal that a text names. -/
def signalOf (text : String) : Option Nat :=
  let upper := text.toList.map Text.asciiUpper
  let name := if "SIG".toList.isPrefixOf upper then upper.drop 3 else upper
  match text.toNat? with
  | some n => some n
  | none =>
    let names := [("HUP", 1), ("INT", 2), ("QUIT", 3), ("KILL", 9), ("USR1", 10), ("USR2", 12),
      ("TERM", 15)]
    names.lookup (String.ofList name)

/-- Starts a program and stops it when its time is over. -/
def timeout (launch : Launcher) : Tool := ofWork do
  let given ← timeoutOptions.read
  let job ← Work.job
  match given.operands with
  | time :: name :: arguments =>
    let signal ← match given.argument? 's' with
      | none => pure 15
      | some text =>
        match signalOf text with
        | some signal => pure signal
        | none => Work.misuse 125 (quoted text ++ ": invalid signal")
    match duration? time with
    | none => Work.misuse 125 ("invalid time interval " ++ quoted time)
    | some duration =>
      let before ← Work.machine
      let limit := if duration = 0 then before.limit else min before.limit (before.clock + duration)
      Work.onMachine (modify fun machine => { machine with limit })
      let finish ← startProgram launch { job with name, arguments } fun cause => do
        Work.complain ("failed to run command " ++ quoted name ++ ": " ++ reasonText cause)
        return .exited (if cause = .notFound then 127 else 126)
      Work.onMachine (modify fun machine => { machine with limit := before.limit })
      if finish = .outOfTime && limit < before.limit then
        Work.onMachine (modify fun machine =>
          { machine with clock := max before.clock limit, effort := Machine.effortLimit })
        throw (if signal = 9 then .signalled 9
          else .exited (if given.has 'p' then 128 + signal else 124))
      else throw finish
  | _ => Work.pointToHelp 125

end Agentry.Host.Tool

import Agentry.Cli.Grammar
import Agentry.Files.OsPath
import Agentry.Store.Policy
/-!
# Requests

A command line asks for one of five things. Some settings can stand before the command and behind
it, and come from the environment when they stand in neither place.
-/
namespace Agentry.Cli

structure Settings where
  json : Bool
  registry : String
  timeoutMs : Nat
  strictNumbers : Bool
  deriving DecidableEq, Repr

/-- Where the prompt of a new agent comes from. -/
inductive PromptSource where
  | text (prompt : String)
  | file (path : String)
  | standard
  deriving DecidableEq, Repr

/-- A new agent, part by part. -/
structure NewAgent where
  name : String
  description : String
  version : String
  tools : List String
  inputs : List String
  outputs : List String
  prompt : PromptSource
  deriving DecidableEq, Repr

/-- Where the spec of a new agent comes from. -/
inductive SpecSource where
  | parts (agent : NewAgent)
  | file (path : String)
  deriving DecidableEq, Repr

inductive Request where
  | create (source : SpecSource) (policy : CollisionPolicy)
  | list
  | display (slug : String)
  | run (agent : String) (arguments : List String)
  | exec (directory : Option OsPath) (allowUnsafe : Bool) (command : String)
      (arguments : List String)
  deriving DecidableEq, Repr

def readPath (text : String) : Option String :=
  if text.isEmpty then none else some text

/-- A natural number of 64 bits, with or without a plus sign. -/
def readLimit (text : String) : Option Nat :=
  let digits := match text.toList with
    | '+' :: rest => rest
    | cs => cs
  if !digits.isEmpty && digits.all Char.isDigit then
    let n := digits.foldl (fun n c => n * 10 + (c.toNat - 48)) 0
    if n < Nat.pow 2 64 then some n else none
  else none

/-- A flag has no text on the command line and a word in the environment. -/
def readSwitch (text : String) : Option Bool :=
  if text.isEmpty || text = "true" then some true
  else if text = "false" then some false
  else none

/-- An option whose value a reader can read. -/
def readRule (name : String) (read : String → Option α) : OptionRule :=
  valueRule name fun text => (read text).isSome

def sharedOptions : List OptionRule :=
  [flagRule "verbose" (some 'v'), flagRule "json" none, readRule "registry-dir" readPath,
   readRule "timeout-ms" readLimit, flagRule "strict-numbers" none]

def commandNames : List String := ["create", "list", "show", "run", "exec", "help"]

def topGrammar : Grammar := ⟨sharedOptions, [], true⟩

def createOptions : List OptionRule :=
  [listRule "input", listRule "output", readRule "prompt" some, readRule "prompt-file" readPath,
   readRule "version" some,
   readRule "on-collision" fun text => (CollisionPolicy.parse text).toOption,
   readRule "from-json" readPath]

def grammarOf (command : String) : Grammar :=
  if command = "create" then
    ⟨createOptions ++ sharedOptions,
      [oneRule "name", oneRule "description", ⟨"tools", true, false, false⟩], false⟩
  else if command = "show" then ⟨sharedOptions, [oneRule "slug"], false⟩
  else if command = "run" then
    ⟨sharedOptions, [oneRule "agent", ⟨"args", true, true, false⟩], false⟩
  else if command = "exec" then
    ⟨[readRule "cwd" readPath, flagRule "allow-unsafe" none] ++ sharedOptions,
      [⟨"command", true, false, true⟩], false⟩
  else ⟨sharedOptions, [], false⟩

/-- Variables with their values, a later value in place of an earlier one. -/
abbrev Environment := List (String × String)

/-- A setting that has no value of its own: where it comes from, and how it is read. -/
structure Setting (α : Type) where
  option : String
  envName : String
  default : α
  read : String → Option α

def registrySetting : Setting String := ⟨"registry-dir", "AGENTC_REGISTRY_DIR", "agents", readPath⟩

def timeoutSetting : Setting Nat := ⟨"timeout-ms", "AGENTC_TIMEOUT_MS", 30000, readLimit⟩

def strictSetting : Setting Bool :=
  ⟨"strict-numbers", "AGENTC_STRICT_NUMBERS", false, readSwitch⟩

def required (read : String → Option α) (what text : String) : Except Halt α :=
  match read text with
  | some a => .ok a
  | none => .error (.usage ("invalid value '" ++ text ++ "' for " ++ what))

/-- What one level says about a setting: its own value, or else that of the environment, which has
to be readable where it is asked for. -/
def Setting.atLevel (setting : Setting α) (environment : Environment) (found : Matches) :
    Except Halt (Option α × α) :=
  match found.first? setting.option with
  | some text => do
    let a ← required setting.read ("'--" ++ setting.option ++ "'") text
    return (some a, a)
  | none =>
    match environment.reverse.lookup setting.envName with
    | some text =>
      if text.isEmpty then
        .error (.usage ("invalid value '' for '--" ++ setting.option ++ "'"))
      else do
        let a ← required setting.read ("'--" ++ setting.option ++ "'") text
        return (none, a)
    | none => return (none, setting.default)

/-- What stands behind the command wins over what stands before it. -/
def Setting.value (setting : Setting α) (environment : Environment) (outer inner : Matches) :
    Except Halt α := do
  let (own, fallback) ← setting.atLevel environment inner
  let (above, _) ← setting.atLevel environment outer
  return own.getD (above.getD fallback)

def settings (environment : Environment) (outer inner : Matches) : Except Halt Settings := do
  return {
    json := outer.has "json" || inner.has "json"
    registry := ← registrySetting.value environment outer inner
    timeoutMs := ← timeoutSetting.value environment outer inner
    strictNumbers := ← strictSetting.value environment outer inner }

def missing (what : String) : Halt :=
  .usage ("the following required arguments were not provided: " ++ what)

def conflict (a b : String) : Halt :=
  .usage ("the argument '" ++ a ++ "' cannot be used with '" ++ b ++ "'")

def requiredValue (found : Matches) (name : String) : Except Halt String :=
  match found.first? name with
  | some value => .ok value
  | none => .error (missing name)

/-- A path that may be left out. -/
def optionalPath (found : Matches) (name : String) : Except Halt (Option String) :=
  match found.first? name with
  | some text => (required readPath ("'--" ++ name ++ "'") text).map some
  | none => .ok none

/-- What a spec file stands in for. -/
def partNames : List String :=
  ["name", "description", "tools", "input", "output", "prompt", "prompt-file"]

def createSource (found : Matches) : Except Halt SpecSource := do
  let specFile ← optionalPath found "from-json"
  let promptFile ← optionalPath found "prompt-file"
  match specFile with
  | some path =>
    match partNames.find? found.has with
    | some name => .error (conflict "--from-json" name)
    | none => return .file path
  | none =>
    let name ← requiredValue found "name"
    let description ← requiredValue found "description"
    let prompt ← match found.first? "prompt", promptFile with
      | some _, some _ => .error (conflict "--prompt" "--prompt-file")
      | some prompt, none => .ok (PromptSource.text prompt)
      | none, some path => .ok (.file path)
      | none, none => .ok .standard
    return .parts ⟨name, description, (found.first? "version").getD "1.0.0", found.all "tools",
      found.all "input", found.all "output", prompt⟩

def createPolicy (found : Matches) : Except Halt CollisionPolicy :=
  match found.first? "on-collision" with
  | none => .ok .reject
  | some text => (CollisionPolicy.parse text).mapError .usage

def requestOf (command : String) (found : Matches) : Except Halt Request :=
  if command = "create" then do
    return .create (← createSource found) (← createPolicy found)
  else if command = "list" then .ok .list
  else if command = "show" then do return .display (← requiredValue found "slug")
  else if command = "run" then do return .run (← requiredValue found "agent") (found.all "args")
  else if command = "exec" then do
    let directory := (← optionalPath found "cwd").map OsPath.ofText
    match found.all "command" with
    | [] => .error (missing "command")
    | command :: arguments =>
      return .exec directory (found.has "allow-unsafe") command arguments
  else .error .help

/-- Help is given on a command by its name, or on all of them. -/
def helpOn (words : List String) : Halt :=
  match words with
  | [] => .help
  | [command] =>
    if commandNames.contains command then .help
    else .usage ("unrecognized subcommand '" ++ command ++ "'")
  | _ :: word :: _ => .usage ("unrecognized subcommand '" ++ word ++ "'")

/-- Reads a command line. -/
def parse (environment : Environment) (arguments : List String) :
    Except Halt (Settings × Request) := do
  let (cursor, subcommand) ← readLevel topGrammar commandNames .start arguments
  match subcommand with
  | none => .error (.usage "a command is required")
  | some (command, rest) =>
    if command = "help" then .error (helpOn rest)
    else
      let (inner, _) ← readLevel (grammarOf command) [] .start rest
      let request ← requestOf command inner.found
      let outer ← cursor.settled
      return (← settings environment outer.found inner.found, request)

end Agentry.Cli

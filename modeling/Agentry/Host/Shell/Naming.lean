import Agentry.Host.Shell.Launch
import Agentry.Host.Shell.Variables
/-!
# What names stand for

A function goes before a command of the shell, and a command of the shell before a program. In front
of another command, `command` leaves functions out; with other options it only tells what a name
stands for.
-/
namespace Agentry.Host.Shell

/-- The commands of the shell that a fault ends the shell in. -/
def isSpecial (name : String) : Bool := Reader.specialNames.contains name || name = "local"

/-- The commands of the shell that need nothing but the shell. -/
def plainBuiltins : List (String × Builtin) :=
  [(":", Builtin.always 0), ("true", Builtin.always 0), ("false", Builtin.always 1),
   ("alias", Builtin.defineAliases), ("bg", Builtin.always 0),
   ("break", Builtin.leaveLoops .leaving),
   ("cd", Builtin.changeDirectory), ("chdir", Builtin.changeDirectory),
   ("continue", Builtin.leaveLoops .repeating), ("echo", Builtin.echo), ("exit", Builtin.exit),
   ("export", Builtin.exportAll), ("fg", Builtin.always 0), ("getopts", Builtin.getopts),
   ("jobs", Builtin.always 0), ("kill", Builtin.kill), ("local", Builtin.makeLocal),
   ("printf", Builtin.printf), ("pwd", Builtin.pwd), ("read", Builtin.read),
   ("readonly", Builtin.readonly), ("return", Builtin.leaveFunction),
   ("set", Builtin.changeOptions), ("shift", Builtin.shift), ("test", Builtin.test),
   ("[", Builtin.bracket), ("times", Builtin.times), ("trap", Builtin.trap), ("ulimit", Builtin.ulimit),
   ("umask", Builtin.umask), ("unalias", Builtin.unalias), ("unset", Builtin.unset),
   ("wait", Builtin.wait)]

/-- The commands of the shell that carry out or start others. -/
def leadingBuiltins : List String := [".", "command", "eval", "exec", "hash", "type"]

def isBuiltin (name : String) : Bool :=
  leadingBuiltins.contains name || plainBuiltins.any (·.1 == name)

/-- What stands behind `command` and its options, if that is another command, and whether programs
are looked for in the usual places. -/
def behindCommand (usual : Bool) : List String → Option (Bool × List String)
  | [] => none
  | "--" :: rest => if rest.isEmpty then none else some (usual, rest)
  | field :: rest =>
    match field.toList with
    | '-' :: c :: letters =>
      if (c :: letters).all (· = 'p') then behindCommand true rest else none
    | _ => some (usual, field :: rest)

/-- A command by its name: its fields, and whether it stands behind `command`. -/
structure Named where
  fields : List String
  plain : Bool
  usual : Bool

/-- The command that some fields name. The first argument bounds the number of fields. -/
def namedBy (shell : Shell) : Nat → Bool → Bool → List String → Named
  | fuel + 1, plain, usual, "command" :: rest =>
    if !plain && shell.functions.any (·.1 == "command") then ⟨"command" :: rest, plain, usual⟩
    else
      match behindCommand usual rest with
      | some (usual, fields) => namedBy shell fuel true usual fields
      | none => ⟨"command" :: rest, plain, usual⟩
  | _, plain, usual, fields => ⟨fields, plain, usual⟩

def named (shell : Shell) (fields : List String) : Named :=
  shell.namedBy fields.length false false fields

/-- Whether words behind some fields may assign values. -/
def assigns (shell : Shell) (fields : List String) : Bool :=
  match (shell.named fields).fields with
  | name :: _ => name = "export" || name = "readonly" || name = "local"
  | [] => false

/-- Tells what a name stands for, in a sentence or as short as can be. -/
def describe (search : String) (sentence : Bool) (name : String) : Act Nat := do
  let shell ← Act.shell
  let tell (long short : String) : Act Nat :=
    Builtin.output ((if sentence then name ++ long else short) ++ "\n")
  if Reader.reservedWords.contains name then tell " is a shell keyword" name
  else
    match shell.aliases.lookup name with
    | some value =>
      tell (" is an alias for " ++ value)
        ("alias " ++ name ++ "=" ++ Builtin.singleQuoted value)
    | none =>
      if shell.functions.any (·.1 == name) then tell " is a shell function" name
      else if isBuiltin name then
        tell (if isSpecial name then " is a special shell builtin" else " is a shell builtin") name
      else
        let tree := (← Act.machine).tree
        let missing : Act Nat := do
          if sentence then
            let _ ← Builtin.output (name ++ ": not found\n")
          return 127
        if Search.hasSlash name then
          let place := tree.locatePath shell.directory .existing (Octets.toPath name)
          if (place.toOption.bind tree.get?).isSome then tell (" is " ++ name) name
          else missing
        else
          match shell.tracked.lookup name with
          | some path => tell (" is a tracked alias for " ++ path) path
          | none =>
            match shell.pathsOf tree search name with
            | .ok (path :: _) =>
              if search = shell.searchPath then track name path
              tell (" is " ++ path) path
            | _ => missing

/-- Tells what names stand for, in sentences. -/
def typeOf : Builtin := fun arguments =>
  arguments.foldlM (fun status name => do
    let found ← describe (← Act.shell).searchPath true name
    return if found = 0 then status else found) 0

/-- Tells what the first name stands for that `command` is given with options of its own. -/
def commandOf : Builtin := fun arguments => do
  let (options, operands) ← Builtin.letters ['p', 'v', 'V'] arguments
  let shell ← Act.shell
  let search := if options.contains 'p' then Search.standard else shell.searchPath
  match operands, options.filter (· ≠ 'p') with
  | name :: _, option :: options =>
    describe search ((option :: options).getLast? = some 'V') name
  | _, _ => return 0

/-- Remembers where programs are, or tells what it remembers. -/
def hash : Builtin := fun arguments => do
  let (options, operands) ← Builtin.letters ['r'] arguments
  if options.contains 'r' then
    Act.modifyShell fun shell => { shell with tracked := [] }
    return 0
  else if operands.isEmpty then
    Builtin.output (String.join ((← Act.shell).tracked.map fun (_, path) => path ++ "\n"))
  else
    operands.foldlM (fun status name => do
      let shell ← Act.shell
      if isBuiltin name || shell.functions.any (·.1 == name) || Search.hasSlash name then
        return status
      else
        match shell.pathsOf (← Act.machine).tree shell.searchPath name with
        | .ok (path :: _) =>
          track name path
          return status
        | _ =>
          Act.complain (name ++ ": not found")
          return 1) 0

end Agentry.Host.Shell

import Agentry.Host.Shell.Expansion
/-!
# Redirections

What redirections ask for is filled in first, and then they are carried out in order. One that
cannot be carried out is complained about. What they changed can be put back, descriptor by
descriptor.
-/
namespace Agentry.Host

/-- How a program words why a file operation failed. -/
def reasonText : IoError → String
  | .notFound => "No such file or directory"
  | .notADirectory => "Not a directory"
  | .isADirectory => "Is a directory"
  | .tooManyLinks => "Too many levels of symbolic links"
  | .nameTooLong => "File name too long"
  | .alreadyExists => "File exists"
  | .directoryNotEmpty => "Directory not empty"
  | .permissionDenied => "Permission denied"
  | .notAProgram => "Exec format error"
  | cause => cause.message

namespace Shell

/-- The reason, or other words when something on the way is missing. -/
def reasonOr (missing : String) : IoError → String
  | .notFound => missing
  | .notADirectory => missing
  | cause => reasonText cause

def createReason : IoError → String := reasonOr "Directory nonexistent"

def openReason : IoError → String := reasonOr "No such file"

def executeReason : IoError → String := reasonOr "not found"

/-- A redirection whose words were filled in. -/
inductive Filled where
  | file (descriptor : Nat) (use : FileUse) (path : String)
  | copy (descriptor source : Nat)
  | close (descriptor : Nat)
  | document (descriptor : Nat) (text : String)

def Filled.descriptor : Filled → Nat
  | .file descriptor _ _ => descriptor
  | .copy descriptor _ => descriptor
  | .close descriptor => descriptor
  | .document descriptor _ => descriptor

/-- Fills in the words of a redirection. -/
def fillIn (capture : Capture) : Redirection → Act Filled
  | .file descriptor use target => do
    return .file descriptor use (← Expansion.expandText capture target)
  | .copy descriptor source => do
    let text ← Expansion.expandText capture source
    match text.toList with
    | ['-'] => return .close descriptor
    | [c] =>
      if c.isDigit then return .copy descriptor (c.toNat - '0'.toNat)
      else Act.fail "Syntax error: Bad fd number"
    | _ => Act.fail "Syntax error: Bad fd number"
  | .document descriptor index => do
    let word := ((← Act.shell).documents[index]?).getD []
    return .document descriptor (← Expansion.expandDocument capture word)

def setDescriptor (descriptor : Nat) (index : Option Nat) (descriptors : List (Nat × Nat)) :
    List (Nat × Nat) :=
  let others := descriptors.filter (·.1 != descriptor)
  match index with
  | some index => (descriptor, index) :: others
  | none => others

/-- The descriptor that a path to a device names. -/
def deviceDescriptor? (path : String) : Option Nat :=
  if path = "/dev/stdin" then some 0
  else if path = "/dev/stdout" then some 1
  else if path = "/dev/stderr" then some 2
  else
    (Text.cut "/dev/fd/".toList path.toList).bind fun (front, digits) =>
      if front.isEmpty then (String.ofList digits).toNat? else none

/-- Opens a file. -/
def openFile (shell : Shell) (machine : Machine) (use : FileUse) (path : String) :
    Except IoError (Nat × Machine) := do
  let home := shell.directory
  if path = "/dev/null" then return machine.addOpening ⟨.nowhere, true, true, false, 0⟩
  else if path = "/dev/zero" then return machine.addOpening ⟨.endless, true, true, false, 0⟩
  else if path = "/dev/tty" then .error (.other "No such device or address")
  else
    match deviceDescriptor? path with
    | some descriptor =>
      match shell.descriptors.lookup descriptor with
      | some index => return (index, machine)
      | none => .error .notFound
    | none =>
      match use with
      | .input =>
        let loc ← machine.tree.locatePath home .existing (Octets.toPath path)
        match machine.tree.get? loc with
        | some (.file _ mode) =>
          if Machine.isReadable mode then
            return machine.addOpening ⟨.file loc, true, false, false, 0⟩
          else .error .permissionDenied
        | _ => return machine.addOpening ⟨.file loc, true, false, false, 0⟩
      | use =>
        let (loc, old) ← machine.placeFor home (Octets.toPath path)
        if use = .truncate && shell.hasOption 'C' && old.isSome then .error .alreadyExists
        else
          let mode := (old.map (·.2)).getD (0o666 - (0o666 &&& shell.mask))
          let kept := if use = .append || use = .both then (old.map (·.1)).getD .empty else .empty
          return { machine with tree := machine.tree.put loc (.file kept mode) }.addOpening
            ⟨.file loc, use = FileUse.both, true, use = FileUse.append, 0⟩

/-- Carries out a redirection. The answer is whether that could be done. -/
def redirect (filled : Filled) : Act Bool := do
  let world ← get
  let lead (descriptor : Nat) (index : Option Nat) (machine : Machine) : Act Unit :=
    set (⟨{ world.shell with
      descriptors := setDescriptor descriptor index world.shell.descriptors }, machine⟩ : World)
  match filled with
  | .file descriptor use path =>
    match world.shell.openFile world.machine use path with
    | .ok (index, machine) =>
      lead descriptor (some index) machine
      return true
    | .error cause =>
      Act.complain (if use = .input then "cannot open " ++ path ++ ": " ++ openReason cause
        else "cannot create " ++ path ++ ": " ++ createReason cause)
      return false
  | .copy descriptor source =>
    match world.shell.descriptors.lookup source with
    | some index =>
      lead descriptor (some index) world.machine
      return true
    | none =>
      Act.complain (toString source ++ ": Bad file descriptor")
      return false
  | .close descriptor =>
    lead descriptor none world.machine
    return true
  | .document descriptor text =>
    let (read, write, machine) := world.machine.openPipe
    lead descriptor (some read) (machine.writeTo write (Octets.toBytes text))
    return true

/-- Carries out redirections up to one that cannot be carried out. -/
def redirectAll : List Filled → Act Bool
  | [] => return true
  | filled :: rest => do
    if ← redirect filled then redirectAll rest else return false

/-- Puts back what some redirections changed. -/
def putBack (before : List (Nat × Nat)) (redirections : List Filled) : Act Unit :=
  Act.modifyShell fun shell =>
    { shell with
      descriptors := redirections.foldl (fun descriptors filled =>
        setDescriptor filled.descriptor (before.lookup filled.descriptor) descriptors)
        shell.descriptors }

end Shell
end Agentry.Host

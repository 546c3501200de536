import Agentry.Files.Tree
import Agentry.Host.Octets
/-!
# The host

A host is a file tree on which programs run, with a clock that only waiting moves and a limit on it.
A descriptor of a program leads to an opening, and programs that share an opening share the place
that it is read or written at. What a program writes to a pipe is kept until the pipe is read. A
program that nobody waits for runs at once, on a time of its own: what it says is kept until the
clock has reached that time.
-/
namespace Agentry.Host

/-- What can be read or written. Pipes are counted from the one that was opened first. -/
inductive Channel where
  | stdout
  | stderr
  | nowhere
  | endless
  | pipe (index : Nat)
  | file (loc : Location)
  deriving DecidableEq, Repr

structure Opening where
  channel : Channel
  reads : Bool
  writes : Bool
  appends : Bool
  offset : Nat
  deriving DecidableEq, Repr

/-- Octets in a pipe, and the moment when nobody could write to it any more. -/
structure Pipe where
  octets : ByteArray
  closed : Nat

/-- How a program comes to an end on the host. -/
inductive Finish where
  | exited (code : Nat)
  | signalled (signal : Nat)
  | outOfTime
  deriving DecidableEq, Repr

/-- A program that nobody waited for as it started. `holds` says that its output is that of the
call. -/
structure Task where
  process : Nat
  ending : Nat
  finish : Finish
  holds : Bool

/-- What a program that nobody waits for says, and when. -/
structure Utterance where
  moment : Nat
  process : Nat
  channel : Channel
  octets : ByteArray

/-- `effort` is how many commands may still be carried out, and `doomed` are the processes that a
signal was sent to. -/
structure Machine where
  tree : FileTree
  clock : Nat
  limit : Nat
  effort : Nat
  stdout : ByteArray
  stderr : ByteArray
  pipes : Array Pipe
  openings : Array Opening
  tasks : List Task
  utterances : List Utterance
  /-- The process that nobody waits for, while it runs. -/
  aside : Option Nat
  processes : Nat
  doomed : List (Nat × Nat)

/-- What a program is given. -/
structure Job where
  name : String
  arguments : List String
  directory : Location
  environment : List (String × String)
  /-- The openings of the descriptors. -/
  descriptors : List (Nat × Nat)
  process : Nat
  /-- The bits that new files go without. -/
  mask : Nat
  /-- The signals that do nothing to the program. -/
  ignored : List Nat

/-- A program that the host knows. -/
abbrev Tool := Job → StateM Machine Finish

/-- Executes the file that a path leads to. The error is why it is no program. -/
abbrev Launcher := String → Job → Machine → Except IoError (Finish × Machine)

namespace Machine

/-- The openings of the input, the output and the messages of a call. -/
def standardOpenings : Array Opening :=
  #[⟨.nowhere, true, true, false, 0⟩, ⟨.stdout, false, true, true, 0⟩,
    ⟨.stderr, false, true, true, 0⟩]

def standardDescriptors : List (Nat × Nat) := [(0, 0), (1, 1), (2, 2)]

def effortLimit : Nat := 200000

/-- The id of the process that a call starts. -/
def firstProcess : Nat := 4242

def new (tree : FileTree) (limit : Nat) : Machine :=
  ⟨tree, 0, limit, effortLimit, .empty, .empty, #[], standardOpenings, [], [], none, firstProcess,
    []⟩

def say (machine : Machine) (channel : Channel) (octets : ByteArray) : Machine :=
  match channel with
  | .stdout => { machine with stdout := machine.stdout ++ octets }
  | .stderr => { machine with stderr := machine.stderr ++ octets }
  | _ => machine

/-- Says now what is said, or later when nobody waits for the program. -/
def utter (machine : Machine) (channel : Channel) (octets : ByteArray) : Machine :=
  match machine.aside with
  | none => machine.say channel octets
  | some process =>
    { machine with
      utterances := machine.utterances ++ [⟨machine.clock, process, channel, octets⟩] }

/-- Octets with others put at a place in them, behind zeros where the place is past the end. -/
def overwritten (bytes : ByteArray) (offset : Nat) (octets : ByteArray) : ByteArray :=
  let front := bytes.extract 0 offset
  let gap : ByteArray := ⟨Array.replicate (offset - front.size) 0⟩
  front ++ gap ++ octets ++ bytes.extract (offset + octets.size) bytes.size

/-- Writes to an opening. -/
def writeTo (machine : Machine) (index : Nat) (octets : ByteArray) : Machine :=
  match machine.openings[index]? with
  | none => machine
  | some opening =>
    match opening.channel with
    | .stdout => machine.utter .stdout octets
    | .stderr => machine.utter .stderr octets
    | .nowhere => machine
    | .endless => machine
    | .pipe pipe =>
      { machine with
        pipes := machine.pipes.modify pipe fun p => { p with octets := p.octets ++ octets } }
    | .file loc =>
      match machine.tree.get? loc with
      | some (.file bytes mode) =>
        let offset := if opening.appends then bytes.size else opening.offset
        { machine with
          tree := machine.tree.put loc (.file (overwritten bytes offset octets) mode)
          openings := machine.openings.setIfInBounds index
            { opening with offset := offset + octets.size } }
      | _ => machine

/-- Whether the owner of a file may read it. -/
def isReadable (mode : Nat) : Bool := mode &&& 0o400 != 0

/-- Whether the owner of a file may write it. -/
def isWritable (mode : Nat) : Bool := mode &&& 0o200 != 0

/-- Whether the owner of a file may execute it. -/
def isExecutable (mode : Nat) : Bool := mode &&& 0o100 != 0

/-- The octets that a path leads to, if they may be read. -/
def readFile (machine : Machine) (home : Location) (path : OsPath) : Except IoError ByteArray := do
  let loc ← machine.tree.locatePath home .existing path
  match machine.tree.get? loc with
  | some (.file bytes mode) => if isReadable mode then .ok bytes else .error .permissionDenied
  | some (.directory _) => .error .isADirectory
  | _ => .error .notFound

/-- A place for a file that may be written, and the file that is there. -/
def placeFor (machine : Machine) (home : Location) (path : OsPath) :
    Except IoError (Location × Option (ByteArray × Nat)) := do
  let loc ← machine.tree.locatePath home .place path
  match machine.tree.get? loc with
  | some (.file bytes mode) =>
    if isWritable mode then .ok (loc, some (bytes, mode)) else .error .permissionDenied
  | some (.directory _) => .error .isADirectory
  | some (.link _) => .error .tooManyLinks
  | none => .ok (loc, none)

/-- Writes a whole file, whose mode is the one that it has or the one of a new file. -/
def writeFile (machine : Machine) (home : Location) (mask : Nat) (path : OsPath)
    (bytes : ByteArray) : Except IoError Machine := do
  let (loc, old) ← machine.placeFor home path
  let mode := (old.map (·.2)).getD (0o666 - (0o666 &&& mask))
  .ok { machine with tree := machine.tree.put loc (.file bytes mode) }

/-- Whether a descriptor can be written to. -/
def canWrite (machine : Machine) (descriptors : List (Nat × Nat)) (descriptor : Nat) : Bool :=
  match (descriptors.lookup descriptor).bind (machine.openings[·]?) with
  | some opening => opening.writes
  | none => false

/-- Writes to a descriptor, if it can be written to. -/
def write (machine : Machine) (descriptors : List (Nat × Nat)) (descriptor : Nat)
    (octets : String) : Machine :=
  match descriptors.lookup descriptor with
  | some index =>
    if machine.canWrite descriptors descriptor then machine.writeTo index (Octets.toBytes octets)
    else machine
  | none => machine

/-- How many octets of the endless device are read before its reader has enough. -/
def endlessCount : Nat := 1048576

/-- The octets behind an opening that were not read yet. -/
def unread (machine : Machine) (opening : Opening) : ByteArray :=
  let rest (bytes : ByteArray) : ByteArray := bytes.extract opening.offset bytes.size
  match opening.channel with
  | .endless => ⟨Array.replicate endlessCount 0⟩
  | .pipe pipe => rest ((machine.pipes[pipe]?.map (·.octets)).getD .empty)
  | .file loc =>
    match machine.tree.get? loc with
    | some (.file bytes _) => rest bytes
    | _ => .empty
  | _ => .empty

/-- Opens something, which is known by its index. -/
def addOpening (machine : Machine) (opening : Opening) : Nat × Machine :=
  (machine.openings.size, { machine with openings := machine.openings.push opening })

/-- Opens a pipe, and both of its ends: the one that is read, and the one that is written. -/
def openPipe (machine : Machine) : Nat × Nat × Machine :=
  let channel := Channel.pipe machine.pipes.size
  let (read, machine) :=
    { machine with pipes := machine.pipes.push ⟨.empty, 0⟩ }.addOpening
      ⟨channel, true, false, false, 0⟩
  let (write, machine) := machine.addOpening ⟨channel, false, true, true, 0⟩
  (read, write, machine)

/-- Closes the pipe of an opening for writing. -/
def closePipe (machine : Machine) (index : Nat) : Machine :=
  match machine.openings[index]? with
  | some ⟨.pipe pipe, _, _, _, _⟩ =>
    { machine with
      pipes := machine.pipes.modify pipe fun p => { p with closed := machine.clock } }
  | _ => machine

/-- Says what was kept, as far as its moment has come. -/
def catchUp (machine : Machine) : Machine :=
  if machine.aside.isSome then machine
  else
    let (due, later) := machine.utterances.partition (·.moment ≤ machine.clock)
    (due.mergeSort fun a b => a.moment ≤ b.moment).foldl
      (fun machine utterance => machine.say utterance.channel utterance.octets)
      { machine with utterances := later }

/-- Waits, unless time runs out first. -/
def wait (machine : Machine) (duration : Nat) : Finish × Machine :=
  if machine.clock + duration ≥ machine.limit then
    (.outOfTime, { machine with clock := max machine.clock machine.limit })
  else (.exited 0, { machine with clock := machine.clock + duration }.catchUp)

/-- Waits until a moment, unless it has passed. -/
def waitUntil (machine : Machine) (moment : Nat) : Finish × Machine :=
  if moment ≤ machine.clock then (.exited 0, machine.catchUp)
  else machine.wait (moment - machine.clock)

/-- What was kept is said at the end, as far as its moment comes before the time is over. -/
def settled (machine : Machine) : Machine :=
  let due := machine.utterances.filter (·.moment < machine.limit)
  (due.mergeSort fun a b => a.moment ≤ b.moment).foldl
    (fun machine utterance => machine.say utterance.channel utterance.octets)
    { machine with utterances := [] }

/-- When the last program that holds the output of the call ends. -/
def busyUntil (machine : Machine) : Nat :=
  ((machine.tasks.filter (·.holds)).map (·.ending)).foldl max 0

/-- A number for a process. -/
def newProcess (machine : Machine) : Nat × Machine :=
  (machine.processes + 1, { machine with processes := machine.processes + 1 })

end Machine

/-- Takes what is left behind a descriptor, waiting for the end of a pipe. -/
def takeInput (descriptors : List (Nat × Nat)) (descriptor : Nat) : StateM Machine String := do
  let machine ← get
  match descriptors.lookup descriptor with
  | none => return ""
  | some index =>
    match machine.openings[index]? with
    | none => return ""
    | some opening =>
      let bytes := machine.unread opening
      let closed := match opening.channel with
        | .pipe pipe => (machine.pipes[pipe]?.map (·.closed)).getD 0
        | _ => 0
      let (_, machine) := machine.waitUntil closed
      set { machine with
        openings := machine.openings.setIfInBounds index
          { opening with offset := opening.offset + bytes.size } }
      return Octets.ofBytes bytes

end Agentry.Host

import Agentry.Cli.Surroundings
import Std.Time.DateTime.Timestamp
/-!
# The program

The command line on the files of the machine that it is typed on. Programs are those of the host.
-/
namespace Agentry.Program

open Cli (Change World)

/-- Who is asking: a fresh id and the time. -/
def newStamp : IO RunStamp := do
  let octets ← IO.getRandomBytes 16
  let now ← Std.Time.Timestamp.now
  return ⟨.ofRandom octets.toList, .ofUnixNanos now.toNanosecondsSinceUnixEpoch.val⟩

def readEnvironment : IO Cli.Environment :=
  Cli.settingNames.filterMapM fun name => do
    return (← IO.getEnv name).map (name, ·)

/-- Takes in a file, unless it cannot be read. -/
def takeFile (home : Location) (tree : FileTree) (path : String) : IO FileTree := do
  let loc := Cli.locationOf home path
  try
    return Cli.withFile tree loc (← IO.FS.readBinFile (FileTree.pathOf loc))
  catch _ => return tree

/-- The paths of the files in a directory. -/
def filesIn (directory : String) : IO (List String) := do
  try
    let entries ← ((← IO.currentDir) / directory).readDir
    return entries.toList.map fun entry => Path.join directory entry.fileName
  catch _ => return []

/-- The disk that a command line is answered on. -/
def takeDisk (home : Location) (environment : Cli.Environment) (arguments : List String) :
    IO Disk := do
  let disk := Cli.bareDisk home
  match Cli.parse environment arguments with
  | .error _ => return disk
  | .ok (settings, request) =>
    let listed ← filesIn settings.registry
    let bare := if listed.isEmpty then disk.tree
      else Cli.withDirectory disk.tree (Cli.locationOf home settings.registry)
    let tree ← (listed ++ request.files).foldlM (takeFile home) bare
    return { disk with tree }

def carryOut : Change → IO Unit
  | .write loc bytes => do
    IO.FS.createDirAll (FileTree.pathOf loc.dropLast)
    IO.FS.writeBinFile (FileTree.pathOf loc) bytes
  | .remove loc => IO.FS.removeFile (FileTree.pathOf loc)

def run (arguments : List String) : IO UInt32 := do
  let environment ← readEnvironment
  let directory := (← IO.currentDir).toString
  let home := Cli.locationOf [] directory
  let disk ← takeDisk home environment arguments
  let world : World := ⟨Host.platform environment, environment, directory, ← newStamp⟩
  let (reply, after) := Cli.answer world arguments disk
  (Cli.changes disk.tree after.tree).forM carryOut
  (← IO.getStdout).putStr reply.stdout
  (← IO.getStderr).putStr reply.stderr
  return UInt32.ofNat reply.exitCode

end Agentry.Program

def main (arguments : List String) : IO UInt32 := Agentry.Program.run arguments

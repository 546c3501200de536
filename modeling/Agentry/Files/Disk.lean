import Agentry.Files.Tree
/-!
# Disks

A disk is a file tree with a current directory and a schedule of faults. Each operation takes the
next entry of the schedule: a cause makes it fail and leaves the tree alone, and past the end of the
schedule nothing fails by itself.
-/
namespace Agentry

structure Disk where
  tree : FileTree
  home : Location
  faults : List (Option IoError)

namespace Disk

/-- A disk on which nothing fails by itself. -/
def sound (tree : FileTree) (home : Location) : Disk := ⟨tree, home, []⟩

/-- One operation: its answer, and the disk after it. -/
def perform (disk : Disk) (operation : Except IoError (α × FileTree)) : Except IoError α × Disk :=
  match disk.faults with
  | some cause :: faults => (.error cause, { disk with faults })
  | faults =>
    match operation with
    | .ok (a, tree) => (.ok a, { disk with tree, faults := faults.tail })
    | .error cause => (.error cause, { disk with faults := faults.tail })

/-- An operation that only looks. -/
def look (disk : Disk) (answer : Except IoError α) : Except IoError α × Disk :=
  disk.perform (answer.map (·, disk.tree))

def readText (disk : Disk) (path : String) : Except IoError String × Disk :=
  disk.look (disk.tree.readText disk.home path)

def mode (disk : Disk) (path : String) : Except IoError Nat × Disk :=
  disk.look (disk.tree.mode disk.home path)

/-- A file without a name, made in a directory. -/
def openTemporary (disk : Disk) (directory : String) : Except IoError Unit × Disk :=
  disk.look ((disk.tree.directory disk.home directory).map fun _ => ())

/-- An operation on a file without a name, which no path leads to. -/
def changeTemporary (disk : Disk) : Except IoError Unit × Disk :=
  disk.look (.ok ())

/-- Gives a file without a name its place. -/
def persist (disk : Disk) (path : String) (bytes : ByteArray) (mode : Nat) :
    Except IoError Unit × Disk :=
  disk.perform ((disk.tree.replaceEntry disk.home path bytes mode).map ((), ·))

def makeDirectory (disk : Disk) (start : Location) (steps : List String) :
    Except IoError Unit × Disk :=
  disk.perform ((disk.tree.makeDirectory start steps).map ((), ·))

def isDirectory (disk : Disk) (start : Location) (steps : List String) : Bool :=
  match disk.tree.walk .existing FileTree.linkLimit start steps with
  | .ok loc => disk.tree.isDirectoryAt loc
  | .error _ => false

/-- Makes the directory at the last of some steps, unless it is there. -/
def ensureDirectory (disk : Disk) (start : Location) (steps : List String) :
    Except IoError Unit × Disk :=
  match disk.makeDirectory start steps with
  | (.ok (), disk) => (.ok (), disk)
  | (.error cause, disk) =>
    if disk.isDirectory start steps then (.ok (), disk) else (.error cause, disk)

/-- Makes a directory and the missing ones on the way to it. The steps come last first. -/
def makeDirectoriesFrom (start : Location) : List String → Disk → Except IoError Unit × Disk
  | [], disk => (.ok (), disk)
  | name :: parents, disk =>
    let steps := (name :: parents).reverse
    match disk.makeDirectory start steps with
    | (.error .notFound, disk) =>
      match makeDirectoriesFrom start parents disk with
      | (.ok (), disk) => disk.ensureDirectory start steps
      | failure => failure
    | (.ok (), disk) => (.ok (), disk)
    | (.error cause, disk) =>
      if disk.isDirectory start steps then (.ok (), disk) else (.error cause, disk)

def makeDirectories (disk : Disk) (path : String) : Except IoError Unit × Disk :=
  if path.toList.contains '\x00' then (.error .nulInPath, disk)
  else
    makeDirectoriesFrom (if Path.isAbsolute path then [] else disk.home)
      ((Path.movingSteps path.toList).map String.ofList).reverse disk

end Disk
end Agentry

import Agentry.Host.Machine
import Agentry.Text.Search
/-!
# Search paths

A program with a slash in its name is where the name leads. Any other is looked for in the
directories of a search path, from the first one on; an empty directory is the one at hand.
-/
namespace Agentry.Host.Search

/-- Where programs are looked for when nothing else is said. -/
def standard : String := "/usr/local/sbin:/usr/local/bin:/usr/sbin:/usr/bin:/sbin:/bin"

/-- The shell that carries out a file which is no program of its own. -/
def shellPath : String := "/bin/sh"

def hasSlash (name : String) : Bool := name.toList.contains '/'

/-- The paths at which a name is tried. -/
def candidates (search name : String) : List String :=
  (Text.splitOn ':' search.toList).map fun folder =>
    if folder.isEmpty then name else String.ofList folder ++ "/" ++ name

/-- Executes the first of some paths that can be executed. One that leads nowhere is passed over,
and so is a file that may not be executed, which is told in the end. Any other fault is told at
once. -/
def firstOf (execute : String → Except IoError α) : Bool → List String → Except IoError α
  | denied, [] => .error (if denied then .permissionDenied else .notFound)
  | denied, path :: paths =>
    match execute path with
    | .error .notFound => firstOf execute denied paths
    | .error .notADirectory => firstOf execute denied paths
    | .error .permissionDenied => firstOf execute true paths
    | answer => answer

/-- Executes a file, or has the shell carry it out if it is no program. -/
def executeOrRead (launch : Launcher) (path : String) (job : Job) (machine : Machine) :
    Except IoError (Finish × Machine) :=
  match launch path job machine with
  | .error .notAProgram =>
    launch shellPath { job with name := shellPath, arguments := path :: job.arguments } machine
  | answer => answer

/-- Starts the program that a job names. `reads` says that a file which is no program is carried out
by the shell. -/
def start (launch : Launcher) (reads : Bool) (search : String) (job : Job) (machine : Machine) :
    Except IoError (Finish × Machine) :=
  let execute (path : String) : Except IoError (Finish × Machine) :=
    if reads then executeOrRead launch path job machine else launch path job machine
  if job.name.isEmpty then .error .notFound
  else if hasSlash job.name then execute job.name
  else if job.name.length > FileTree.nameLimit then .error .nameTooLong
  else firstOf execute false (candidates search job.name)

/-- Whether a location holds a file that may be executed. -/
def isProgramFile (tree : FileTree) (loc : Location) : Bool :=
  match tree.get? loc with
  | some (.file _ mode) => Machine.isExecutable mode
  | _ => false

/-- The first of some paths that leads to a file which may be executed, and the paths behind it.
When there is none, the last fault is told that does not only say that nothing is there. -/
def find (tree : FileTree) (home : Location) : IoError → List String → Except IoError (List String)
  | cause, [] => .error cause
  | cause, path :: paths =>
    match tree.locatePath home .existing (Octets.toPath path) with
    | .error .notFound => find tree home cause paths
    | .error .notADirectory => find tree home cause paths
    | .error other => find tree home other paths
    | .ok loc =>
      if isProgramFile tree loc then .ok (path :: paths)
      else find tree home .permissionDenied paths

end Agentry.Host.Search

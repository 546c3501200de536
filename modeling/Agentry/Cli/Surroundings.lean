import Agentry.Cli.Basic
import Agentry.Host.Basic
/-!
# The surroundings of a command line

A command line is answered on a disk that holds the host and what the command line may read: the
registry it works on and the files that it names. What the answer changed on that disk are the
writes and removals to carry out.
-/
namespace Agentry.Cli

/-- The environment variables that a command line depends on. -/
def settingNames : List String :=
  [registrySetting.envName, timeoutSetting.envName, strictSetting.envName]

/-- The files that a request names. -/
def Request.files : Request → List String
  | .create (.file path) _ => [path]
  | .create (.parts agent) _ =>
    match agent.prompt with
    | .file path => [path]
    | _ => []
  | _ => []

/-- The location of a path from a directory on, links apart. -/
def locationOf (home : Location) (path : String) : Location :=
  let start := if Path.isAbsolute path then [] else home
  (Path.movingSteps path.toList).foldl (fun loc step =>
    if step = ['.', '.'] then loc.dropLast else loc ++ [String.ofList step]) start

/-- A tree with a directory at a location and on the way to it. -/
def withDirectory (tree : FileTree) (loc : Location) : FileTree :=
  (List.range loc.length).foldl (fun tree n =>
    let step := loc.take (n + 1)
    if (tree.get? step).isSome then tree else tree.put step (.directory directoryMode)) tree

/-- A tree with a file at a location. -/
def withFile (tree : FileTree) (loc : Location) (bytes : ByteArray) : FileTree :=
  (withDirectory tree loc.dropLast).put loc (.file bytes Store.newFileMode)

/-- The disk that a command line begins with, before any file is put on it. -/
def bareDisk (home : Location) : Disk :=
  .sound (withDirectory Host.emptyTree home) home

inductive Change where
  | write (loc : Location) (bytes : ByteArray)
  | remove (loc : Location)

/-- Whether a file with some octets stands at a location. -/
def holds (tree : FileTree) (loc : Location) (bytes : ByteArray) : Bool :=
  match tree.get? loc with
  | some (.file found _) => found.data == bytes.data
  | _ => false

/-- The files that differ between two trees. -/
def changes (before after : FileTree) : List Change :=
  let writes := after.nodes.filterMap fun (loc, node) =>
    match node with
    | .file bytes _ => if holds before loc bytes then none else some (.write loc bytes)
    | _ => none
  let removals := before.nodes.filterMap fun (loc, node) =>
    match node with
    | .file _ _ => if (after.get? loc).isSome then none else some (.remove loc)
    | _ => none
  writes ++ removals

end Agentry.Cli

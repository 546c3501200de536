import Agentry.Files.Error
import Agentry.Files.Path
/-!
# File trees

A tree holds what stands at each location under the root, which is always a directory. Following a
path takes one step at a time: only a directory can be stepped out of, and a link puts the steps of
its target in front of those that are left, at most forty times. What stands at the last step may be
asked for in three ways.
-/
namespace Agentry

/-- The names on the way from the root. -/
abbrev Location := List String

inductive Node where
  | file (bytes : ByteArray) (mode : Nat)
  | directory (mode : Nat)
  | link (target : String)

structure FileTree where
  nodes : List (Location × Node)

/-- The mode of a directory that nobody changed. -/
def directoryMode : Nat := 0o755

/-- How the last step of a path is taken. -/
inductive Arrival where
  /-- Links are followed, and something has to be there. -/
  | existing
  /-- Links are followed, and the place may be free. -/
  | place
  /-- A link is not followed, and the place may be free. -/
  | entry
  deriving DecidableEq, Repr

namespace FileTree

def get? (tree : FileTree) (loc : Location) : Option Node :=
  if loc = [] then some (.directory directoryMode)
  else (tree.nodes.find? (·.1 == loc)).map (·.2)

def setNode (loc : Location) (node : Node) : List (Location × Node) → List (Location × Node)
  | [] => [(loc, node)]
  | (l, n) :: rest => if l = loc then (l, node) :: rest else (l, n) :: setNode loc node rest

def put (tree : FileTree) (loc : Location) (node : Node) : FileTree :=
  ⟨setNode loc node tree.nodes⟩

def erase (tree : FileTree) (loc : Location) : FileTree :=
  ⟨tree.nodes.filter (·.1 != loc)⟩

/-- The names in a directory, in no order that counts. -/
def names (tree : FileTree) (loc : Location) : List String :=
  tree.nodes.filterMap fun (l, _) => if l.dropLast = loc then l.getLast? else none

def isDirectoryAt (tree : FileTree) (loc : Location) : Bool :=
  match tree.get? loc with
  | some (.directory _) => true
  | _ => false

def nameLimit : Nat := 255

def pathLimit : Nat := 4096

def linkLimit : Nat := 40

/-- Follows steps from a location, `onLink` being asked to go on behind a link. -/
def follow (tree : FileTree) (arrival : Arrival)
    (onLink : Location → List String → Except IoError Location) :
    Location → List String → Except IoError Location
  | here, [] => .ok here
  | here, step :: rest =>
    if !tree.isDirectoryAt here then .error .notADirectory
    else if step = "." then follow tree arrival onLink here rest
    else if step = ".." then follow tree arrival onLink here.dropLast rest
    else if step.utf8ByteSize > nameLimit then .error .nameTooLong
    else
      match tree.get? (here ++ [step]) with
      | none =>
        if rest.isEmpty && arrival != .existing then .ok (here ++ [step]) else .error .notFound
      | some (.link target) =>
        if rest.isEmpty && arrival == .entry then .ok (here ++ [step])
        else onLink (if Path.isAbsolute target then [] else here) (Path.steps target ++ rest)
      | some _ => follow tree arrival onLink (here ++ [step]) rest

def walk (tree : FileTree) (arrival : Arrival) :
    Nat → Location → List String → Except IoError Location
  | 0 => follow tree arrival fun _ _ => .error .tooManyLinks
  | links + 1 => follow tree arrival (walk tree arrival links)

/-- The location that a path leads to, relative paths starting at `home`. -/
def locate (tree : FileTree) (home : Location) (arrival : Arrival) (path : String) :
    Except IoError Location :=
  if path.toList.contains '\x00' then .error .nulInPath
  else if path.isEmpty then .error .notFound
  else if path.utf8ByteSize ≥ pathLimit then .error .nameTooLong
  else walk tree arrival linkLimit (if Path.isAbsolute path then [] else home) (Path.steps path)

/-- The absolute path of a location. -/
def pathOf (loc : Location) : String :=
  if loc = [] then "/" else String.join (loc.map ("/" ++ ·))

def readBytes (tree : FileTree) (home : Location) (path : String) : Except IoError ByteArray := do
  let loc ← tree.locate home .existing path
  match tree.get? loc with
  | some (.file bytes _) => .ok bytes
  | some (.directory _) => .error .isADirectory
  | _ => .error .notFound

def readText (tree : FileTree) (home : Location) (path : String) : Except IoError String := do
  let bytes ← tree.readBytes home path
  match String.fromUTF8? bytes with
  | some text => .ok text
  | none => .error .invalidUtf8

/-- The mode of what a path leads to. -/
def mode (tree : FileTree) (home : Location) (path : String) : Except IoError Nat := do
  let loc ← tree.locate home .existing path
  match tree.get? loc with
  | some (.file _ mode) => .ok mode
  | some (.directory mode) => .ok mode
  | _ => .error .notFound

def exists? (tree : FileTree) (home : Location) (path : String) : Bool :=
  (tree.mode home path).toBool

/-- The location of a directory that a path leads to. -/
def directory (tree : FileTree) (home : Location) (path : String) : Except IoError Location := do
  let loc ← tree.locate home .existing path
  if tree.isDirectoryAt loc then .ok loc else .error .notADirectory

/-- A directory made at the last of some steps. -/
def makeDirectory (tree : FileTree) (start : Location) (steps : List String) :
    Except IoError FileTree := do
  let loc ← tree.walk .entry linkLimit start steps
  match tree.get? loc with
  | some _ => .error .alreadyExists
  | none => .ok (tree.put loc (.directory directoryMode))

/-- Writes a whole file. A new file has the given mode, a file that was there keeps its own. -/
def writeFile (tree : FileTree) (home : Location) (path : String) (bytes : ByteArray)
    (newMode : Nat) : Except IoError FileTree := do
  let loc ← tree.locate home .place path
  match tree.get? loc with
  | some (.file _ mode) => .ok (tree.put loc (.file bytes mode))
  | some (.directory _) => .error .isADirectory
  | some (.link _) => .error .tooManyLinks
  | none => .ok (tree.put loc (.file bytes newMode))

/-- Moves a new file to a path, in place of any file or link that is there. -/
def replaceEntry (tree : FileTree) (home : Location) (path : String) (bytes : ByteArray)
    (mode : Nat) : Except IoError FileTree := do
  let loc ← tree.locate home .entry path
  match tree.get? loc with
  | some (.directory _) => .error .isADirectory
  | _ => .ok (tree.put loc (.file bytes mode))

end FileTree
end Agentry

import Agentry.Files.OsPath
/-!
# Changing directories

A change of directory takes a path relative to the directory before it and ends at the path without
links and dots that names the same directory.
-/
namespace Agentry

inductive DirectoryError where
  | unreachable (path : OsPath) (cause : IoError)
  | notADirectory (path : OsPath)
  deriving DecidableEq, Repr

namespace DirectoryError

def kind : DirectoryError → String
  | .unreachable .. => "invalid_directory"
  | .notADirectory _ => "not_a_directory"

def message : DirectoryError → String
  | .unreachable path cause =>
    "cannot change directory to " ++ path.quoted ++ ": " ++ cause.message
  | .notADirectory path => "cannot change directory to " ++ path.quoted ++ ": not a directory"

end DirectoryError

namespace FileTree

/-- The path of a directory without links and dots. Where that is too long for the system to follow,
the path that led to the directory stays as it is. -/
def canonical (target : OsPath) (loc : Location) : OsPath :=
  let path := OsPath.ofLocation loc
  if path.octets.length < pathLimit then path else target

/-- The directory that a path leads to from a base. -/
def changeDirectory (tree : FileTree) (home : Location) (base path : OsPath) :
    Except DirectoryError OsPath :=
  let target := base.join path
  match tree.locatePath home .existing target with
  | .error cause => .error (.unreachable target cause)
  | .ok loc =>
    if tree.isDirectoryAt loc then .ok (canonical target loc) else .error (.notADirectory target)

end FileTree
end Agentry

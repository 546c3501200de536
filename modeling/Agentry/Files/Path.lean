import Agentry.Text.Search
/-!
# Paths

A path is a text with steps between slashes. Empty steps and the step `.` lead nowhere, the step
`..` leads to the parent. A path that starts with a slash is absolute.
-/
namespace Agentry.Path

def isAbsolute (path : String) : Bool :=
  path.toList.head? = some '/'

/-- A relative path put behind a base. An absolute path stands alone. -/
def join (base path : String) : String :=
  if isAbsolute path then path
  else if base.isEmpty || base.toList.getLast? = some '/' then base ++ path
  else base ++ "/" ++ path

/-- The pieces of a path that are not empty. -/
def pieces (path : List Char) : List (List Char) :=
  (Text.splitOn '/' path).filter (· ≠ [])

/-- The steps of a path. A slash at the end asks for a directory, as a last step `.` does. -/
def steps (path : String) : List String :=
  let named := (pieces path.toList).map String.ofList
  if path.toList.getLast? = some '/' then named ++ ["."] else named

/-- The steps of a path that lead somewhere. -/
def movingSteps (path : List Char) : List (List Char) :=
  (pieces path).filter (· ≠ ['.'])

/-- The name that a path ends in, if its last step is not the parent directory. -/
def fileName (path : List Char) : Option (List Char) :=
  match (movingSteps path).getLast? with
  | some step => if step = ['.', '.'] then none else some step
  | none => none

end Agentry.Path

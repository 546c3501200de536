import Agentry.Host.Pattern
/-!
# Fields

What a word comes to falls into fields. A character that was filled in without quotes divides fields
if it is a separator: blanks around a field vanish, while any other separator ends a field even if
it is empty. Quotes make a field that is there even if it is empty, and so does a boundary between
arguments.
-/
namespace Agentry.Host

/-- A part of what a word comes to. -/
inductive Atom where
  /-- A character, whether it is active in a pattern, and whether it may divide fields. -/
  | char (c : Char) (active divides : Bool)
  | quotes
  | boundary
  deriving DecidableEq, Repr

namespace Atom

/-- A text that was filled in. -/
def filled (quoted : Bool) (text : String) : List Atom :=
  text.toList.map (.char · (!quoted) (!quoted))

/-- The marks of some atoms, which are one text. -/
def marks (atoms : List Atom) : List Mark :=
  atoms.filterMap fun atom => match atom with
    | .char c active _ => some (c, active)
    | _ => none

def text (atoms : List Atom) : String := textOfMarks (marks atoms)

end Atom

/-- Fields that are closed, and the characters of the open one, each with the last first. `begun`
says that there is an open field, and `absorbs` that a separator may still belong to the blanks that
closed the last one. -/
structure Fields where
  closed : List (List Mark)
  opened : List Mark
  begun : Bool
  absorbs : Bool

namespace Fields

def none : Fields := ⟨[], [], false, false⟩

def close (fields : Fields) : Fields :=
  ⟨fields.opened.reverse :: fields.closed, [], false, false⟩

def isBlank (c : Char) : Bool :=
  c = ' ' || c = '\t' || c = '\n'

/-- A separator that divides fields. -/
def divide (fields : Fields) (c : Char) : Fields :=
  if fields.begun then { fields.close with absorbs := isBlank c }
  else if isBlank c then fields
  else if fields.absorbs then { fields with absorbs := false }
  else fields.close

def add (separators : List Char) (fields : Fields) : Atom → Fields
  | .char c active divides =>
    if divides && separators.contains c then fields.divide c
    else { fields with opened := (c, active) :: fields.opened, begun := true }
  | .quotes => { fields with begun := true }
  | .boundary => { fields.close with begun := true }

/-- The fields of some atoms. -/
def ofAtoms (separators : List Char) (atoms : List Atom) : List (List Mark) :=
  let fields := atoms.foldl (add separators) none
  (if fields.begun then fields.close else fields).closed.reverse

end Fields
end Agentry.Host

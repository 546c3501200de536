import Agentry.Host.Shell.Fields
import Agentry.Host.Shell.State
/-!
# Filling in words

What a word asks for is filled in from the left. What commands write is asked of a function that
carries them out. Where a word is one text, arguments are joined; elsewhere they are fields of their
own.
-/
namespace Agentry.Host

/-- Carries out a command apart from the shell, and gives what it writes. -/
abbrev Capture := Command → Act String

/-- How a word is filled in: as one text or as fields, and whether text out of quotes may divide
fields, which it may in what stands for a parameter. -/
structure Style where
  single : Bool
  loose : Bool

namespace Expansion

/-- The home of a user, who is the one of the shell when nobody is named. -/
def home? (shell : Shell) (user : List Char) : Option String :=
  if user.isEmpty then shell.valueOf? "HOME"
  else if user = "root".toList then some "/root"
  else none

/-- Puts a home in place of a tilde at the front of a text. `closed` says that the text does not go
on behind. -/
def tildeAt (shell : Shell) (stops : Char → Bool) (closed : Bool) (body : List Char) :
    Option Word :=
  match body with
  | '~' :: rest =>
    let user := rest.takeWhile fun c => !stops c
    let after := rest.drop user.length
    if after.isEmpty && !closed then none
    else (home? shell user).map fun home => [.text true home.toList, .text false after]
  | _ => none

/-- A word with a home in place of the tilde that it begins with. -/
def withHome (shell : Shell) : Word → Word
  | .text false body :: rest =>
    ((tildeAt shell (· = '/') rest.isEmpty body).getD [.text false body]) ++ rest
  | word => word

/-- The parts of a text between colons, with a home in place of each tilde that one begins with. -/
def colonParts (shell : Shell) (closed : Bool) : Bool → List (List Char) → Word
  | _, [] => []
  | atFront, part :: rest =>
    let stops (c : Char) : Bool := c = '/'
    let word := (if atFront then tildeAt shell stops (closed || !rest.isEmpty) part else none).getD
      [.text false part]
    if rest.isEmpty then word
    else word ++ .text false [':'] :: colonParts shell closed true rest

/-- A value with a home in place of each tilde that it, or a part of it behind a colon, begins
with. -/
def withHomes (shell : Shell) : Bool → Word → Word
  | _, [] => []
  | atFront, .text false body :: rest =>
    colonParts shell rest.isEmpty atFront (Text.splitOn ':' body) ++
      withHomes shell (body.getLast? = some ':') rest
  | _, piece :: rest => piece :: withHomes shell false rest

/-- The integer that a variable stands for. -/
def integer (shell : Shell) (name : String) : Except Expression.Fault Int :=
  let text := (shell.parameter name).getD ""
  if text.toList.all isFormatBlank then .ok 0
  else
    match readInteger 0 text.toList with
    | some reading =>
      if reading.rest.all isFormatBlank && !reading.outOfRange then .ok reading.value
      else .error (.illegalNumber text)
    | none => .error (.illegalNumber text)

/-- All arguments at once. -/
def arguments (style : Style) (quoted : Bool) (name : String) (shell : Shell) : List Atom :=
  let bounded : List Atom := match shell.arguments with
    | [] => []
    | first :: rest =>
      .quotes :: Atom.filled quoted first ++
        rest.flatMap fun argument => .boundary :: Atom.filled quoted argument
  if quoted && name = "@" && !style.single then bounded
  else if !quoted && !style.single && shell.joint.isEmpty then bounded
  else Atom.filled quoted (shell.joint.intercalate shell.arguments)

/-- What a parameter stands for, as a text and filled in. -/
def found (style : Style) (quoted : Bool) (name : String) (shell : Shell) :
    Option (String × List Atom) :=
  if name = "@" || name = "*" then
    if shell.arguments.isEmpty then none
    else
      some (shell.joint.intercalate shell.arguments, arguments style quoted name shell)
  else (shell.parameter name).map fun text => (text, Atom.filled quoted text)

/-- Ends what is going on when a parameter has to be set and is not. -/
def demand (shell : Shell) (name : String) : Act Unit := do
  if shell.hasOption 'u' && name ≠ "@" && name ≠ "*" then
    Act.fail (name ++ ": parameter not set")

mutual

def expandPieces (capture : Capture) : Nat → Style → Word → Act (List Atom)
  | 0, _, _ => return []
  | _, _, [] => return []
  | fuel + 1, style, piece :: rest => do
    let atoms ← expandPiece capture fuel style piece
    return atoms ++ (← expandPieces capture fuel style rest)

def expandPiece (capture : Capture) : Nat → Style → Piece → Act (List Atom)
  | 0, _, _ => return []
  | fuel + 1, style, piece => do
    match piece with
    | .text quoted body => return body.map (.char · (!quoted) (!quoted && style.loose))
    | .quotes => return [.quotes]
    | .parameter quoted name use => expandParameter capture fuel style quoted name use
    | .output quoted body => return Atom.filled quoted (← capture body)
    | .number quoted expression =>
      let text := Atom.text (← expandPieces capture fuel ⟨true, false⟩ expression)
      match Expression.evaluate (integer (← Act.shell)) text with
      | .ok (n, assigned) =>
        assigned.forM fun (name, value) => Act.assign name (toString value)
        return Atom.filled quoted (toString n)
      | .error fault => Act.fail (fault.message text)

def expandParameter (capture : Capture) :
    Nat → Style → Bool → String → ParameterUse → Act (List Atom)
  | 0, _, _, _, _ => return []
  | fuel + 1, style, quoted, name, use => do
    let shell ← Act.shell
    let value := found style quoted name shell
    let isThere (colon : Bool) : Bool := value.any fun (text, _) => !(colon && text.isEmpty)
    let atoms : List Atom := (value.map (·.2)).getD []
    let inPlace (word : Word) : Act (List Atom) :=
      expandPieces capture fuel { style with loose := !quoted && !style.single }
        (if quoted then word else withHome shell word)
    match use with
    | .plain =>
      if value.isNone then demand shell name
      return atoms
    | .length =>
      if value.isNone then demand shell name
      return Atom.filled quoted (toString ((value.map (·.1)).getD "").length)
    | .fallback colon .instead word => if isThere colon then return atoms else inPlace word
    | .fallback colon .also word => if isThere colon then inPlace word else return []
    | .fallback colon .assigned word =>
      if isThere colon then return atoms
      else
        let text := Atom.text (← expandPieces capture fuel ⟨true, false⟩ (withHome shell word))
        if !isName name.toList then Act.fail (name ++ ": bad variable name")
        Act.assign name text
        return Atom.filled quoted text
    | .fallback colon .refused word =>
      if isThere colon then return atoms
      else
        let text := Atom.text (← expandPieces capture fuel ⟨true, false⟩ word)
        Act.fail (name ++ ": " ++
          if !text.isEmpty then text
          else if colon then "parameter not set or null" else "parameter not set")
    | .trim front longest pattern =>
      if value.isNone then demand shell name
      let marks := Atom.marks (← expandPieces capture fuel ⟨true, false⟩ (withHome shell pattern))
      let signs := Pattern.ofMarks marks
      let cs := ((value.map (·.1)).getD "").toList
      let kept := if front then
          match Pattern.front? longest signs cs with
          | some n => cs.drop n
          | none => cs
        else
          match Pattern.back? longest signs cs with
          | some n => cs.take n
          | none => cs
      return Atom.filled quoted (String.ofList kept)
    | .malformed => Act.fail "Bad substitution"

end

/-- How deep what is asked for may be nested in a word, and how many pieces one may have. -/
def depthLimit : Nat := 100000

/-- What a word comes to as one text that may be a pattern. -/
def expandPattern (capture : Capture) (word : Word) : Act (List Mark) := do
  let shell ← Act.shell
  return Atom.marks (← expandPieces capture depthLimit ⟨true, false⟩ (withHome shell word))

def expandText (capture : Capture) (word : Word) : Act String := do
  return textOfMarks (← expandPattern capture word)

/-- The value of an assignment. -/
def expandValue (capture : Capture) (word : Word) : Act String := do
  let shell ← Act.shell
  return Atom.text (← expandPieces capture depthLimit ⟨true, false⟩ (withHomes shell true word))

/-- The text of a here-document. -/
def expandDocument (capture : Capture) (word : Word) : Act String := do
  return Atom.text (← expandPieces capture depthLimit ⟨true, false⟩ word)

/-- The fields that a word comes to, and the files in place of those that are patterns. -/
def expandFields (capture : Capture) (word : Word) : Act (List String) := do
  let before ← Act.shell
  let atoms ← expandPieces capture depthLimit ⟨false, false⟩ (withHome before word)
  let world ← get
  let fields := Fields.ofAtoms world.shell.separators atoms
  return fields.flatMap fun field =>
    let files := if world.shell.hasOption 'f' then []
      else Pattern.files world.machine.tree world.shell.directory field
    if files.isEmpty then [textOfMarks field] else files

/-- A word that assigns a value keeps it in one piece. -/
def expandAssigning (capture : Capture) (word : Word) : Act (List String) := do
  match Reader.assignment? word with
  | some (name, value) => return [name ++ "=" ++ (← expandValue capture value)]
  | none => expandFields capture word

end Expansion
end Agentry.Host

import Agentry.Host.Shell.Builtin
/-!
# Commands for variables

A variable can be handed on to programs, kept from changes, forgotten, made local to a function, and
given a part of a line or an option of the arguments.
-/
namespace Agentry.Host.Builtin

/-- A name for a variable. -/
def variableName (name : String) : Act Unit :=
  if isName name.toList then pure () else Act.fail (name ++ ": bad variable name")

/-- The name in an argument, and the value behind its sign. -/
def nameAndValue (argument : String) : String × Option String :=
  match Text.cut ['='] argument.toList with
  | some (name, value) => (String.ofList name, some (String.ofList value))
  | none => (argument, none)

/-- Gives the variables of some arguments their values and a mark. -/
def markVariables (mark : Binding → Binding) (arguments : List String) : Act Unit :=
  arguments.forM fun argument => do
    let (name, value) := nameAndValue argument
    variableName name
    match value with
    | some value => Act.assign name value
    | none => pure ()
    Act.modifyShell fun shell =>
      let binding := (shell.binding? name).getD ⟨name, none, false, false⟩
      { shell with bindings := Shell.putBinding (mark binding) shell.bindings }

/-- The variables with a mark, each behind the name of the command that sets it. -/
def listMarked (command : String) (isMarked : Binding → Bool) : Act Nat := do
  let bindings := ((← Act.shell).bindings.filter isMarked).mergeSort
    fun a b => decide (a.name ≤ b.name)
  output (String.join (bindings.map fun binding =>
    command ++ " " ++ binding.name ++ (match binding.value with
      | some value => "=" ++ singleQuoted value
      | none => "") ++ "\n"))

def markOrList (command : String) (mark : Binding → Binding) (isMarked : Binding → Bool) :
    Builtin := fun arguments => do
  let (options, operands) ← letters ['p'] arguments
  if operands.isEmpty || options.contains 'p' then listMarked command isMarked
  else
    markVariables mark operands
    return 0

def exportAll : Builtin :=
  markOrList "export" (fun binding => { binding with exported := true }) (·.exported)

def readonly : Builtin :=
  markOrList "readonly" (fun binding => { binding with readOnly := true }) (·.readOnly)

def unset : Builtin := fun arguments => do
  let (options, operands) ← letters ['v', 'f'] arguments
  operands.forM fun name => do
    if options.getLast? = some 'f' then
      Act.modifyShell fun shell =>
        { shell with functions := shell.functions.filter (·.1 != name) }
    else
      variableName name
      if ((← Act.shell).binding? name).any (·.readOnly) then Act.fail (name ++ ": is read only")
      Act.modifyShell fun shell =>
        { shell with bindings := shell.bindings.filter (·.name != name) }
  return 0

/-- Makes variables local to the function that is carried out. -/
def makeLocal : Builtin := fun arguments => do
  if (← Act.shell).frames.isEmpty then Act.fail "not in a function"
  arguments.forM fun argument => do
    let (name, value) := nameAndValue argument
    variableName name
    Act.keep name
    match value with
    | some value => Act.assign name value
    | none => pure ()
  return 0

/-- A character of a line, and whether it may divide fields. -/
abbrev LineMark := Char × Bool

/-- What is left of the last field. A separator at its end goes when nothing but blanks stands
around it. `cutAt` is where the end that may go begins. -/
def lastField (separators : List Char) :
    Nat → Option Nat → Bool → Bool → List LineMark → Option Nat
  | _, cutAt, _, _, [] => cutAt
  | place, cutAt, begun, afterBlank, (c, divides) :: rest =>
    let separates := divides && separators.contains c
    let blank := separates && Fields.isBlank c
    if !begun then
      if separates then lastField separators (place + 1) (some place) true blank rest
      else lastField separators (place + 1) none false false rest
    else if blank then
      lastField separators (place + 1) (cutAt.or (some place)) true afterBlank rest
    else
      lastField separators (place + 1) (if separates && afterBlank then cutAt else none) true false
        rest

/-- What stands before the next separator, and what stands behind it and the blanks around it. -/
def firstField (separators : List Char) (line : List LineMark) : List LineMark × List LineMark :=
  let separates : LineMark → Bool := fun (c, divides) => divides && separators.contains c
  let blank : LineMark → Bool := fun mark => separates mark && Fields.isBlank mark.1
  let field := line.takeWhile fun mark => !separates mark
  match line.drop field.length with
  | [] => (field, [])
  | mark :: rest =>
    if blank mark then
      match rest.dropWhile blank with
      | next :: after =>
        if separates next then (field, after.dropWhile blank) else (field, next :: after)
      | [] => (field, [])
    else (field, rest.dropWhile blank)

/-- Gives each name a field of a line, and the last one all that is left. -/
def assignFields (separators : List Char) : List String → List LineMark → Act Unit
  | [], _ => return
  | [name], line => do
    variableName name
    let kept := match lastField separators 0 none false false line with
      | some n => line.take n
      | none => line
    Act.assign name (String.ofList (kept.map (·.1)))
  | name :: names, line => do
    let (field, rest) := firstField separators line
    variableName name
    Act.assign name (String.ofList (field.map (·.1)))
    assignFields separators names rest

/-- The line at the front of some octets, how many octets it takes, and whether it is ended. A
backslash keeps the character behind it from dividing fields, and joins lines, unless lines are
raw. -/
def readMarks (raw : Bool) : List Char → List LineMark × Nat × Bool
  | [] => ([], 0, false)
  | '\\' :: c :: rest =>
    if raw then
      if c = '\n' then ([('\\', true)], 2, true)
      else
        let (line, count, ended) := readMarks raw rest
        (('\\', true) :: (c, true) :: line, count + 2, ended)
    else
      let (line, count, ended) := readMarks raw rest
      (if c = '\n' then line else (c, false) :: line, count + 2, ended)
  | c :: rest =>
    if c = '\n' then ([], 1, true)
    else
      let (line, count, ended) := readMarks raw rest
      (if c = '\\' && !raw then line else (c, true) :: line, count + 1, ended)

/-- Takes the line that comes next behind a descriptor. The second part says whether it is ended. -/
def takeLine (raw : Bool) : Act (List LineMark × Bool) := do
  let world ← get
  match world.shell.descriptors.lookup 0 with
  | none => return ([], false)
  | some index =>
    match world.machine.openings[index]? with
    | none => return ([], false)
    | some opening =>
      let octets := (Octets.ofBytes (world.machine.unread opening)).toList
      let (line, count, ended) := readMarks raw octets
      let opening := { opening with offset := opening.offset + count }
      Act.onMachine (modify fun machine =>
        { machine with openings := machine.openings.setIfInBounds index opening })
      unless ended do
        match opening.channel with
        | .pipe pipe => Act.wait ((world.machine.pipes[pipe]?.map (·.closed)).getD 0)
        | _ => pure ()
      return (line, ended)

/-- The options of a command that reads, of which `-p` takes an argument: whether lines are raw, and
the operands. -/
def readingOptions : List String → Act (Bool × List String)
  | [] => return (false, [])
  | "--" :: rest => return (false, rest)
  | "-p" :: _ :: rest => readingOptions rest
  | ["-p"] => Act.fail "No arg for -p option"
  | argument :: rest => do
    match argument.toList with
    | '-' :: c :: more =>
      if c = 'p' then readingOptions rest
      else
        match (c :: more).find? (· ≠ 'r') with
        | some bad => Act.fail ("Illegal option -" ++ String.singleton bad)
        | none => return (true, (← readingOptions rest).2)
    | _ => return (false, argument :: rest)

/-- Reads a line of the input. It fails at the end of the input. -/
def read : Builtin := fun arguments => do
  let (raw, names) ← readingOptions arguments
  if names.isEmpty then Act.fail "arg count"
  let (line, ended) ← takeLine raw
  let separators := (← Act.shell).separators
  let blank : LineMark → Bool := fun (c, divides) =>
    divides && separators.contains c && Fields.isBlank c
  assignFields separators names (line.dropWhile blank)
  return if ended then 0 else 1

/-- An option that was found: its letter, its argument, the next place, and what to say. -/
structure FoundOption where
  letter : Char
  argument : Option String
  index : Nat
  place : Nat
  complaint : Option String

/-- Finds the next option of some arguments, from a place in them on. Places within an argument are
counted from one. -/
def nextOption (wanted : List Char) (arguments : List String) (index place : Nat) :
    Except Nat FoundOption :=
  let silent := wanted.head? = some ':'
  let current := ((arguments[index - 2]?).getD "").toList
  let start : Except Nat (List Char × Nat) :=
    if place > 0 && index ≥ 2 && place < current.length then .ok (current.drop place, index)
    else
      match (arguments[index - 1]?).map String.toList with
      | some ['-', '-'] => .error (index + 1)
      | some ('-' :: c :: rest) => .ok (c :: rest, index + 1)
      | _ => .error index
  match start with
  | .error index => .error index
  | .ok ([], index) => .error index
  | .ok (c :: rest, index) =>
    let length := ((arguments[index - 2]?).getD "").length
    let after := if rest.isEmpty then 0 else length - rest.length
    let takesArgument (cs : List Char) : Bool := cs.head? = some ':'
    match if c = ':' then none else (wanted.idxOf? c).map fun n => wanted.drop (n + 1) with
    | none =>
      .ok ⟨'?', if silent then some (String.singleton c) else none, index, after,
        if silent then none else some ("Illegal option -" ++ String.singleton c)⟩
    | some behind =>
      if takesArgument behind then
        if !rest.isEmpty then .ok ⟨c, some (String.ofList rest), index, 0, none⟩
        else
          match arguments[index - 1]? with
          | some argument => .ok ⟨c, some argument, index + 1, 0, none⟩
          | none =>
            if silent then .ok ⟨':', some (String.singleton c), index, 0, none⟩
            else .ok ⟨'?', none, index, 0,
              some ("No arg for -" ++ String.singleton c ++ " option")⟩
      else .ok ⟨c, some "", index, after, none⟩

/-- Finds the next option, and puts it into variables. It fails when there are no more. -/
def getopts : Builtin := fun arguments => do
  match arguments with
  | wanted :: name :: own => do
    let shell ← Act.shell
    let arguments := if own.isEmpty then shell.arguments else own
    let index := shell.optionIndex
    let (index, place) :=
    if index > arguments.length + 1 then (1, 0) else (index, shell.optionPlace)
    let settle (letter : Char) (index place : Nat) : Act Unit := do
      Act.assign "OPTIND" (toString index)
      variableName name
      Act.assign name (String.singleton letter)
      Act.modifyShell fun shell => { shell with optionPlace := place }
    match nextOption wanted.toList arguments index place with
    | .error index =>
      settle '?' index 0
      return 1
    | .ok found =>
      match found.complaint with
      | some complaint => Act.say complaint
      | none => pure ()
      match found.argument with
      | some argument => Act.assign "OPTARG" argument
      | none =>
        Act.modifyShell fun shell =>
          { shell with bindings := shell.bindings.filter (·.name != "OPTARG") }
      settle found.letter found.index found.place
      return 0
  | _ => Act.fail "Usage: getopts optstring var [arg...]"

end Agentry.Host.Builtin

/-!
# Command lines

A level of a command line has options and positional values. An option is written with two hyphens
and its name, its value standing behind an equals sign or in the next argument; some have a letter
too, and letters can share a hyphen. A double hyphen ends the options. A positional value that takes
hyphens also takes what looks like an option but is none, and once it has a value it takes
everything.
-/
namespace Agentry.Cli

structure OptionRule where
  name : String
  letter : Option Char
  takesValue : Bool
  repeatable : Bool
  /-- Which values can be read. -/
  accepts : String → Bool

structure PositionalRule where
  name : String
  many : Bool
  takesHyphens : Bool
  /-- Whether it stands only behind a double hyphen. -/
  afterEscape : Bool
  deriving DecidableEq, Repr

structure Grammar where
  options : List OptionRule
  positionals : List PositionalRule
  hasVersion : Bool

def flagRule (name : String) (letter : Option Char) : OptionRule :=
  ⟨name, letter, false, false, fun _ => true⟩

def valueRule (name : String) (accepts : String → Bool) : OptionRule :=
  ⟨name, none, true, false, accepts⟩

def listRule (name : String) : OptionRule := ⟨name, none, true, true, fun _ => true⟩

def oneRule (name : String) : PositionalRule := ⟨name, false, false, false⟩

/-- Why reading a command line ends early. -/
inductive Halt where
  | usage (message : String)
  | help
  | version
  deriving DecidableEq, Repr

/-- What one level of a command line says. Each value stands beside its name. -/
structure Matches where
  values : List (String × String)
  deriving DecidableEq, Repr

namespace Matches

def all (m : Matches) (name : String) : List String :=
  (m.values.filter (·.1 == name)).map (·.2)

def first? (m : Matches) (name : String) : Option String :=
  (m.values.find? (·.1 == name)).map (·.2)

def has (m : Matches) (name : String) : Bool :=
  m.values.any (·.1 == name)

end Matches

/-- An option whose value stands in an argument of its own: the value, once it has come. -/
structure Pending where
  rule : OptionRule
  value : Option String

/-- Where reading stands: the option that is taken in when reading goes on, whether the last value
went to a positional that takes everything, whether the options have ended, and which positional is
next. -/
structure Cursor where
  found : Matches
  pending : Option Pending
  greedy : Bool
  escaped : Bool
  position : Nat

namespace Cursor

def start : Cursor := ⟨⟨[]⟩, none, false, false, 0⟩

def record (cursor : Cursor) (name value : String) : Cursor :=
  { cursor with found := ⟨cursor.found.values ++ [(name, value)]⟩, greedy := false }

/-- A value for an option, which may come twice only if it is a list. -/
def option (cursor : Cursor) (rule : OptionRule) (value : String) : Except Halt Cursor :=
  if !rule.repeatable && cursor.found.has rule.name then
    .error (.usage ("the argument '--" ++ rule.name ++ "' cannot be used multiple times"))
  else if rule.accepts value then .ok (cursor.record rule.name value)
  else .error (.usage ("invalid value '" ++ value ++ "' for '--" ++ rule.name ++ "'"))

/-- Takes in the option that is pending. -/
def settled (cursor : Cursor) : Except Halt Cursor :=
  match cursor.pending with
  | none => .ok cursor
  | some ⟨rule, some value⟩ => { cursor with pending := none }.option rule value
  | some ⟨rule, none⟩ =>
    .error (.usage ("a value is required for '--" ++ rule.name ++ "' but none was supplied"))

def unexpected (argument : String) : Halt :=
  .usage ("unexpected argument '" ++ argument ++ "' found")

/-- The positional that is next. Behind a double hyphen it is the one that stands only there, if
there is one. -/
def nextRule (grammar : Grammar) (cursor : Cursor) : Option PositionalRule :=
  match grammar.positionals.getLast? with
  | some last =>
    if last.afterEscape && cursor.escaped then some last else grammar.positionals[cursor.position]?
  | none => none

/-- Whether an option waits for its value. -/
def isWaiting (cursor : Cursor) : Bool :=
  match cursor.pending with
  | some ⟨_, none⟩ => true
  | _ => false

def positional (grammar : Grammar) (cursor : Cursor) (argument : String) : Except Halt Cursor := do
  let cursor ← cursor.settled
  match cursor.nextRule grammar with
  | none => .error (unexpected argument)
  | some rule =>
    if rule.afterEscape && !cursor.escaped then .error (unexpected argument)
    else
      let next := cursor.record rule.name argument
      if rule.many then .ok { next with greedy := rule.takesHyphens }
      else .ok { next with position := cursor.position + 1 }

/-- Whether the positional that is next takes what looks like an option but is none. -/
def takesHyphens (grammar : Grammar) (cursor : Cursor) : Bool :=
  match cursor.nextRule grammar with
  | some rule => rule.takesHyphens && !rule.afterEscape
  | none => false

/-- A value, for the option that waits for one or else for the positional that is next. -/
def value (grammar : Grammar) (cursor : Cursor) (argument : String) : Except Halt Cursor :=
  match cursor.pending with
  | some ⟨rule, none⟩ => .ok { cursor with pending := some ⟨rule, some argument⟩ }
  | _ => cursor.positional grammar argument

/-- What looks like an option but is none. Where the next positional takes it, so does an option
that waits for its value. -/
def unknown (grammar : Grammar) (cursor : Cursor) (argument : String) : Except Halt Cursor :=
  if cursor.takesHyphens grammar then cursor.value grammar argument
  else .error (unexpected argument)

def surplusValue (name : String) : Halt :=
  .usage ("unexpected value for '--" ++ name ++ "' found; no more were expected")

/-- How an option that asks for help or for the version ends the reading. -/
def halt? (grammar : Grammar) (name : String) : Option Halt :=
  if name = "help" then some .help
  else if name = "version" && grammar.hasVersion then some .version
  else none

/-- An option by its name, with the value behind an equals sign if there is one. -/
def long (grammar : Grammar) (cursor : Cursor) (argument name : String)
    (attached : Option String) : Except Halt Cursor :=
  match grammar.options.find? (·.name = name), halt? grammar name, attached with
  | some rule, _, some value => do
    let cursor ← cursor.settled
    if rule.takesValue then cursor.option rule value else .error (surplusValue name)
  | some rule, _, none => do
    let cursor ← cursor.settled
    if rule.takesValue then return { cursor with pending := some ⟨rule, none⟩, greedy := false }
    else cursor.option rule ""
  | none, some _, some _ => .error (surplusValue name)
  | none, some halt, none => do
    let _ ← cursor.settled
    .error halt
  | none, none, _ => cursor.unknown grammar argument

def knowsLetter (grammar : Grammar) (c : Char) : Bool :=
  grammar.options.any (·.letter = some c) || c = 'h' || (c = 'V' && grammar.hasVersion)

/-- Letters that share a hyphen. -/
def letters (grammar : Grammar) (argument : String) : List Char → Cursor → Except Halt Cursor
  | [], cursor => .ok cursor
  | c :: rest, cursor =>
    match grammar.options.find? (·.letter = some c) with
    | some rule => do letters grammar argument rest (← cursor.option rule "")
    | none =>
      if c = 'h' then .error .help
      else if c = 'V' && grammar.hasVersion then .error .version
      else .error (unexpected argument)

def short (grammar : Grammar) (cursor : Cursor) (argument : String) (cs : List Char) :
    Except Halt Cursor :=
  if cursor.takesHyphens grammar && cs.any (fun c => !knowsLetter grammar c) then
    cursor.value grammar argument
  else do letters grammar argument cs (← cursor.settled)

/-- The name of a long option and the value behind its equals sign. -/
def splitLong (cs : List Char) : String × Option String :=
  let name := cs.takeWhile (· ≠ '=')
  (String.ofList name,
    match cs.drop name.length with
    | _ :: value => some (String.ofList value)
    | [] => none)

def step (grammar : Grammar) (cursor : Cursor) (argument : String) : Except Halt Cursor :=
  if cursor.escaped || cursor.greedy then cursor.positional grammar argument
  else
    match argument.toList with
    | ['-', '-'] => do
      let cursor ← cursor.settled
      return { cursor with escaped := true }
    | '-' :: '-' :: rest =>
      let (name, attached) := splitLong rest
      cursor.long grammar argument name attached
    | '-' :: c :: rest => cursor.short grammar argument (c :: rest)
    | _ => cursor.value grammar argument

end Cursor

/-- A command and the arguments that follow it. -/
abbrev Subcommand := String × List String

/-- Reads one level of a command line, up to a word that is a command. The option in front of a
command is taken in only when the command has been read. -/
def readLevel (grammar : Grammar) (commands : List String) :
    Cursor → List String → Except Halt (Cursor × Option Subcommand)
  | cursor, [] => do return (← cursor.settled, none)
  | cursor, argument :: rest =>
    if !cursor.escaped && !cursor.isWaiting && commands.contains argument then
      .ok (cursor, some (argument, rest))
    else do readLevel grammar commands (← cursor.step grammar argument) rest

end Agentry.Cli

import Agentry.Files.Tree
import Agentry.Host.Numeral
import Agentry.Host.Octets
/-!
# Conditions

A condition is a list of words about files, texts and numbers. Two or three words are first tried as
a comparison, and parentheses and a negation around them come next; all else is read from the left,
"and" binding closer than "or". What is read stands at the word that was taken last.
-/
namespace Agentry.Host

/-- What is wrong with a condition. -/
inductive ConditionFault where
  | unexpected (word : String)
  | argumentExpected (operator : String)
  | closingExpected
  | illegalNumber (word : String)
  deriving DecidableEq, Repr

def ConditionFault.message : ConditionFault → String
  | .unexpected word =>
    if word.isEmpty then "unexpected operator" else word ++ ": unexpected operator"
  | .argumentExpected operator => operator ++ ": argument expected"
  | .closingExpected => "closing paren expected"
  | .illegalNumber word => "Illegal number: " ++ word

namespace Condition

/-- Where a condition is asked. -/
structure Place where
  tree : FileTree
  directory : Location

inductive Token where
  | operand
  | unary (operator : String)
  | comparison (operator : String)
  | not
  | and
  | or
  | opening
  | closing
  | none
  deriving DecidableEq, Repr

def unaryOperators : List String :=
  ["-r", "-w", "-x", "-e", "-f", "-d", "-c", "-b", "-p", "-u", "-g", "-k", "-s", "-t", "-z", "-n",
   "-h", "-O", "-G", "-L", "-S"]

def comparisons : List String :=
  ["=", "!=", "<", ">", "-eq", "-ne", "-ge", "-gt", "-le", "-lt", "-nt", "-ot", "-ef"]

/-- Whether the words behind a unary operator say that it is an operand. -/
def standsAlone : List String → Bool
  | [] => true
  | [_] => false
  | word :: _ :: _ => comparisons.contains word

/-- The token that a list of words begins with. -/
def token : List String → Token
  | [] => .none
  | word :: rest =>
    if unaryOperators.contains word then
      if standsAlone rest then .operand else .unary word
    else if comparisons.contains word then .comparison word
    else if word = "!" then .not
    else if word = "-a" then .and
    else if word = "-o" then .or
    else if word = "(" then (if rest.isEmpty then .operand else .opening)
    else if word = ")" then .closing
    else .operand

def isComparison : Token → Bool
  | .comparison _ => true
  | _ => false

abbrev Reader := StateT (List String) (Except ConditionFault)

/-- A number that takes up a whole word, blanks apart. -/
def number (word : String) : Except ConditionFault Int :=
  match readInteger 10 word.toList with
  | some ⟨value, rest, false⟩ =>
    if rest.all isFormatBlank then .ok value else .error (.illegalNumber word)
  | _ => .error (.illegalNumber word)

/-- The names of the devices of characters. -/
def devices : List String := ["null", "zero", "full", "random", "urandom", "tty"]

/-- A question about one word. -/
def ask (place : Place) (operator word : String) : Except ConditionFault Bool := do
  let path := Octets.toPath word
  let node (arrival : Arrival) : Option Node :=
    (place.tree.locatePath place.directory arrival path).toOption.bind place.tree.get?
  let mode := match node .existing with
    | some (.file _ mode) => some mode
    | some (.directory mode) => some mode
    | _ => none
  let isDirectory := (place.tree.directoryAt place.directory path).toBool
  let isDevice := (place.tree.locatePath place.directory .existing path).toOption.any fun loc =>
    loc.dropLast = ["dev"] && devices.contains (loc.getLast?.getD "")
  if operator = "-n" then return !word.isEmpty
  else if operator = "-z" then return word.isEmpty
  else if operator = "-t" then return (← number word) ≠ (← number word)
  else if operator = "-h" || operator = "-L" then
    return match node .entry with
      | some (.link _) => true
      | _ => false
  else if operator = "-f" then
    return !isDevice && match node .existing with
      | some (.file _ _) => true
      | _ => false
  else if operator = "-d" then return isDirectory
  else if operator = "-c" then return isDevice
  else if operator = "-s" then
    return match node .existing with
      | some (.file bytes _) => bytes.size > 0
      | some (.directory _) => true
      | _ => false
  else if operator = "-x" then
    return isDirectory || mode.any (· &&& 0o100 != 0)
  else if operator = "-r" then return mode.any (· &&& 0o400 != 0)
  else if operator = "-w" then return mode.any (· &&& 0o200 != 0)
  else if operator = "-u" then return mode.any (· &&& 0o4000 != 0)
  else if operator = "-g" then return mode.any (· &&& 0o2000 != 0)
  else if operator = "-k" then return mode.any (· &&& 0o1000 != 0)
  else if operator = "-b" || operator = "-p" || operator = "-S" then return false
  else return mode.isSome

/-- A comparison of two words. Files have no ages, so none is newer or older than another. -/
def compare (place : Place) (operator first second : String) : Except ConditionFault Bool := do
  let location (word : String) : Option Location :=
    ((place.tree.locatePath place.directory .existing (Octets.toPath word)).toOption).filter
      fun loc => (place.tree.get? loc).isSome
  if operator = "=" then return first = second
  else if operator = "!=" then return first ≠ second
  else if operator = "<" then return first < second
  else if operator = ">" then return second < first
  else if operator = "-nt" || operator = "-ot" then return false
  else if operator = "-ef" then return (location first).isSome && location first = location second
  else
    let a ← number first
    let b ← number second
    return if operator = "-eq" then a = b
      else if operator = "-ne" then a ≠ b
      else if operator = "-ge" then a ≥ b
      else if operator = "-gt" then a > b
      else if operator = "-le" then a ≤ b
      else a < b

mutual

def readOr (place : Place) : Nat → Token → Reader Bool
  | 0, _ => return false
  | fuel + 1, first => do
    let a ← readAnd place fuel first
    if token ((← get).drop 1) = .or then
      modify (·.drop 2)
      let b ← readOr place fuel (token (← get))
      return a || b
    else return a

def readAnd (place : Place) : Nat → Token → Reader Bool
  | 0, _ => return false
  | fuel + 1, first => do
    let a ← readNot place fuel first
    if token ((← get).drop 1) = .and then
      modify (·.drop 2)
      let b ← readAnd place fuel (token (← get))
      return a && b
    else return a

def readNot (place : Place) : Nat → Token → Reader Bool
  | 0, _ => return false
  | fuel + 1, first => do
    if first = .not then
      let next := token ((← get).drop 1)
      unless next = .none do modify (·.drop 1)
      return !(← readNot place fuel next)
    else readPrimary place fuel first

def readPrimary (place : Place) : Nat → Token → Reader Bool
  | 0, _ => return false
  | fuel + 1, first => do
    match first with
    | .none => return false
    | .opening =>
      modify (·.drop 1)
      let next := token (← get)
      if next = .closing then return false
      else
        let inside ← readOr place fuel next
        modify (·.drop 1)
        if token (← get) = .closing then return inside else throw .closingExpected
    | .unary operator =>
      modify (·.drop 1)
      match (← get).head? with
      | some word => return (← (ask place operator word : Except ConditionFault Bool))
      | none => throw (.argumentExpected operator)
    | _ =>
      match (← get) with
      | word :: operator :: rest =>
        if isComparison (token (operator :: rest)) then
          match rest with
          | second :: _ =>
            set rest
            return (← (compare place operator word second : Except ConditionFault Bool))
          | [] => throw (.argumentExpected operator)
        else return !word.isEmpty
      | [word] => return !word.isEmpty
      | [] => return false

end

/-- Reads a condition from the left, and that nothing is left over. -/
def readAll (place : Place) (first : Token) (words : List String) : Except ConditionFault Bool := do
  let (answer, rest) ← readOr place (4 * words.length + 8) first words
  match rest with
  | word :: _ :: _ => throw (.unexpected word)
  | _ => return answer

/-- Whether a condition holds. -/
def evaluate (place : Place) (words : List String) : Except ConditionFault Bool :=
  let count := words.length
  if words.isEmpty then .ok false
  else if count = 3 && ((words[1]?).any comparisons.contains) then readAll place .operand words
  else if (count = 3 || count = 4) && words.head? = some "(" && words.getLast? = some ")" then
    let inside := (words.drop 1).dropLast
    readAll place (token inside) inside
  else
    match words with
    | "!" :: rest =>
      if count = 3 || count = 4 then (evaluate place rest).map (!·)
      else readAll place (token words) words
    | _ => readAll place (token words) words
termination_by words.length

end Condition
end Agentry.Host

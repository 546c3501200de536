import Agentry.Host.Numeral
import Agentry.Host.Regular
import Agentry.Host.Tool.Work
/-!
# Calculations from arguments

Each argument is an operand or an operator. A value is a text, and a number when it looks like one.
-/
namespace Agentry.Host.Tool

namespace Calculation

/-- The argument that was taken last, and those that are left. -/
structure Arguments where
  last : Option String
  rest : List String

abbrev Reader := StateT Arguments (Except String)

def next? : Reader (Option String) := do return (← get).rest.head?

def advance : Reader Unit :=
  modify fun arguments => ⟨arguments.rest.head?, arguments.rest.drop 1⟩

/-- Takes an operand. -/
def take : Reader String := do
  match ← next? with
  | some argument =>
    advance
    return argument
  | none =>
    match (← get).last with
    | some last => throw ("syntax error: missing argument after " ++ quoted last)
    | none => throw "missing operand"

def integer? (text : String) : Option Int :=
  match text.toList with
  | '-' :: digits =>
    if digits.isEmpty || !digits.all Json.isDigit then none
    else some (-(Json.digitsValue digits : Int))
  | digits =>
    if digits.isEmpty || !digits.all Json.isDigit then none
    else some (Json.digitsValue digits : Int)

def integer (text : String) : Reader Int :=
  match integer? text with
  | some n => pure n
  | none => throw "non-integer argument"

/-- Whether a value counts as none. -/
def isNothing (text : String) : Bool := text.isEmpty || integer? text = some 0

def ofBool (b : Bool) : String := if b then "1" else "0"

/-- The order of two values: as numbers if both are, and otherwise as texts. -/
def compared (a b : String) : Ordering :=
  match integer? a, integer? b with
  | some m, some n => compare m n
  | _, _ => compare a b

/-- What an expression matches at the front of a text: its first group, or how much. -/
def matched (text pattern : String) : Except String String :=
  match Regular.ofText false pattern with
  | .error fault => .error fault.message
  | .ok regular =>
    let grouped := (Text.cut ['\\', '('] pattern.toList).isSome
    match Regular.matchAt (fun c => c) regular ⟨none, text.toList, 0, []⟩ some with
    | some cursor =>
      .ok (if grouped then String.ofList ((cursor.groups.lookup 1).getD [])
        else toString cursor.place)
    | none => .ok (if grouped then "" else "0")

/-- The operators of the levels, the loosest first. -/
def levels : List (List String) :=
  [["|"], ["&"], ["<", "<=", "=", "==", "!=", ">=", ">"], ["+", "-"], ["*", "/", "%"], [":"]]

def apply (operator a b : String) : Reader String := do
  match operator with
  | "|" => return if isNothing a then (if isNothing b then "0" else b) else a
  | "&" => return if isNothing a || isNothing b then "0" else a
  | "<" => return ofBool (compared a b == .lt)
  | "<=" => return ofBool (compared a b != .gt)
  | "=" => return ofBool (compared a b == .eq)
  | "==" => return ofBool (compared a b == .eq)
  | "!=" => return ofBool (compared a b != .eq)
  | ">=" => return ofBool (compared a b != .lt)
  | ">" => return ofBool (compared a b == .gt)
  | ":" =>
    match matched a b with
    | .ok text => return text
    | .error fault => throw fault
  | operator =>
    let m ← integer a
    let n ← integer b
    if operator = "+" then return toString (m + n)
    else if operator = "-" then return toString (m - n)
    else if operator = "*" then return toString (m * n)
    else if n = 0 then throw "division by zero"
    else if operator = "/" then return toString (m.tdiv n)
    else return toString (m.tmod n)

mutual

/-- Reads what the operators of some levels join. -/
def readLevels : Nat → List (List String) → Reader String
  | 0, _ => take
  | fuel + 1, [] => readOperand fuel
  | fuel + 1, level :: looser => do
    let first ← readLevels fuel looser
    readMore fuel level looser first

def readMore : Nat → List String → List (List String) → String → Reader String
  | 0, _, _, value => return value
  | fuel + 1, level, looser, value => do
    match ← next? with
    | some operator =>
      if level.contains operator then
        advance
        let second ← readLevels fuel looser
        readMore fuel level looser (← apply operator value second)
      else return value
    | none => return value

def readOperand : Nat → Reader String
  | 0 => take
  | fuel + 1 => do
    let argument ← take
    let one : Reader String := readOperand fuel
    match argument with
    | "(" =>
      let value ← readLevels fuel levels
      match ← next? with
      | some ")" =>
        advance
        return value
      | some other => throw ("syntax error: expecting ')' instead of " ++ quoted other)
      | none => throw ("syntax error: expecting ')' after " ++ quoted ((← get).last.getD ""))
    | ")" => throw "syntax error: unexpected ')'"
    | "+" => take
    | "length" => return toString (← one).length
    | "match" =>
      let text ← one
      match matched text (← one) with
      | .ok value => return value
      | .error fault => throw fault
    | "index" =>
      let text ← one
      let wanted := (← one).toList
      return toString (((text.toList.findIdx? wanted.contains).map (· + 1)).getD 0)
    | "substr" =>
      let text ← one
      let start := integer? (← one)
      let count := integer? (← one)
      match start, count with
      | some n, some k =>
        if n ≤ 0 || k ≤ 0 then return ""
        else return String.ofList ((text.toList.drop (n.toNat - 1)).take k.toNat)
      | _, _ => return ""
    | argument => return argument

end

/-- The value of some arguments. -/
def evaluate (arguments : List String) : Except String String :=
  let read : Reader String := do
    let value ← readLevels (12 * arguments.length + 12) levels
    match ← next? with
    | some extra => throw ("syntax error: unexpected argument " ++ quoted extra)
    | none => return value
  (read ⟨none, arguments⟩).map (·.1)

end Calculation

/-- Prints the value of its arguments, and fails if that counts as none. -/
def expr : Tool := ofWork do
  let arguments := (← Work.job).arguments
  let arguments := if arguments.head? = some "--" then arguments.drop 1 else arguments
  if arguments.isEmpty then Work.misuse 2 "missing operand"
  match Calculation.evaluate arguments with
  | .error fault => Work.die 2 fault
  | .ok value =>
    Work.putLine value
    if Calculation.isNothing value then Work.fail 1

end Agentry.Host.Tool

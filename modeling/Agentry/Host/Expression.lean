import Agentry.Host.Numeral
/-!
# Integer expressions

An expression is read once and evaluated as it is read, the part that a choice leaves out being read
only. Operators that bind less tightly come first in the table of levels, and those of one level are
applied from the left. Values are kept in 64 bits. What is assigned is remembered in order.
-/
namespace Agentry.Host

def isNameStart (c : Char) : Bool :=
  c.isAlpha || c = '_'

def isNameChar (c : Char) : Bool :=
  c.isAlphanum || c = '_'

/-- A name for a variable. -/
def isName (cs : List Char) : Bool :=
  match cs with
  | c :: rest => isNameStart c && rest.all isNameChar
  | [] => false

namespace Expression

inductive Token where
  | number (n : Int)
  | name (text : String)
  | operator (text : String)
  | unknown
  deriving DecidableEq, Repr

inductive Fault where
  | noOperand
  | leftOver
  | noColon
  | unclosed
  | dividedByZero
  /-- The value of a variable is no number. -/
  | illegalNumber (text : String)
  deriving DecidableEq, Repr

/-- How a fault of an expression is worded. -/
def Fault.message (expression : String) : Fault → String
  | .illegalNumber text => "Illegal number: " ++ text
  | fault =>
    let cause := match fault with
      | .noOperand => "expecting primary"
      | .leftOver => "expecting EOF"
      | .noColon => "expecting ':'"
      | .unclosed => "expecting ')'"
      | _ => "division by zero"
    "arithmetic expression: " ++ cause ++ ": \"" ++ expression ++ "\""

def operators : List String :=
  ["<<=", ">>=", "||", "&&", "==", "!=", "<=", ">=", "<<", ">>", "+=", "-=", "*=", "/=", "%=", "&=",
   "|=", "^=", "|", "^", "&", "<", ">", "+", "-", "*", "/", "%", "!", "~", "(", ")", "?", ":", "="]

/-- The tokens of a text. The first argument bounds the number of characters. -/
def tokens : Nat → List Char → List Token
  | 0, _ => []
  | _, [] => []
  | fuel + 1, c :: rest =>
    if c = ' ' || c = '\t' || c = '\n' then tokens fuel rest
    else if c.isDigit then
      match readInteger 0 (c :: rest) with
      | some reading => .number reading.value :: tokens fuel reading.rest
      | none => [.unknown]
    else if isNameStart c then
      let name := (c :: rest).takeWhile isNameChar
      .name (String.ofList name) :: tokens fuel ((c :: rest).drop name.length)
    else
      match operators.find? fun text => text.toList.isPrefixOf (c :: rest) with
      | some text => .operator text :: tokens fuel ((c :: rest).drop text.length)
      | none => [.unknown]

def ofBool (b : Bool) : Int := if b then 1 else 0

/-- How many values a word can have. -/
def wordSize : Nat := Nat.pow 2 64

def wrapped (n : Int) : Int := Int.bmod n wordSize

/-- What an operator makes of two values. Nothing comes of a division by zero. -/
def apply (operator : String) (a b : Int) : Option Int :=
  let bits (f : Nat → Nat → Nat) : Int :=
    wrapped (f (a % wordSize).toNat (b % wordSize).toNat)
  if operator = "==" then some (ofBool (a = b))
  else if operator = "!=" then some (ofBool (a ≠ b))
  else if operator = "<=" then some (ofBool (a ≤ b))
  else if operator = ">=" then some (ofBool (a ≥ b))
  else if operator = "<" then some (ofBool (a < b))
  else if operator = ">" then some (ofBool (a > b))
  else if operator = "<<" then some (wrapped (a * Nat.pow 2 (b % 64).toNat))
  else if operator = ">>" then some (a >>> (b % 64).toNat)
  else if operator = "|" then some (bits Nat.lor)
  else if operator = "^" then some (bits Nat.xor)
  else if operator = "&" then some (bits Nat.land)
  else if operator = "+" then some (wrapped (a + b))
  else if operator = "-" then some (wrapped (a - b))
  else if operator = "*" then some (wrapped (a * b))
  else if b = 0 then none
  else if operator = "/" then some (wrapped (Int.tdiv a b))
  else some (Int.tmod a b)

/-- The operators between two operands, those that bind least first. -/
def levels : List (List String) :=
  [["|"], ["^"], ["&"], ["==", "!="], ["<=", ">=", "<", ">"], ["<<", ">>"],
   ["+", "-"], ["*", "/", "%"]]

/-- The operator that an assignment applies, which is empty for a plain one. -/
def assignment? (token : Option Token) : Option String :=
  match token with
  | some (.operator text) =>
    if ["=", "<<=", ">>=", "+=", "-=", "*=", "/=", "%=", "&=", "|=", "^="].contains text then
      some (String.ofList text.toList.dropLast)
    else none
  | _ => none

/-- The tokens that are left, and what was assigned, the last first. -/
structure Evaluation where
  tokens : List Token
  assigned : List (String × Int)

abbrev Reader := StateT Evaluation (Except Fault)

def head? : Reader (Option Token) := do return (← get).tokens.head?

def advance : Reader Unit :=
  modify fun evaluation => { evaluation with tokens := evaluation.tokens.tail }

/-- The value of a name: the one that was assigned last, or the one that it had before. -/
def valueOf (value : String → Except Fault Int) (name : String) : Reader Int := do
  match (← get).assigned.lookup name with
  | some n => return n
  | none => return (← (value name : Except Fault Int))

/-- What an operator makes of two values, where it counts. -/
def combined (live : Bool) (operator : String) (a b : Int) : Reader Int :=
  if live then
    match apply operator a b with
    | some result => pure result
    | none => throw .dividedByZero
  else pure b

mutual

/-- Reads an assignment, or what is none. -/
def readAssignment (value : String → Except Fault Int) (live : Bool) : Nat → Reader Int
  | 0 => throw .noOperand
  | fuel + 1 => do
    match (← get).tokens with
    | .name name :: operator :: _ =>
      match assignment? (some operator) with
      | some operator =>
        advance
        advance
        let result ← readAssignment value live fuel
        if live then
          let result ← if operator.isEmpty then pure result
            else do combined true operator (← valueOf value name) result
          modify fun evaluation =>
          { evaluation with assigned := (name, result) :: evaluation.assigned }
          return result
        else return result
      | none => readChoice value live fuel
    | _ => readChoice value live fuel

def readChoice (value : String → Except Fault Int) (live : Bool) : Nat → Reader Int
  | 0 => throw .noOperand
  | fuel + 1 => do
    let a ← readOr value live fuel
    if (← head?) = some (.operator "?") then
      advance
      let b ← readAssignment value (live && a ≠ 0) fuel
      if (← head?) = some (.operator ":") then
        advance
        let c ← readChoice value (live && a = 0) fuel
        return if a ≠ 0 then b else c
      else throw .noColon
    else return a

def readOr (value : String → Except Fault Int) (live : Bool) : Nat → Reader Int
  | 0 => throw .noOperand
  | fuel + 1 => do
    let a ← readAnd value live fuel
    if (← head?) = some (.operator "||") then
      advance
      let b ← readOr value (live && a = 0) fuel
      return ofBool (a ≠ 0 || b ≠ 0)
    else return a

def readAnd (value : String → Except Fault Int) (live : Bool) : Nat → Reader Int
  | 0 => throw .noOperand
  | fuel + 1 => do
    let a ← readLevels value live fuel levels
    if (← head?) = some (.operator "&&") then
      advance
      let b ← readAnd value (live && a ≠ 0) fuel
      return ofBool (a ≠ 0 && b ≠ 0)
    else return a

/-- Reads operands with the operators of some levels between them. -/
def readLevels (value : String → Except Fault Int) (live : Bool) :
    Nat → List (List String) → Reader Int
  | 0, _ => throw .noOperand
  | fuel + 1, [] => readOperand value live fuel
  | fuel + 1, level :: tighter => do
    let first ← readLevels value live fuel tighter
    readMore value live fuel level tighter first

/-- Goes on with the operators of one level. -/
def readMore (value : String → Except Fault Int) (live : Bool) :
    Nat → List String → List (List String) → Int → Reader Int
  | 0, _, _, first => return first
  | fuel + 1, level, tighter, first => do
    match ← head? with
    | some (.operator text) =>
      if level.contains text then
        advance
        let second ← readLevels value live fuel tighter
        readMore value live fuel level tighter (← combined live text first second)
      else return first
    | _ => return first

def readOperand (value : String → Except Fault Int) (live : Bool) : Nat → Reader Int
  | 0 => throw .noOperand
  | fuel + 1 => do
    let token ← head?
    advance
    match token with
    | some (.number n) => return n
    | some (.name text) => if live then valueOf value text else return 0
    | some (.operator text) =>
      if text = "-" then return wrapped (-(← readOperand value live fuel))
      else if text = "+" then readOperand value live fuel
      else if text = "!" then return ofBool ((← readOperand value live fuel) = 0)
      else if text = "~" then return -(← readOperand value live fuel) - 1
      else if text = "(" then
        let inside ← readAssignment value live fuel
        if (← head?) = some (.operator ")") then
          advance
          return inside
        else throw .unclosed
      else throw .noOperand
    | _ => throw .noOperand

end

/-- The value of an expression, names standing for the values they are given, and what was assigned
on the way, in order. -/
def evaluate (value : String → Except Fault Int) (text : String) :
    Except Fault (Int × List (String × Int)) := do
  let tokens := tokens text.length text.toList
  let (result, work) ← readAssignment value true (20 * (tokens.length + 2)) ⟨tokens, []⟩
  if work.tokens.isEmpty then return (result, work.assigned.reverse) else throw .leftOver

end Expression
end Agentry.Host

import Agentry.Artifact.Literal
import Agentry.Text.Hex
import Agentry.Text.Search
/-!
# Tokens of the source language

An artifact is a program, and a compiler reads its literals by the rules of its language, which are
neither those of JSON nor those of the reader of labels. This is the part of these rules that
artifacts need: words, marks, line comments, and string literals, ordinary and raw ones. Whatever
else a program may hold has no reading here.

An ordinary literal knows more escapes than an artifact uses: letters, the octets up to `7f`, any
code point, and a line end that is left out together with the blanks after it. A raw literal has at
most 255 hashes and ends at the first quote with as many hashes behind it. Neither may hold a
carriage return. A literal that touches a word, on either side, is another kind of token.
-/
namespace Agentry.Source

open Text (hexValue?)

inductive Token where
  | word (cs : List Char)
  | mark (c : Char)
  | literal (text value : List Char)
  deriving DecidableEq, Repr

def isBlank (c : Char) : Bool := c = ' ' || c = '\n' || c = '\t'

def marks : List Char :=
  ['\x7b', '\x7d', '(', ')', '[', ']', '<', '>', ':', ';', ',', '.', '&', '=', '*', '!', '#', '-']

def isMark (c : Char) : Bool := marks.contains c

def isWordStart (c : Char) : Bool := c.isAlpha || c = '_'

def isWordChar (c : Char) : Bool := c.isAlphanum || c = '_'

/-! ## Ordinary literals -/

/-- Where a reader stands inside an ordinary literal. -/
inductive Mode where
  | plain
  | escaped
  | octetHigh
  | octetLow (high : Nat)
  | pointOpen
  | point (digits value : Nat)
  | skipping

inductive Step where
  | fail
  | stop
  | go (out : Option Char) (mode : Mode)

/-- The character of an escape of one letter. -/
def letterEscape? (c : Char) : Option Char :=
  match c with
  | 'n' => some '\n'
  | 'r' => some '\r'
  | 't' => some '\t'
  | '\\' => some '\\'
  | '0' => some (Char.ofNat 0)
  | '\'' => some '\''
  | '"' => some '"'
  | _ => none

def plainStep (c : Char) : Step :=
  if c = '"' then .stop
  else if c = '\\' then .go none .escaped
  else if c = '\r' then .fail
  else .go (some c) .plain

def escapedStep (c : Char) : Step :=
  match letterEscape? c with
  | some out => .go (some out) .plain
  | none =>
    if c = 'x' then .go none .octetHigh
    else if c = 'u' then .go none .pointOpen
    else if c = '\n' then .go none .skipping
    else .fail

def pointStep (digits value : Nat) (c : Char) : Step :=
  if c = '_' && 0 < digits then .go none (.point digits value)
  else if c = '\x7d' && 0 < digits then
    if value.isValidChar then .go (some (Char.ofNat value)) .plain else .fail
  else
    match hexValue? c with
    | some d => if digits < 6 then .go none (.point (digits + 1) (value * 16 + d)) else .fail
    | none => .fail

def step : Mode → Char → Step
  | .plain, c => plainStep c
  | .escaped, c => escapedStep c
  | .octetHigh, c =>
    match hexValue? c with
    | some d => if d < 8 then .go none (.octetLow d) else .fail
    | none => .fail
  | .octetLow high, c =>
    match hexValue? c with
    | some d => .go (some (Char.ofNat (high * 16 + d))) .plain
    | none => .fail
  | .pointOpen, c => if c = '\x7b' then .go none (.point 0 0) else .fail
  | .point digits value, c => pointStep digits value c
  | .skipping, c => if isBlank c || c = '\r' then .go none .skipping else plainStep c

/-- The value of an ordinary literal behind its opening quote, and what follows the closing one. -/
def readBody : Mode → List Char → Option (List Char × List Char)
  | _, [] => none
  | mode, c :: rest =>
    match step mode c with
    | .fail => none
    | .stop => some ([], rest)
    | .go out next => (readBody next rest).map fun (value, after) => (out.toList ++ value, after)

/-! ## Raw literals -/

/-- The value of a raw literal behind its `r`, and what follows its closing fence. -/
def readRaw (cs : List Char) : Option (List Char × List Char) :=
  let fence := cs.takeWhile (· = '#')
  match cs.dropWhile (· = '#') with
  | '"' :: body =>
    match Text.cut ('"' :: fence) body with
    | some (value, after) =>
      if fence.length ≤ 255 && !value.contains '\r' then some (value, after) else none
    | none => none
  | _ => none

/-! ## Texts -/

def startsWith (p : Char → Bool) (cs : List Char) : Bool :=
  (cs.head?.map p).getD false

/-- A literal at the front of a text, unless a word follows it at once. -/
def asLiteral (cs : List Char) : Option (List Char × List Char) → Option (Option Token × List Char)
  | some (value, after) =>
    if startsWith isWordChar after then none
    else some (some (.literal (cs.take (cs.length - after.length)) value), after)
  | none => none

/-- A word at the front of a text, unless it would be the prefix of a literal. -/
def readWord (cs : List Char) : Option (Option Token × List Char) :=
  let after := cs.dropWhile isWordChar
  if startsWith (fun c => c = '"' || c = '\'' || c = '#') after then none
  else some (some (.word (cs.takeWhile isWordChar)), after)

/-- Whether a text goes on like a raw literal behind its `r`. -/
def opensRaw (cs : List Char) : Bool :=
  startsWith (· = '"') (cs.dropWhile (· = '#'))

/-- What stands at the front of a text, a token or something to pass over, and what follows it. -/
def next : List Char → Option (Option Token × List Char)
  | [] => none
  | c :: rest =>
    if isBlank c then some (none, rest)
    else if c = '/' then
      if startsWith (· = '/') rest then some (none, rest.dropWhile (· ≠ '\n')) else none
    else if c = '"' then asLiteral (c :: rest) (readBody .plain rest)
    else if c = 'r' && opensRaw rest then asLiteral (c :: rest) (readRaw rest)
    else if isWordStart c then readWord (c :: rest)
    else if isMark c then some (some (.mark c), rest)
    else none

/-- The tokens of a text. Each takes at least one character. -/
def tokensWithin : Nat → List Char → Option (List Token)
  | _, [] => some []
  | 0, _ => none
  | fuel + 1, cs => do
    let (token, rest) ← next cs
    let more ← tokensWithin fuel rest
    return token.toList ++ more

def tokens (cs : List Char) : Option (List Token) :=
  tokensWithin cs.length cs

/-- The literals among some tokens, each with its text and its value. -/
def literalsOf (ts : List Token) : List (List Char × List Char) :=
  ts.filterMap fun
    | .literal text value => some (text, value)
    | _ => none

end Agentry.Source

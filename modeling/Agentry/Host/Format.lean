import Agentry.Host.Numeral
/-!
# Escapes and formats

An escape begins with a backslash; which letters and how many digits may follow depends on the
program, so each has a record of what it knows. A format is used again as long as it takes arguments
and some are left; what is wrong with an argument is said and does not stop it.
-/
namespace Agentry.Host

/-- The escapes that a program knows besides those of one letter. -/
structure Escapes where
  /-- A zero may stand in front of the octal digits. -/
  zeroFirst : Bool
  /-- Octal digits may follow without a zero. -/
  bareOctal : Bool
  hexadecimal : Bool
  /-- The escape `\c` ends all output. -/
  stops : Bool
  /-- An escape for the double quote. -/
  quote : Bool
  /-- An escape for the escape character. -/
  escapeLetter : Bool
  /-- Hexadecimal digits have to follow where they may, and numbers of characters are known. -/
  demanding : Bool

/-- The character of an escape of one letter. -/
def letterEscape (c : Char) : Option Char :=
  match c with
  | 'a' => some '\x07'
  | 'b' => some '\x08'
  | 't' => some '\t'
  | 'n' => some '\n'
  | 'v' => some '\x0b'
  | 'f' => some '\x0c'
  | 'r' => some '\r'
  | '\\' => some '\\'
  | _ => none

/-- The octet of a number, as a character. -/
def octetChar (n : Nat) : Char := Char.ofNat (n % 256)

/-- The digits at the front of a text, at most `width` of them. -/
def leading (allowed : Char → Bool) (width : Nat) (cs : List Char) : List Char :=
  (cs.take width).takeWhile allowed

/-- What an escape writes, and what follows it. -/
inductive Escaped where
  | octets (written : List Char) (rest : List Char)
  | stop
  | digitsMissing

/-- The escape behind a backslash. -/
def readEscape (known : Escapes) (cs : List Char) : Escaped :=
  match cs with
  | [] => .octets ['\\'] []
  | c :: rest =>
    match letterEscape c with
    | some octet => .octets [octet] rest
    | none =>
      if known.stops && c = 'c' then .stop
      else if known.zeroFirst && c = '0' then
        let digits := leading isOctal 3 rest
        .octets [octetChar (digitsIn 8 digits)] (rest.drop digits.length)
      else if known.bareOctal && isOctal c then
        let digits := leading isOctal 3 (c :: rest)
        .octets [octetChar (digitsIn 8 digits)] ((c :: rest).drop digits.length)
      else if known.escapeLetter && c = 'e' then .octets ['\x1b'] rest
      else if known.quote && c = '"' then .octets ['"'] rest
      else if known.hexadecimal && c = 'x' then
        let digits := leading (isDigitIn 16) 2 rest
        if digits.isEmpty then
          if known.demanding then .digitsMissing else .octets ['\\', c] rest
        else .octets [octetChar (digitsIn 16 digits)] (rest.drop digits.length)
      else if known.demanding && (c = 'u' || c = 'U') then
        let width := if c = 'u' then 4 else 8
        let digits := leading (isDigitIn 16) width rest
        if digits.length < width then .digitsMissing
        else .octets ('\\' :: c :: digits.map Char.toUpper) (rest.drop width)
      else .octets ['\\', c] rest

/-- A text with its escapes carried out, and whether output may go on. The first argument bounds the
number of characters. -/
def unescape (known : Escapes) : Nat → List Char → List Char × Bool
  | 0, _ => ([], true)
  | _, [] => ([], true)
  | fuel + 1, '\\' :: rest =>
    match readEscape known rest with
    | .stop => ([], false)
    | .digitsMissing => ([], false)
    | .octets written rest =>
      let (more, goesOn) := unescape known fuel rest
      (written ++ more, goesOn)
  | fuel + 1, c :: rest =>
    let (more, goesOn) := unescape known fuel rest
    (c :: more, goesOn)

/-- How a program formats: the escapes of its formats and of its arguments, the bits that it keeps
of a real number, and how it words what is wrong. -/
structure Dialect where
  format : Escapes
  argument : Escapes
  bits : Nat
  notNumeric : String → String
  leftOver : String → String
  outOfRange : String → String
  badDirective : String → String
  missingLetter : String → String
  /-- Whether a directive may be followed by a width letter, which changes nothing. -/
  widthLetters : Bool
  /-- How an argument is put between quotes, if there is a directive for it. -/
  quotes : Option (String → String)
  /-- What is said about arguments that a format does not take. -/
  excess : Option (String → String)

/-- What was written so far, the arguments that are left, what is to be said, and whether all
arguments were as they have to be. -/
structure Printing where
  written : List Char
  arguments : List String
  complaints : List String
  sound : Bool

/-- Why printing ends. A fault is said, and a stop is silent. -/
inductive Cut where
  | stop
  | fault (complaint : String)

abbrev Printer := ExceptT Cut (StateM Printing)

namespace Printer

def put (cs : List Char) : Printer Unit :=
  modify fun p => { p with written := cs.reverse ++ p.written }

def complain (text : String) : Printer Unit :=
  modify fun p => { p with complaints := p.complaints ++ [text], sound := false }

/-- Takes the next argument. -/
def argument? : Printer (Option String) := do
  let p ← get
  set { p with arguments := p.arguments.tail }
  return p.arguments.head?

/-- Says what is wrong with a numeric argument. -/
def check (dialect : Dialect) (text : String) (rest : Option (List Char)) (outOfRange : Bool) :
    Printer Unit := do
  match rest with
  | none => unless text.isEmpty do complain (dialect.notNumeric text)
  | some (_ :: _) => complain (dialect.leftOver text)
  | some [] => if outOfRange then complain (dialect.outOfRange text)

/-- The number of the character behind a quote, which such an argument stands for. -/
def quotedValue? (cs : List Char) : Option Nat :=
  match cs with
  | q :: rest => if q = '"' || q = '\'' then some ((rest.head?.map Char.toNat).getD 0) else none
  | [] => none

/-- Takes a whole number. -/
def integer (dialect : Dialect) (read : Nat → List Char → Option Reading) : Printer Int := do
  match ← argument? with
  | none => return 0
  | some text =>
    match quotedValue? text.toList with
    | some n => return n
    | none =>
      let reading := read 0 text.toList
      check dialect text (reading.map (·.rest)) (reading.any (·.outOfRange))
      return (reading.map (·.value)).getD 0

/-- Takes a real number. -/
def real (dialect : Dialect) : Printer Quantity := do
  match ← argument? with
  | none => return .quotient false 0 1
  | some text =>
    match quotedValue? text.toList with
    | some n => return .quotient false n 1
    | none =>
      let reading := readQuantity text.toList
      check dialect text (reading.map (·.2)) false
      let value : Quantity := (reading.map (·.1)).getD (.quotient false 0 1)
      return value.rounded dialect.bits

end Printer

/-- A directive of a format. -/
structure Directive where
  flags : List Char
  width : Nat
  precision : Option Nat
  letter : Char

namespace Directive

def has (d : Directive) (flag : Char) : Bool := d.flags.contains flag

/-- A text put into the width of a directive, its front staying in front of zeros. -/
def fill (d : Directive) (zeros : Bool) (front body : List Char) : List Char :=
  let missing := d.width - (front.length + body.length)
  if d.has '-' then front ++ body ++ List.replicate missing ' '
  else if zeros && d.has '0' then front ++ List.replicate missing '0' ++ body
  else List.replicate missing ' ' ++ front ++ body

def signText (d : Directive) (negative : Bool) : List Char :=
  if negative then ['-'] else if d.has '+' then ['+'] else if d.has ' ' then [' '] else []

/-- Digits with as many zeros in front of them as the precision asks for. -/
def digitsText (d : Directive) (digits : List Char) : List Char :=
  match d.precision with
  | some 0 => if digits = ['0'] then [] else digits
  | some n => List.replicate (n - digits.length) '0' ++ digits
  | none => digits

def text (d : Directive) (cs : List Char) : List Char :=
  d.fill false [] (match d.precision with
    | some n => cs.take n
    | none => cs)

def signed (d : Directive) (n : Int) : List Char :=
  d.fill d.precision.isNone (d.signText (n < 0)) (d.digitsText (Nat.toDigits 10 n.natAbs))

def unsigned (d : Directive) (n : Nat) : List Char :=
  let base := if d.letter = 'o' then 8 else if d.letter = 'u' then 10 else 16
  let digits := d.digitsText (Nat.toDigits base n)
  let upper (cs : List Char) : List Char := if d.letter = 'X' then cs.map Text.asciiUpper else cs
  let marked := d.has '#' && n ≠ 0
  if base = 8 && d.has '#' && digits.head? ≠ some '0' then
    d.fill d.precision.isNone [] ('0' :: digits)
  else
    d.fill d.precision.isNone (if base = 16 && marked then ['0', d.letter] else []) (upper digits)

def real (d : Directive) (x : Quantity) : List Char :=
  let upper := d.letter.isUpper
  let cased (cs : List Char) : List Char := if upper then cs.map Text.asciiUpper else cs
  let letter := Text.asciiLower d.letter
  match x with
  | .none => d.fill false (d.signText false) (cased ['n', 'a', 'n'])
  | .infinite negative => d.fill false (d.signText negative) (cased ['i', 'n', 'f'])
  | .quotient negative num den =>
    let places := d.precision.getD 6
    let point := d.has '#'
    let body := if letter = 'f' then fixedText point places num den
      else if letter = 'e' then scientificText point places num den
      else generalText point places num den
    d.fill true (d.signText negative) (cased body)

end Directive

namespace Printer

def isFlag (c : Char) : Bool :=
  c = '#' || c = '\'' || c = '-' || c = '+' || c = ' ' || c = '0'

/-- A count of a directive: a star takes it from the arguments. -/
def count (dialect : Dialect) (cs : List Char) : Printer (Int × List Char) := do
  match cs with
  | '*' :: rest => return (← integer dialect readInteger, rest)
  | cs =>
    let digits := cs.takeWhile Json.isDigit
    return (Json.digitsValue digits, cs.drop digits.length)

/-- Carries out the directive behind a percent sign. The answer is what follows it. -/
def directive (dialect : Dialect) (cs : List Char) : Printer (List Char) := do
  let flags := cs.takeWhile isFlag
  let (width, rest) ← count dialect (cs.drop flags.length)
  let flags := if width < 0 then '-' :: flags else flags
  let (precision, rest) : Option Nat × List Char ← (match rest with
    | '.' :: rest => do
      let (n, rest) ← count dialect rest
      return (if n < 0 then none else some n.toNat, rest)
    | rest => pure (none, rest))
  let skipped := if dialect.widthLetters then
      rest.takeWhile fun c => "lLhjtz".toList.contains c
    else []
  let rest := rest.drop skipped.length
  match rest with
  | [] => throw (.fault (dialect.missingLetter (String.ofList ('%' :: cs))))
  | letter :: after =>
    let d : Directive := ⟨flags, width.natAbs, precision, letter⟩
    let isBare := flags.isEmpty && width = 0 && precision.isNone
    if letter = 's' then put (d.text ((← argument?).getD "").toList)
    else if letter = 'q' && dialect.quotes.isSome && isBare then
      let text := (← argument?).getD ""
      put ((dialect.quotes.map (· text)).getD text).toList
    else if letter = 'b' && (isBare || dialect.quotes.isNone) then
      let cs := ((← argument?).getD "").toList
      let (written, goesOn) := unescape dialect.argument cs.length cs
      put (d.text written)
      unless goesOn do throw .stop
    else if letter = 'c' then
      put ({ d with precision := none }.text [(((← argument?).getD "").toList.head?).getD '\x00'])
    else if letter = 'd' || letter = 'i' then put (d.signed (← integer dialect readInteger))
    else if "ouxX".toList.contains letter then
      put (d.unsigned (← integer dialect readUnsigned).toNat)
    else if "eEfFgG".toList.contains letter then put (d.real (← real dialect))
    else
      throw (.fault (dialect.badDirective
        (String.ofList ('%' :: cs.take (cs.length - after.length)))))
    return after

/-- One pass over a format. The first argument bounds the number of characters. -/
def pass (dialect : Dialect) : Nat → List Char → Printer Unit
  | 0, _ => return
  | _, [] => return
  | fuel + 1, '\\' :: rest =>
    match readEscape dialect.format rest with
    | .stop => throw .stop
    | .digitsMissing => throw (.fault "missing hexadecimal number in escape")
    | .octets written rest => do
      put written
      pass dialect fuel rest
  | fuel + 1, '%' :: '%' :: rest => do
    put ['%']
    pass dialect fuel rest
  | fuel + 1, '%' :: rest => do
    let rest ← directive dialect rest
    pass dialect fuel rest
  | fuel + 1, c :: rest => do
    put [c]
    pass dialect fuel rest

/-- Passes over a format as long as it takes arguments. -/
def passes (dialect : Dialect) (format : List Char) : Nat → Printer Unit
  | 0 => return
  | fuel + 1 => do
    let before := (← get).arguments.length
    pass dialect format.length format
    let left := (← get).arguments
    if left.isEmpty then return
    else if left.length = before then
      match dialect.excess, left.head? with
      | some warning, some argument =>
        modify fun p => { p with complaints := p.complaints ++ [warning argument] }
      | _, _ => return
    else passes dialect format fuel

end Printer

/-- What a format makes of some arguments, what there is to say, and whether all went well. The last
part is the fault that cut it short. -/
def printf (dialect : Dialect) (format : String) (arguments : List String) :
    Printing × Option String :=
  let (result, printing) :=
    (Printer.passes dialect format.toList (arguments.length + 1)).run
      ⟨[], arguments, [], true⟩
  (printing, match result with
    | .error (.fault complaint) => some complaint
    | _ => none)

/-- What was written, in order. -/
def Printing.text (printing : Printing) : String :=
  String.ofList printing.written.reverse

end Agentry.Host

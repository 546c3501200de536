import Agentry.Host.Expression
import Agentry.Host.Shell.Command
/-!
# Reading commands

A shell reads one line after the other and carries each out before it reads the next, so that a
fault stops it only where it stands. Characters become tokens as they are asked for; a word may hold
commands, so tokens and commands are read by functions that call each other. The text of a
here-document is read behind the line end that follows its redirection. A backslash before a line
end joins two lines.
-/
namespace Agentry.Host

/-- What stops the reading of a command. -/
inductive ReadCause where
  | unterminated
  | openBackquote
  | openBrace
  | openExpression
  | badLoopName
  | badFunctionName
  | badDescriptor
  /-- A token in the wrong place, and the token that should stand there. -/
  | unexpected (token : String) (expected : Option String)
  deriving DecidableEq, Repr

def ReadCause.message : ReadCause → String
  | .unterminated => "Unterminated quoted string"
  | .openBackquote => "EOF in backquote substitution"
  | .openBrace => "Missing '\x7d'"
  | .openExpression => "Missing '))'"
  | .badLoopName => "Bad for loop variable"
  | .badFunctionName => "Bad function name"
  | .badDescriptor => "Bad fd number"
  | .unexpected token none => token ++ " unexpected"
  | .unexpected token (some expected) => token ++ " unexpected (expecting " ++ expected ++ ")"

/-- A cause and the line that it is on. -/
structure ReadFault where
  line : Nat
  cause : ReadCause
  deriving DecidableEq, Repr

inductive RedirectionSign where
  | file (use : FileUse)
  | copy
  /-- A here-document, and whether tabs are taken off the front of its lines. -/
  | document (strips : Bool)
  deriving DecidableEq, Repr

inductive Token where
  /-- A word, and whether any of it is quoted. -/
  | word (pieces : Word) (quoted : Bool)
  | redirection (descriptor : Nat) (sign : RedirectionSign)
  | operator (text : String)
  | lineEnd
  | textEnd

/-- A here-document whose text was not read yet. -/
structure OwedDocument where
  index : Nat
  delimiter : List Char
  strips : Bool
  raw : Bool

/-- An alias whose text is being read: how much is left behind that text, and whether the word
behind it may be an alias again, as a blank at the end of the text says. -/
structure Insertion where
  name : String
  behind : Nat
  goesOn : Bool

/-- The characters that are left, the token that was looked at, and the here-documents that were
read. -/
structure Source where
  rest : List Char
  line : Nat
  peeked : Option Token
  owed : List OwedDocument
  documents : Array Word
  aliases : List (String × String)
  insertions : List Insertion
  /-- The token that was looked at stands behind an alias that goes on. -/
  follows : Bool

namespace Source

def ofText (text : String) (documents : Array Word) : Source :=
  ⟨text.toList, 1, none, [], documents, [], [], false⟩

/-- The text of the alias that a token is, if it is not being read already. -/
def alias? (source : Source) (token : Token) : Option (String × String) :=
  match token with
  | .word pieces false =>
    match (plainText? pieces).map String.ofList with
    | some name =>
      if source.insertions.any (·.name == name) then none
      else (source.aliases.lookup name).map (name, ·)
    | none => none
  | _ => none

/-- Puts the text of an alias in place of the token that was looked at. -/
def insert (source : Source) (name value : String) : Source :=
  let goesOn := value.toList.getLast?.any fun c => c = ' ' || c = '\t'
  { source with
    rest := value.toList ++ source.rest, peeked := none
    insertions := ⟨name, source.rest.length, goesOn⟩ :: source.insertions }

end Source

abbrev Reader := StateT Source (Except ReadFault)

namespace Reader

def fail (cause : ReadCause) : Reader α := do throw ⟨(← get).line, cause⟩

/-- A text without the joints of its lines at its front, and how many there were. -/
def joined : List Char → Nat × List Char
  | '\\' :: '\n' :: rest =>
    let (count, rest) := joined rest
    (count + 1, rest)
  | cs => (0, cs)

/-- The next character, joints apart. -/
def look : Reader (Option Char) := do
  let source ← get
  let (count, rest) := joined source.rest
  set { source with rest, line := source.line + count }
  return rest.head?

/-- Takes the next character as it stands. -/
def takeRaw : Reader (Option Char) := do
  let source ← get
  match source.rest with
  | [] => return none
  | c :: rest =>
    set { source with rest, line := if c = '\n' then source.line + 1 else source.line }
    return some c

/-- Takes the next character, joints apart. -/
def take : Reader (Option Char) := do
  let _ ← look
  takeRaw

/-- Takes characters as long as they are allowed. The first argument bounds their number. -/
def takeWhile (allowed : Char → Bool) : Nat → Reader (List Char)
  | 0 => return []
  | fuel + 1 => do
    match ← look with
    | some c =>
      if allowed c then
        let _ ← takeRaw
        return c :: (← takeWhile allowed fuel)
      else return []
    | none => return []

/-- How many characters are left. -/
def size : Reader Nat := do return (← get).rest.length

/-- Takes what stands before a single quote, and the quote. The first argument bounds the number of
characters. -/
def takeQuoted : Nat → Reader (List Char)
  | 0 => fail .unterminated
  | fuel + 1 => do
    match ← takeRaw with
    | none => fail .unterminated
    | some c => if c = '\'' then return [] else return c :: (← takeQuoted fuel)

def backquote : Char := '\x60'

/-- Takes what stands before a backquote, and the backquote: a backslash is taken off the characters
that it keeps from their meaning. -/
def takeBackquoted (quoted : Bool) : Nat → Reader (List Char)
  | 0 => fail .openBackquote
  | fuel + 1 => do
    match ← take with
    | none => fail .openBackquote
    | some c =>
      if c = backquote then return []
      else if c = '\\' then
        match ← takeRaw with
        | none => return c :: (← takeBackquoted quoted fuel)
        | some d =>
          let rest ← takeBackquoted quoted fuel
          if d = '\\' || d = backquote || d = '$' || (quoted && d = '"') then return d :: rest
          else return c :: d :: rest
      else return c :: (← takeBackquoted quoted fuel)

def isSpecial (c : Char) : Bool :=
  c = '$' || c = '?' || c = '#' || c = '@' || c = '*' || c = '!' || c = '-'

def endsWord (c : Char) : Bool :=
  c = ' ' || c = '\t' || c = '\n' || c = ';' || c = '&' || c = '|' || c = '<' || c = '>' ||
    c = '(' || c = ')'

/-- Where the pieces of a word are read, which says what ends them and what is quoted. -/
inductive Place where
  /-- Out of all quotes. -/
  | bare
  /-- Between double quotes. -/
  | quoted
  /-- Before a closing brace. -/
  | braces (quoted : Bool)
  /-- Between double quotes within quoted braces. -/
  | guarded
  /-- Before two closing parentheses, some being open. -/
  | expression (depth : Nat)
  /-- In a here-document, at the beginning of a line or not. -/
  | document (delimiter : List Char) (strips atStart : Bool)

namespace Place

/-- Whether single quotes and double quotes open here and blanks are not quoted. -/
def isPlain : Place → Bool
  | .bare => true
  | .braces isQuoted => !isQuoted
  | _ => false

def isBraced : Place → Bool
  | .braces _ => true
  | .guarded => true
  | _ => false

/-- What stays quoted by a backslash between double quotes. -/
def escapes (place : Place) (c : Char) : Bool :=
  c = '\\' || c = backquote || c = '$' ||
    (c = '"' && match place with
      | .document _ _ _ => false
      | _ => true) ||
    (c = '\x7d' && place.isBraced)

/-- What it means that the text ends here. -/
def atEnd : Place → Option ReadCause
  | .bare => none
  | .document _ _ _ => none
  | .braces false => some .openBrace
  | .expression _ => some .openExpression
  | _ => some .unterminated

end Place

/-- The rest of a text behind the line of a delimiter, if that line comes first. -/
def afterDelimiter? (delimiter : List Char) (cs : List Char) : Option (List Char) :=
  if delimiter.isPrefixOf cs then
    match cs.drop delimiter.length with
    | [] => some []
    | '\n' :: rest => some rest
    | _ => none
  else none

def withoutTabs (strips : Bool) (cs : List Char) : List Char :=
  if strips then cs.dropWhile (· = '\t') else cs

/-- Ends a here-document at its delimiter, if that comes next. -/
def endsDocument (delimiter : List Char) (strips : Bool) : Reader Bool := do
  let source ← get
  let cs := withoutTabs strips source.rest
  match afterDelimiter? delimiter cs with
  | some rest =>
    set { source with rest, line := source.line + 1 }
    return true
  | none =>
    set { source with rest := cs }
    return false

/-- The text of a here-document in which nothing is filled in. The first argument bounds the number
of lines. -/
def takeDocument (delimiter : List Char) (strips : Bool) : Nat → Reader (List Char)
  | 0 => return []
  | fuel + 1 => do
    if ← endsDocument delimiter strips then return []
    let source ← get
    let line := source.rest.takeWhile (· ≠ '\n')
    match source.rest.drop line.length with
    | [] =>
      set { source with rest := [] }
      return line
    | _ :: rest =>
      set { source with rest, line := source.line + 1 }
      return line ++ '\n' :: (← takeDocument delimiter strips fuel)

/-- The delimiter of a here-document, and whether any of it is quoted. -/
def takeDelimiter : Nat → Reader (List Char × Bool)
  | 0 => return ([], false)
  | fuel + 1 => do
    match ← look with
    | none => return ([], false)
    | some c =>
      if endsWord c then return ([], false)
      let _ ← takeRaw
      if c = '\'' then
        let body ← takeQuoted (← size).succ
        let (rest, _) ← takeDelimiter fuel
        return (body ++ rest, true)
      else if c = '"' then
        let body ← takeWhile (· ≠ '"') (← size).succ
        if (← takeRaw).isNone then fail .unterminated
        let (rest, _) ← takeDelimiter fuel
        return (body ++ rest, true)
      else if c = '\\' then
        let escaped ← takeRaw
        let (rest, _) ← takeDelimiter fuel
        return (escaped.toList ++ rest, true)
      else
        let (rest, quoted) ← takeDelimiter fuel
        return (c :: rest, quoted)

def reservedWords : List String :=
  ["!", "case", "do", "done", "elif", "else", "esac", "fi", "for", "if", "in", "then", "until",
   "while", "\x7b", "\x7d"]

/-- The reserved word that a token is. -/
def reserved? : Token → Option String
  | .word pieces false =>
    ((plainText? pieces).map String.ofList).filter reservedWords.contains
  | _ => none

def quotedName (text : String) : String := "\"" ++ text ++ "\""

/-- How a token is called in a complaint, reserved words being known as such or not. -/
def nameOf (reserving : Bool) (token : Token) : String :=
  match token with
  | .word _ _ =>
    match if reserving then reserved? token else none with
    | some text => quotedName text
    | none => "word"
  | .redirection _ _ => "redirection"
  | .operator text => quotedName text
  | .lineEnd => "newline"
  | .textEnd => "end of file"

/-- The operator at the front of a text, and what follows it. -/
def operator? : List Char → Option (String × List Char)
  | '&' :: '&' :: rest => some ("&&", rest)
  | '|' :: '|' :: rest => some ("||", rest)
  | ';' :: ';' :: rest => some (";;", rest)
  | c :: rest =>
    if c = ';' || c = '&' || c = '|' || c = '(' || c = ')' then some (String.singleton c, rest)
    else none
  | [] => none

/-- Takes the sign of a redirection behind its first character. -/
def takeSign (first : Char) : Reader RedirectionSign := do
  let advance (sign : RedirectionSign) : Reader RedirectionSign := do
    let _ ← takeRaw
    return sign
  let next ← look
  if first = '>' then
    match next with
    | some '>' => advance (.file .append)
    | some '|' => advance (.file .replace)
    | some '&' => advance .copy
    | _ => return .file .truncate
  else
    match next with
    | some '&' => advance .copy
    | some '>' => advance (.file .both)
    | some '<' =>
      let _ ← takeRaw
      if (← look) = some '-' then advance (.document true) else return .document false
    | _ => return .file .input

/-- The descriptor of a redirection that names none. -/
def standardDescriptor (first : Char) : Nat := if first = '>' then 1 else 0

/-- The name and the value of an assignment. -/
def assignment? (word : Word) : Option (String × Word) :=
  match word with
  | .text false body :: rest =>
    let name := body.takeWhile (· ≠ '=')
    match body.drop name.length with
    | _ :: value =>
      if isName name then
        some (String.ofList name, if value.isEmpty then rest else .text false value :: rest)
      else none
    | [] => none
  | _ => none

/-- The words that no list of commands can go on with. -/
def listEnds : List String :=
  ["do", "done", "elif", "else", "esac", "fi", "then", "\x7d"]

/-- Whether a list of commands cannot go on with a token. -/
def endsList (token : Token) : Bool :=
  match token with
  | .textEnd => true
  | .operator text => text = ")" || text = ";;"
  | token => (reserved? token).any listEnds.contains

/-- The commands of the shell that a function cannot replace. -/
def specialNames : List String :=
  [".", ":", "break", "continue", "eval", "exec", "exit", "export", "readonly", "return", "set",
   "shift", "times", "trap", "unset"]

/-- Quotes around some pieces. All arguments at once need none. -/
def inQuotes (content : Word) : Word :=
  match content with
  | [.parameter _ "@" .plain] => content
  | content => .quotes :: content

/-- Whether a token is an operator. -/
def isOperator (text : String) : Token → Bool
  | .operator t => t = text
  | _ => false

def isLineEnd : Token → Bool
  | .lineEnd => true
  | _ => false

def advance : Reader Unit := modify fun source => { source with peeked := none }

/-- A list of commands as one. -/
def joinedCommands (commands : List Command) : Command :=
  match commands with
  | [command] => command
  | commands => .sequence commands

/-- The word that stands for all arguments. -/
def allArguments : Word := [.parameter true "@" .plain]

/-- The parts of a simple command, the last ones first. -/
structure Parts where
  assignments : List (String × Word)
  words : List Word
  redirections : List Redirection

mutual

/-- Reads the pieces of a word up to where they end. -/
def readPieces : Nat → Place → Reader Word
  | 0, _ => return []
  | fuel + 1, place => do
    if ← (match place with
      | .document delimiter strips true => endsDocument delimiter strips
      | _ => pure false) then return []
    let quoted := !place.isPlain
    let before ← get
    match ← take with
    | none =>
      match place.atEnd with
      | some cause => fail cause
      | none => return []
    | some c =>
      let inner := match place with
        | .document delimiter strips _ => .document delimiter strips false
        | place => place
      let goOn : Reader Word := readPieces fuel inner
      if place.isBraced && c = '\x7d' && (match place with
        | .guarded => false
        | _ => true) then return []
      else if c = '\\' then
        match ← takeRaw with
        | none =>
          let rest ← goOn
          return Word.cons true '\\' rest
        | some d =>
          let rest ← goOn
          if !quoted || place.escapes d then return Word.cons true d rest
          else return Word.cons true '\\' (Word.cons true d rest)
      else if c = '$' then
        let pieces ← readDollar fuel quoted
        return pieces ++ (← goOn)
      else if c = backquote then
        let piece ← readBackquoted fuel quoted
        return piece :: (← goOn)
      else if !quoted && c = '\'' then
        let body ← takeQuoted (← size).succ
        return .quotes :: .text true body :: (← goOn)
      else if c = '"' then
        match place with
        | .quoted => return []
        | .guarded => return []
        | .braces true =>
          let content ← readPieces fuel .guarded
          return content ++ (← goOn)
        | .bare =>
          let content ← readPieces fuel .quoted
          return inQuotes content ++ (← goOn)
        | .braces false =>
          let content ← readPieces fuel .quoted
          return inQuotes content ++ (← goOn)
        | _ => return Word.cons true c (← goOn)
      else
        match place with
        | .bare =>
          if endsWord c then
            set before
            return []
          else return Word.cons false c (← goOn)
        | .expression depth =>
          if c = '(' then
            return Word.cons true c (← readPieces fuel (.expression (depth + 1)))
          else if c = ')' then
            match depth with
            | depth + 1 => return Word.cons true c (← readPieces fuel (.expression depth))
            | 0 =>
              if (← look) = some ')' then
                let _ ← takeRaw
                return []
              else return Word.cons true c (← goOn)
          else return Word.cons true c (← goOn)
        | .document delimiter strips _ =>
          return Word.cons true c (← readPieces fuel (.document delimiter strips (c = '\n')))
        | _ => return Word.cons quoted c (← goOn)

/-- Reads what a dollar sign asks for. One that asks for nothing is text. -/
def readDollar : Nat → Bool → Reader Word
  | 0, _ => return []
  | fuel + 1, quoted => do
    match ← look with
    | some '(' =>
      let _ ← takeRaw
      if (← look) = some '(' then
        let _ ← takeRaw
        return [.number quoted (← readPieces fuel (.expression 0))]
      else return [.output quoted (← readSubstitution fuel)]
    | some '\x7b' =>
      let _ ← takeRaw
      return [← readBraced fuel quoted]
    | some c =>
      if isNameStart c then
        let name ← takeWhile isNameChar (← size).succ
        return [.parameter quoted (String.ofList name) .plain]
      else if c.isDigit || isSpecial c then
        let _ ← takeRaw
        return [.parameter quoted (String.singleton c) .plain]
      else return [.text quoted ['$']]
    | none => return [.text quoted ['$']]

/-- Reads the parameter between braces. -/
def readBraced : Nat → Bool → Reader Piece
  | 0, quoted => return .parameter quoted "" .malformed
  | fuel + 1, quoted => do
    let malformed : Reader Piece := do
      let _ ← readPieces fuel (.braces quoted)
      return .parameter quoted "" .malformed
    match ← look with
    | none => malformed
    | some c =>
      if isNameChar c then
        let name ← takeWhile (if c.isDigit then Char.isDigit else isNameChar) (← size).succ
        return .parameter quoted (String.ofList name) (← readUse fuel quoted)
      else if c = '\x7d' then malformed
      else
        let _ ← takeRaw
        match c, ← look with
        | '#', some d =>
          if isNameChar d then
            let name ← takeWhile (if d.isDigit then Char.isDigit else isNameChar) (← size).succ
            if (← look) = some '\x7d' then
              let _ ← takeRaw
              return .parameter quoted (String.ofList name) .length
            else malformed
          else
            let before ← get
            let _ ← takeRaw
            if d ≠ '\x7d' && (← look) = some '\x7d' && isSpecial d then
              let _ ← takeRaw
              return .parameter quoted (String.singleton d) .length
            else
              set before
              return .parameter quoted "#" (← readUse fuel quoted)
        | c, _ =>
          if isSpecial c then return .parameter quoted (String.singleton c) (← readUse fuel quoted)
          else malformed

/-- Reads what becomes of the value of a parameter, up to the closing brace. -/
def readUse : Nat → Bool → Reader ParameterUse
  | 0, _ => return .malformed
  | fuel + 1, quoted => do
    let fallback (colon : Bool) (use : FallbackUse) : Reader ParameterUse := do
      let _ ← takeRaw
      return .fallback colon use (← readPieces fuel (.braces quoted))
    let fallback? (colon : Bool) (c : Option Char) : Option (Reader ParameterUse) :=
      match c with
      | some '-' => some (fallback colon .instead)
      | some '+' => some (fallback colon .also)
      | some '=' => some (fallback colon .assigned)
      | some '?' => some (fallback colon .refused)
      | _ => none
    let malformed : Reader ParameterUse := do
      let _ ← readPieces fuel (.braces quoted)
      return .malformed
    let trim (front : Bool) (mark : Char) : Reader ParameterUse := do
      let _ ← takeRaw
      let longest := (← look) = some mark
      if longest then
        let _ ← takeRaw
      return .trim front longest (← readPieces fuel (.braces false))
    match ← look with
    | some '\x7d' =>
      let _ ← takeRaw
      return .plain
    | some '#' => trim true '#'
    | some '%' => trim false '%'
    | some ':' =>
      let _ ← takeRaw
      let next ← look
      if next = some '\x7d' then
        let _ ← takeRaw
        let _ ← readPieces fuel (.braces quoted)
        return .plain
      else
        match fallback? true next with
        | some read => read
        | none => malformed
    | next =>
      match fallback? false next with
      | some read => read
      | none => malformed

/-- Reads the commands between parentheses whose output is asked for. -/
def readSubstitution : Nat → Reader Command
  | 0 => return .nothing
  | fuel + 1 => do
    let outer := (← get).owed
    modify fun source => { source with owed := [] }
    let body ← readList fuel false true []
    let token ← peek fuel
    if isOperator ")" token then advance else misplaced fuel true (some (quotedName ")"))
    modify fun source => { source with owed := outer }
    return body

/-- Reads the commands between backquotes, which are a text of their own. -/
def readBackquoted : Nat → Bool → Reader Piece
  | 0, quoted => return .output quoted .nothing
  | fuel + 1, quoted => do
    let text ← takeBackquoted quoted (← size).succ
    let outer ← get
    set { outer with rest := text, line := 1, peeked := none, owed := [] }
    let body ← readList fuel false true []
    let inner ← get
    set { outer with documents := inner.documents }
    return .output quoted body

/-- Reads the texts of the here-documents that are owed. -/
def readDocuments : Nat → Reader Unit
  | 0 => return
  | fuel + 1 => do
    match (← get).owed with
    | [] => return
    | ⟨index, delimiter, strips, raw⟩ :: owed =>
      modify fun source => { source with owed }
      let word : Word ←
        if raw then do pure [.text true (← takeDocument delimiter strips (← size).succ)]
        else readPieces fuel (.document delimiter strips true)
      modify fun source => { source with documents := source.documents.setIfInBounds index word }
      readDocuments fuel

/-- Reads the next token, the here-documents that are owed behind a line end being read with it. -/
def readToken : Nat → Reader Token
  | 0 => return .textEnd
  | fuel + 1 => do
    let _ ← takeWhile (fun c => c = ' ' || c = '\t') (← size).succ
    match ← look with
    | none =>
      modify fun source => { source with owed := [] }
      return .textEnd
    | some '\n' =>
      let _ ← takeRaw
      readDocuments fuel
      return .lineEnd
    | some '#' =>
      modify fun source => { source with rest := source.rest.dropWhile (· ≠ '\n') }
      readToken fuel
    | some c =>
      if c = '<' || c = '>' then
        let _ ← takeRaw
        return .redirection (standardDescriptor c) (← takeSign c)
      else
        match operator? [c] with
        | some _ =>
          let _ ← takeRaw
          if (c = '&' || c = '|' || c = ';') && (← look) = some c then
            let _ ← takeRaw
            return .operator (String.ofList [c, c])
          else return .operator (String.singleton c)
        | none =>
          let pieces ← readPieces fuel .bare
          match pieces, ← look with
          | [.text false [digit]], some mark =>
            if digit.isDigit && (mark = '<' || mark = '>') then
              let _ ← takeRaw
              return .redirection (digit.toNat - '0'.toNat) (← takeSign mark)
            else return .word pieces false
          | pieces, _ => return .word pieces (plainText? pieces).isNone

/-- The next token, which is kept. -/
def peek : Nat → Reader Token
  | 0 => return .textEnd
  | fuel + 1 => do
    match (← get).peeked with
    | some token => return token
    | none =>
      let source ← get
      let insertions := source.insertions.filter fun insertion =>
        insertion.behind < source.rest.length
      set { source with insertions }
      let token ← readToken fuel
      modify fun source =>
        let follows := insertions.any fun insertion =>
          insertion.goesOn && source.rest.length < insertion.behind
        { source with peeked := some token, follows }
      return token

/-- Puts the text of an alias in place of the next token, as long as that is one. -/
def expandAliases : Nat → Reader Unit
  | 0 => return
  | fuel + 1 => do
    unless (← get).aliases.isEmpty do
      let token ← peek fuel
      let source ← get
      match source.alias? token with
      | some (name, value) =>
        set (source.insert name value)
        expandAliases fuel
      | none => return

/-- The fault that the next token is in the wrong place. -/
def misplaced : Nat → Bool → Option String → Reader Unit
  | 0, _, _ => return
  | fuel + 1, reserving, expected => do
    let token ← peek fuel
    fail (.unexpected (nameOf reserving token) expected)

def skipLineEnds : Nat → Reader Unit
  | 0 => return
  | fuel + 1 => do
    if isLineEnd (← peek fuel) then
      advance
      skipLineEnds fuel

/-- Reads a reserved word. -/
def readReserved : Nat → String → Reader Unit
  | 0, _ => return
  | fuel + 1, text => do
    if reserved? (← peek fuel) = some text then advance
    else misplaced fuel true (some (quotedName text))

/-- Reads a list of commands: up to the end of the line, or up to what cannot go on with it. -/
def readList : Nat → Bool → Bool → List Command → Reader Command
  | 0, _, _, _ => return .nothing
  | fuel + 1, oneLine, mayEnd, done => do
    unless oneLine do skipLineEnds fuel
    let token ← peek fuel
    match token with
    | .lineEnd =>
      advance
      return joinedCommands done.reverse
    | .textEnd => return joinedCommands done.reverse
    | token =>
      if mayEnd && endsList token then return joinedCommands done.reverse
      let command ← readChain fuel
      match ← peek fuel with
      | .operator "&" =>
        advance
        readList fuel oneLine (!oneLine) (.background command :: done)
      | .operator ";" =>
        advance
        readList fuel oneLine (!oneLine) (command :: done)
      | .textEnd => return joinedCommands (command :: done).reverse
      | .lineEnd => readList fuel oneLine (!oneLine) (command :: done)
      | _ =>
        if oneLine then misplaced fuel true none
        return joinedCommands (command :: done).reverse

/-- Reads commands with signs for success and failure between them. -/
def readChain : Nat → Reader Command
  | 0 => return .nothing
  | fuel + 1 => do
    let first ← readPipeline fuel
    readLinks fuel first

def readLinks : Nat → Command → Reader Command
  | 0, first => return first
  | fuel + 1, first => do
    let token ← peek fuel
    if isOperator "&&" token || isOperator "||" token then
      advance
      skipLineEnds fuel
      let second ← readPipeline fuel
      readLinks fuel
        (if isOperator "&&" token then .onSuccess first second else .onFailure first second)
    else return first

def readPipeline : Nat → Reader Command
  | 0 => return .nothing
  | fuel + 1 => do
    let negated := reserved? (← peek fuel) = some "!"
    if negated then advance
    let first ← readCommand fuel
    let commands ← readPipes fuel [first]
    let pipeline := match commands with
      | [command] => command
      | commands => .pipe commands
    return if negated then .negated pipeline else pipeline

def readPipes : Nat → List Command → Reader (List Command)
  | 0, commands => return commands.reverse
  | fuel + 1, commands => do
    if isOperator "|" (← peek fuel) then
      advance
      skipLineEnds fuel
      let next ← readCommand fuel
      readPipes fuel (next :: commands)
    else return commands.reverse

/-- Reads one command with the redirections behind it. -/
def readCommand : Nat → Reader Command
  | 0 => return .nothing
  | fuel + 1 => do
    if (reserved? (← peek fuel)).isNone then expandAliases fuel
    let token ← peek fuel
    let line := (← get).line
    if isOperator "(" token then
      advance
      let body ← readList fuel false false []
      if isOperator ")" (← peek fuel) then advance
      else misplaced fuel true (some (quotedName ")"))
      return .isolated line body (← readRedirections fuel)
    else
      match token, reserved? token with
      | .word _ _, none => readSimple fuel ⟨[], [], []⟩ line
      | .redirection _ _, _ => readSimple fuel ⟨[], [], []⟩ line
      | _, some "\x7b" =>
        advance
        let body ← readList fuel false false []
        readReserved fuel "\x7d"
        readBehind fuel line body
      | _, some "if" =>
        advance
        let body ← readChoice fuel
        readReserved fuel "fi"
        readBehind fuel line body
      | _, some "while" =>
        advance
        let body ← readLoop fuel true
        readBehind fuel line body
      | _, some "until" =>
        advance
        let body ← readLoop fuel false
        readBehind fuel line body
      | _, some "for" =>
        advance
        let body ← readEach fuel line
        readBehind fuel line body
      | _, some "case" =>
        advance
        let body ← readSelection fuel line
        readBehind fuel line body
      | _, _ =>
        misplaced fuel true none
        return .nothing

/-- Reads the redirections behind a compound command. -/
def readBehind : Nat → Nat → Command → Reader Command
  | 0, _, body => return body
  | fuel + 1, line, body => do
    let redirections ← readRedirections fuel
    return if redirections.isEmpty then body else .redirected line body redirections

def readRedirections : Nat → Reader (List Redirection)
  | 0 => return []
  | fuel + 1 => do
    match ← peek fuel with
    | .redirection descriptor sign =>
      advance
      let redirection ← readTarget fuel descriptor sign
      return redirection :: (← readRedirections fuel)
    | _ => return []

/-- Reads the target of a redirection. -/
def readTarget : Nat → Nat → RedirectionSign → Reader Redirection
  | 0, descriptor, _ => return .copy descriptor []
  | fuel + 1, descriptor, sign => do
    match sign with
    | .document strips =>
      let _ ← takeWhile (fun c => c = ' ' || c = '\t') (← size).succ
      let next ← look
      if next.all endsWord then
        misplaced fuel false none
        return .copy descriptor []
      else
        let (delimiter, raw) ← takeDelimiter (← size).succ
        let index := (← get).documents.size
        let owed : OwedDocument := ⟨index, delimiter, strips, raw⟩
        modify fun source => { source with
          documents := source.documents.push [], owed := source.owed ++ [owed] }
        return .document descriptor index
    | sign =>
      match ← peek fuel with
      | .word pieces _ =>
        advance
        match sign with
        | .file use => return .file descriptor use pieces
        | _ => return .copy descriptor pieces
      | _ =>
        misplaced fuel false none
        return .copy descriptor []

/-- Reads a simple command, or the definition of a function. -/
def readSimple : Nat → Parts → Nat → Reader Command
  | 0, _, _ => return .nothing
  | fuel + 1, parts, line => do
    let finish : Command :=
      .simple line parts.assignments.reverse parts.words.reverse parts.redirections.reverse
    let next ← peek fuel
    if parts.words.isEmpty || (← get).follows then expandAliases fuel
    let next ← if (← get).aliases.isEmpty then pure next else peek fuel
    match next with
    | .redirection descriptor sign =>
      advance
      let redirection ← readTarget fuel descriptor sign
      readSimple fuel { parts with redirections := redirection :: parts.redirections } line
    | .word pieces _ =>
      advance
      match if parts.words.isEmpty then assignment? pieces else none with
      | some pair => readSimple fuel { parts with assignments := pair :: parts.assignments } line
      | none => readSimple fuel { parts with words := pieces :: parts.words } line
    | .operator "(" =>
      match parts with
      | ⟨[], [word], []⟩ =>
        advance
        if isOperator ")" (← peek fuel) then advance
        else misplaced fuel false (some (quotedName ")"))
        match plainText? word with
        | some name =>
          if !isName name || specialNames.contains (String.ofList name) then
            fail .badFunctionName
          skipLineEnds fuel
          return .definition (String.ofList name) (← readCommand fuel)
        | none => fail .badFunctionName
      | _ => return finish
    | _ => return finish

/-- Reads a choice behind its first word, up to its last. -/
def readChoice : Nat → Reader Command
  | 0 => return .nothing
  | fuel + 1 => do
    let condition ← readList fuel false false []
    readReserved fuel "then"
    let yes ← readList fuel false false []
    match reserved? (← peek fuel) with
    | some "elif" =>
      advance
      return .choice condition yes (some (← readChoice fuel))
    | some "else" =>
      advance
      return .choice condition yes (some (← readList fuel false false []))
    | _ => return .choice condition yes none

/-- Reads the body of a loop. -/
def readBody : Nat → Reader Command
  | 0 => return .nothing
  | fuel + 1 => do
    readReserved fuel "do"
    let body ← readList fuel false false []
    readReserved fuel "done"
    return body

def readLoop : Nat → Bool → Reader Command
  | 0, _ => return .nothing
  | fuel + 1, wanted => do
    let condition ← readList fuel false false []
    return .loop wanted condition (← readBody fuel)

/-- Reads a loop over words behind its first word. -/
def readEach : Nat → Nat → Reader Command
  | 0, _ => return .nothing
  | fuel + 1, line => do
    let candidate : Option (List Char) := match ← peek fuel with
      | .word pieces false => (plainText? pieces).filter isName
      | _ => none
    let name : String ← match candidate with
      | some name => pure (String.ofList name)
      | none => fail .badLoopName
    advance
    skipLineEnds fuel
    let token ← peek fuel
    let words ← if reserved? token = some "in" then do
        advance
        let words ← readWords fuel
        match ← peek fuel with
        | .lineEnd => advance
        | .operator ";" => advance
        | _ => misplaced fuel false none
        pure words
      else do
        if isOperator ";" token then advance
        pure [allArguments]
    skipLineEnds fuel
    return .each line name words (← readBody fuel)

/-- Reads words up to what is none. -/
def readWords : Nat → Reader (List Word)
  | 0 => return []
  | fuel + 1 => do
    match ← peek fuel with
    | .word pieces _ =>
      advance
      return pieces :: (← readWords fuel)
    | _ => return []

/-- Reads a selection behind its first word. -/
def readSelection : Nat → Nat → Reader Command
  | 0, _ => return .nothing
  | fuel + 1, line => do
    let subject : Word ← match ← peek fuel with
      | .word pieces _ => pure pieces
      | _ => do
        misplaced fuel false (some "word")
        pure []
    advance
    skipLineEnds fuel
    readReserved fuel "in"
    return .selection line subject (← readCases fuel)

/-- Reads the cases of a selection, up to its last word. -/
def readCases : Nat → Reader (List (List Word × Command))
  | 0 => return []
  | fuel + 1 => do
    skipLineEnds fuel
    if reserved? (← peek fuel) = some "esac" then
      advance
      return []
    else
      if isOperator "(" (← peek fuel) then advance
      let patterns ← readPatterns fuel
      if isOperator ")" (← peek fuel) then advance
      else misplaced fuel false (some (quotedName ")"))
      let body ← readList fuel false true []
      skipLineEnds fuel
      let token ← peek fuel
      if reserved? token = some "esac" then
        advance
        return [(patterns, body)]
      else
        if isOperator ";;" token then advance
        else misplaced fuel true (some (quotedName ";;"))
        return (patterns, body) :: (← readCases fuel)

/-- Reads patterns with signs between them. -/
def readPatterns : Nat → Reader (List Word)
  | 0 => return []
  | fuel + 1 => do
    let pattern : Word := match ← peek fuel with
      | .word pieces _ => pieces
      | _ => []
    advance
    if isOperator "|" (← peek fuel) then
      advance
      return pattern :: (← readPatterns fuel)
    else return [pattern]

end

/-- Enough for every nesting of what is left of a source. -/
def fuelFor (source : Source) : Nat :=
  let inserted := (source.aliases.map fun (_, value) => value.length + 1).foldl (· + ·) 0
  12 * source.rest.length * (inserted + 1) + 12 * inserted + 64

/-- Reads the next line with what belongs to it. There is none at the end of the text. -/
def readLine (source : Source) : Except ReadFault (Option Command × Source) :=
  let fuel := fuelFor source
  let read : Reader (Option Command) := do
    match ← peek fuel with
    | .textEnd => return none
    | _ => return some (← readList fuel true false [])
  read source

/-- The word that a text comes to when it stands between double quotes. -/
def readQuoted (text : String) (documents : Array Word) : Except ReadFault (Word × Source) :=
  let source := Source.ofText text documents
  readPieces (fuelFor source) (.document ['\n'] false false) source

end Reader
end Agentry.Host

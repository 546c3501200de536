/-!
# Commands of a shell

A command is made of words, and a word of pieces: text that is quoted or not, and what a dollar sign
or a pair of backquotes asks to be filled in, which may hold commands again. The text of a
here-document stands behind the line that asks for it, so a redirection knows it by its number.
-/
namespace Agentry.Host

/-- What stands for a parameter that is not set, or that is empty where a colon asks for that. -/
inductive FallbackUse where
  | instead
  | also
  | assigned
  | refused
  deriving DecidableEq, Repr

/-- How a file is opened. -/
inductive FileUse where
  | truncate
  /-- Truncates even what a careful shell would keep. -/
  | replace
  | append
  | input
  | both
  deriving DecidableEq, Repr

mutual

inductive Piece where
  | text (quoted : Bool) (body : List Char)
  /-- Quotes stood here: what they hold is there even if it is empty. -/
  | quotes
  | parameter (quoted : Bool) (name : String) (use : ParameterUse)
  /-- The output of a command. -/
  | output (quoted : Bool) (body : Command)
  /-- The value of an expression. -/
  | number (quoted : Bool) (expression : List Piece)

/-- What becomes of the value of a parameter. -/
inductive ParameterUse where
  | plain
  | length
  | fallback (colon : Bool) (use : FallbackUse) (word : List Piece)
  /-- What fits a pattern is taken off the front or the back. -/
  | trim (front longest : Bool) (pattern : List Piece)
  | malformed

inductive Redirection where
  | file (descriptor : Nat) (use : FileUse) (target : List Piece)
  /-- The descriptor becomes a copy of another, or is closed. -/
  | copy (descriptor : Nat) (source : List Piece)
  | document (descriptor index : Nat)

inductive Command where
  | simple (line : Nat) (assignments : List (String × List Piece)) (words : List (List Piece))
      (redirections : List Redirection)
  | sequence (commands : List Command)
  /-- The second part runs when the first one succeeds. -/
  | onSuccess (first second : Command)
  /-- The second part runs when the first one fails. -/
  | onFailure (first second : Command)
  | negated (body : Command)
  /-- Each command reads what the one before it writes. -/
  | pipe (commands : List Command)
  /-- Nobody waits for the body. -/
  | background (body : Command)
  /-- What happens to the shell in the body stays in it. -/
  | isolated (line : Nat) (body : Command) (redirections : List Redirection)
  | redirected (line : Nat) (body : Command) (redirections : List Redirection)
  | choice (condition yes : Command) (no : Option Command)
  /-- The body runs as long as the success of the condition is as wanted. -/
  | loop (wanted : Bool) (condition body : Command)
  /-- The body runs for each field of some words. -/
  | each (line : Nat) (name : String) (words : List (List Piece)) (body : Command)
  /-- The first body runs one of whose patterns the subject fits. -/
  | selection (line : Nat) (subject : List Piece) (cases : List (List (List Piece) × Command))
  | definition (name : String) (body : Command)

end

abbrev Word := List Piece

/-- Nothing to do. -/
def Command.nothing : Command := .sequence []

def Command.isNothing : Command → Bool
  | .sequence [] => true
  | _ => false

instance : Inhabited Command := ⟨.nothing⟩

/-- The text of a word that is all plain text. -/
def plainText? : Word → Option (List Char)
  | [] => some []
  | .text false body :: rest => (plainText? rest).map (body ++ ·)
  | _ => none

/-- A character put in front of a word. -/
def Word.cons (quoted : Bool) (c : Char) : Word → Word
  | .text q body :: rest =>
    if q = quoted then .text q (c :: body) :: rest else .text quoted [c] :: .text q body :: rest
  | word => .text quoted [c] :: word

end Agentry.Host

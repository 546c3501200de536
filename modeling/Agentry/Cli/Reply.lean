import Agentry.Error
import Agentry.Text.Search
/-!
# Replies

A command ends with an exit code and what it wrote to its two streams. An error that ends it is
shown with all that lies behind it, the causes numbered when there are several and every further
line of a cause set under its first.
-/
namespace Agentry.Cli

structure Reply where
  exitCode : Nat
  stdout : String
  stderr : String
  deriving DecidableEq, Repr

namespace Reply

def ok (stdout : String) : Reply := ⟨0, stdout, ""⟩

def failed (stdout : String) : Reply := ⟨1, stdout, ""⟩

end Reply

/-- An error with the messages that lie behind it, the nearest first. -/
structure Trouble where
  message : String
  causes : List String
  deriving DecidableEq, Repr

namespace Trouble

def plain (message : String) : Trouble := ⟨message, []⟩

/-- A message put in front of an error. -/
def within (message : String) (trouble : Trouble) : Trouble :=
  ⟨message, trouble.message :: trouble.causes⟩

def ofError (cause : AgentError) : Trouble := ⟨cause.message, cause.causeMessage?.toList⟩

/-- The messages in one line. -/
def line (trouble : Trouble) : String :=
  ": ".intercalate (trouble.message :: trouble.causes)

/-- A text whose lines after the first are set in. -/
def hanging (margin : String) (text : String) : String :=
  String.ofList (Text.replaceAll ['\n'] ('\n' :: margin.toList) text.toList)

def numbered : Nat → List String → String
  | _, [] => ""
  | n, cause :: rest =>
    let number := toString n
    let room := String.ofList (List.replicate (5 - number.length) ' ')
    "\n" ++ room ++ number ++ ": " ++ hanging "       " cause ++ numbered (n + 1) rest

def causeText : List String → String
  | [] => ""
  | [cause] => "\n\nCaused by:\n    " ++ hanging "    " cause
  | causes => "\n\nCaused by:" ++ numbered 0 causes

def text (trouble : Trouble) : String :=
  "Error: " ++ trouble.message ++ causeText trouble.causes ++ "\n"

def reply (trouble : Trouble) : Reply := ⟨1, "", trouble.text⟩

end Trouble
end Agentry.Cli

/-!
# Why a file operation fails

The causes that the file system has a number for are worded with it.
-/
namespace Agentry

inductive IoError where
  | notFound
  | permissionDenied
  | notADirectory
  | isADirectory
  | alreadyExists
  | nameTooLong
  | tooManyLinks
  | directoryNotEmpty
  | notAProgram
  | invalidUtf8
  | nulInPath
  | nulInArgument
  | other (message : String)
  deriving DecidableEq, Repr

def IoError.message : IoError → String
  | .notFound => "No such file or directory (os error 2)"
  | .permissionDenied => "Permission denied (os error 13)"
  | .notADirectory => "Not a directory (os error 20)"
  | .isADirectory => "Is a directory (os error 21)"
  | .alreadyExists => "File exists (os error 17)"
  | .nameTooLong => "File name too long (os error 36)"
  | .tooManyLinks => "Too many levels of symbolic links (os error 40)"
  | .directoryNotEmpty => "Directory not empty (os error 39)"
  | .notAProgram => "Exec format error (os error 8)"
  | .invalidUtf8 => "stream did not contain valid UTF-8"
  | .nulInPath => "file name contained an unexpected NUL byte"
  | .nulInArgument => "nul byte found in provided data"
  | .other message => message

end Agentry

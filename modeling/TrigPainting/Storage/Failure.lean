/-!
# Failures of storage

What can go wrong when files and directories are read and written, by cause.
A failure that the system reports carries its number.
-/

namespace TrigPainting.Storage

/-- Why a file or directory cannot be read or written. -/
inductive Failure where
  | notFound
  | alreadyExists
  | notDirectory
  | isDirectory
  | nameTooLong
  /-- A name holds the character that ends names. -/
  | nulInName
  /-- The bytes of a file are not text. -/
  | notText
  /-- Another cause, in the words of who tells it. -/
  | other (message : String)
deriving DecidableEq, Repr

/-- The wording of a failure. -/
def Failure.message : Failure → String
  | notFound => "No such file or directory (os error 2)"
  | alreadyExists => "File exists (os error 17)"
  | notDirectory => "Not a directory (os error 20)"
  | isDirectory => "Is a directory (os error 21)"
  | nameTooLong => "File name too long (os error 36)"
  | nulInName => "file name contained an unexpected NUL byte"
  | notText => "stream did not contain valid UTF-8"
  | other message => message

end TrigPainting.Storage

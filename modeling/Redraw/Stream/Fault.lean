/-!
# Faults of streams and files

What can go wrong outside: a file that cannot be opened, an end that comes too soon, or a stream
that breaks.
-/

namespace Redraw

/-- Why a stream or file cannot be read or written. -/
inductive IoFault where
  /-- There is no such file, or no directory to make it in. -/
  | notFound
  /-- A file was expected where there is a directory. -/
  | isDirectory
  /-- A directory was expected where there is a file. -/
  | notDirectory
  /-- A file or directory is there already. -/
  | alreadyExists
  /-- A path holds the character that no name can hold. -/
  | badName
  /-- A name or a path is too long. -/
  | nameTooLong
  /-- A sink takes no more bytes. -/
  | writeZero
  /-- Bytes are no text. -/
  | invalidData
  /-- A sink was closed from the other end. -/
  | brokenPipe
  /-- Reading or writing was interrupted. -/
  | interrupted
  /-- Anything else. -/
  | other
  deriving DecidableEq, Repr

namespace IoFault

/-- The wording of a fault. -/
def message : IoFault → String
  | notFound => "No such file or directory (os error 2)"
  | isDirectory => "Is a directory (os error 21)"
  | notDirectory => "Not a directory (os error 20)"
  | alreadyExists => "File exists (os error 17)"
  | badName => "file name contained an unexpected NUL byte"
  | nameTooLong => "File name too long (os error 36)"
  | writeZero => "failed to write whole buffer"
  | invalidData => "stream did not contain valid UTF-8"
  | brokenPipe => "sink closed"
  | interrupted => "interrupted"
  | other => "device lost"

end IoFault

end Redraw

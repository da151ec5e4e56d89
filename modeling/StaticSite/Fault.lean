import StaticSite.Text

/-!
# Faults of file operations

The reasons for which a file operation is refused, and their wording.
-/

namespace StaticSite

/-- Why a file operation was refused.  The last six are up to the system: nothing that stands on the
disk tells when they come. -/
inductive Fault where
  | notFound
  | alreadyExists
  | notDirectory
  | isDirectory
  | nameTooLong
  | tooManyLinks
  | directoryNotEmpty
  | invalidArgument
  | nulInName
  | notUtf8
  | permissionDenied
  | readOnlyDisk
  | noSpace
  | deviceError
  | noLocks
  | brokenPipe
  deriving DecidableEq, Repr

namespace Fault

/-- Goes on unless there is a fault. -/
def check : Option Fault → Except Fault Unit
  | none => .ok ()
  | some fault => .error fault

/-- The wording of the fault. -/
def message : Fault → Text
  | notFound => "No such file or directory (os error 2)".toList
  | alreadyExists => "File exists (os error 17)".toList
  | notDirectory => "Not a directory (os error 20)".toList
  | isDirectory => "Is a directory (os error 21)".toList
  | nameTooLong => "File name too long (os error 36)".toList
  | tooManyLinks => "Too many levels of symbolic links (os error 40)".toList
  | invalidArgument => "Invalid argument (os error 22)".toList
  | directoryNotEmpty => "Directory not empty (os error 39)".toList
  | nulInName => "file name contained an unexpected NUL byte".toList
  | notUtf8 => "stream did not contain valid UTF-8".toList
  | permissionDenied => "Permission denied (os error 13)".toList
  | readOnlyDisk => "Read-only file system (os error 30)".toList
  | noSpace => "No space left on device (os error 28)".toList
  | deviceError => "Input/output error (os error 5)".toList
  | noLocks => "No locks available (os error 37)".toList
  | brokenPipe => "Broken pipe (os error 32)".toList

end Fault

end StaticSite

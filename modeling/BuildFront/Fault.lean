/-!
How the operating system refuses a request, by the number and the words it has for it.
-/

namespace BuildFront

inductive OsError where
  | notPermitted
  | noEntry
  | argumentsTooLong
  | notExecutable
  | accessDenied
  | notDirectory
  | isDirectory
  | nameTooLong
  | tooManyLinks
  | fileExists
  | other (number : Nat) (words : String)
  deriving DecidableEq

namespace OsError

def number : OsError → Nat
  | .notPermitted => 1
  | .noEntry => 2
  | .argumentsTooLong => 7
  | .notExecutable => 8
  | .accessDenied => 13
  | .notDirectory => 20
  | .isDirectory => 21
  | .nameTooLong => 36
  | .fileExists => 17
  | .tooManyLinks => 40
  | .other number _ => number

def words : OsError → String
  | .notPermitted => "Operation not permitted"
  | .noEntry => "No such file or directory"
  | .argumentsTooLong => "Argument list too long"
  | .notExecutable => "Exec format error"
  | .accessDenied => "Permission denied"
  | .notDirectory => "Not a directory"
  | .isDirectory => "Is a directory"
  | .nameTooLong => "File name too long"
  | .tooManyLinks => "Too many levels of symbolic links"
  | .fileExists => "File exists"
  | .other _ words => words

def message (e : OsError) : String :=
  e.words ++ " (os error " ++ toString e.number ++ ")"

end OsError

/-- Why a file cannot be read as text. -/
inductive FileFault where
  | os (e : OsError)
  | nulInPath
  | notUtf8
  deriving DecidableEq

def FileFault.message : FileFault → String
  | .os e => e.message
  | .nulInPath => "file name contained an unexpected NUL byte"
  | .notUtf8 => "stream did not contain valid UTF-8"

end BuildFront

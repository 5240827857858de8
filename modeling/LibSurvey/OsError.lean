/-!
What an operating system answers when a file cannot be used.
-/

namespace LibSurvey

inductive OsError where
  | notFound
  | notExecutable
  | denied
  | exists
  | notDirectory
  | isDirectory
  | nameTooLong
  | tooManyLinks
deriving DecidableEq, Repr

namespace OsError

def description : OsError → String
  | .notFound => "No such file or directory"
  | .notExecutable => "Exec format error"
  | .denied => "Permission denied"
  | .exists => "File exists"
  | .notDirectory => "Not a directory"
  | .isDirectory => "Is a directory"
  | .nameTooLong => "File name too long"
  | .tooManyLinks => "Too many levels of symbolic links"

def code : OsError → Nat
  | .notFound => 2
  | .notExecutable => 8
  | .denied => 13
  | .exists => 17
  | .notDirectory => 20
  | .isDirectory => 21
  | .nameTooLong => 36
  | .tooManyLinks => 40

def message (error : OsError) : String :=
  s!"{error.description} (os error {error.code})"

end OsError
end LibSurvey

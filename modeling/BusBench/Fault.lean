namespace BusBench

/-- Why a file or a sink could not be used. -/
inductive Fault where
  | notFound
  | exists
  | notFolder
  | isFolder
  | nameTooLong
  | nulInName
  | notText
  | refused (reason : String)
  deriving DecidableEq, Repr

def Fault.message : Fault → String
  | .notFound => "No such file or directory (os error 2)"
  | .exists => "File exists (os error 17)"
  | .notFolder => "Not a directory (os error 20)"
  | .isFolder => "Is a directory (os error 21)"
  | .nameTooLong => "File name too long (os error 36)"
  | .nulInName => "file name contained an unexpected NUL byte"
  | .notText => "stream did not contain valid UTF-8"
  | .refused reason => reason

end BusBench

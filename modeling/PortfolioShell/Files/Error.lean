/-! # File errors

Why a file cannot be used. The message of an error gives the system's number for it, if it has one. -/

namespace PortfolioShell

inductive FileError where
  | notFound
  | alreadyExists
  | notADirectory
  | isADirectory
  | nameTooLong
  | nulInPath
  | notText
  | other (message : String)
  deriving DecidableEq, Repr

namespace FileError

def numbered (message : String) (number : Nat) : String :=
  message ++ " (os error " ++ toString number ++ ")"

def message : FileError → String
  | notFound => numbered "No such file or directory" 2
  | alreadyExists => numbered "File exists" 17
  | notADirectory => numbered "Not a directory" 20
  | isADirectory => numbered "Is a directory" 21
  | nameTooLong => numbered "File name too long" 36
  | nulInPath => "file name contained an unexpected NUL byte"
  | notText => "stream did not contain valid UTF-8"
  | other message => message

end FileError

end PortfolioShell

/-!
# File errors

Why an operation on files failed, and how that is reported. Most causes are
reported with the number that the operating system has for them.
-/

namespace StaticSite

inductive FileError where
  | missing
  | busy
  | alreadyExists
  | notDirectory
  | isDirectory
  | invalid
  | nameTooLong
  | notEmpty
  | tooManyLinks
  /-- A path holds the character with the code point zero. -/
  | nulInPath
  /-- The content of a file is not text. -/
  | notText
deriving DecidableEq, Repr

namespace FileError

def numbered (text : String) (number : Nat) : String :=
  text ++ " (os error " ++ number.repr ++ ")"

def message : FileError → String
  | .missing => numbered "No such file or directory" 2
  | .busy => numbered "Device or resource busy" 16
  | .alreadyExists => numbered "File exists" 17
  | .notDirectory => numbered "Not a directory" 20
  | .isDirectory => numbered "Is a directory" 21
  | .invalid => numbered "Invalid argument" 22
  | .nameTooLong => numbered "File name too long" 36
  | .notEmpty => numbered "Directory not empty" 39
  | .tooManyLinks => numbered "Too many levels of symbolic links" 40
  | .nulInPath => "file name contained an unexpected NUL byte"
  | .notText => "stream did not contain valid UTF-8"

end FileError

end StaticSite

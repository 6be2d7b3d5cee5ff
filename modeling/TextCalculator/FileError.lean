/-!
# Why a file cannot be used

The causes of a failed access to a file, with the message of each and the longer description that
goes to the log.
-/

namespace TextCalculator

/-- Why a file cannot be used. -/
inductive FileError where
  /-- There is nothing at the path. -/
  | notFound
  /-- The file may not be used in this way. -/
  | permissionDenied
  /-- The path goes through something that is not a directory. -/
  | notADirectory
  /-- There is a directory at the path. -/
  | isADirectory
  /-- The path or a name in it is too long. -/
  | nameTooLong
  /-- The path contains a zero byte. -/
  | zeroByte
  /-- The content is not text. -/
  | notText
  /-- Any other reason that the operating system gives. -/
  | other (code : Nat) (text : String)
deriving DecidableEq

namespace FileError

/-- The code by which the operating system knows a cause, if it is one of the system's. -/
def code? : FileError → Option Nat
  | notFound => some 2
  | permissionDenied => some 13
  | notADirectory => some 20
  | isADirectory => some 21
  | nameTooLong => some 36
  | zeroByte | notText => none
  | other code _ => some code

/-- What is wrong, in words. -/
def text : FileError → String
  | notFound => "No such file or directory"
  | permissionDenied => "Permission denied"
  | notADirectory => "Not a directory"
  | isADirectory => "Is a directory"
  | nameTooLong => "File name too long"
  | zeroByte => "file name contained an unexpected NUL byte"
  | notText => "stream did not contain valid UTF-8"
  | other _ text => text

/-- The name of the class that a cause belongs to. -/
def kind : FileError → String
  | notFound => "NotFound"
  | permissionDenied => "PermissionDenied"
  | notADirectory => "NotADirectory"
  | isADirectory => "IsADirectory"
  | nameTooLong => "InvalidFilename"
  | zeroByte => "InvalidInput"
  | notText => "InvalidData"
  | other .. => "Uncategorized"

/-- The message that is shown to the user. -/
def message (e : FileError) : String :=
  match e.code? with
  | some code => e.text ++ " (os error " ++ toString code ++ ")"
  | none => e.text

/-- The description that goes to the log. -/
def describe (e : FileError) : String :=
  let words := "kind: " ++ e.kind ++ ", message: \"" ++ e.text ++ "\" \x7d"
  match e.code? with
  | some code => "Os \x7b code: " ++ toString code ++ ", " ++ words
  | none => "Error \x7b " ++ words

end FileError

end TextCalculator

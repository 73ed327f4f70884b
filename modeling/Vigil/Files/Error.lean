import Vigil.Text.Number
/-! What can go wrong with a file, and how it is said. -/
namespace Vigil.Files

inductive FileError where
  | notFound | alreadyExists | notADirectory | isADirectory | permissionDenied | invalidData
  | invalidInput | nameTooLong | tooManyLinks | busy
  /-- What is to be executed is no program. -/
  | badFormat
deriving DecidableEq, Repr

namespace FileError

def kind : FileError → String
  | notFound => "NotFound"
  | alreadyExists => "AlreadyExists"
  | notADirectory => "NotADirectory"
  | isADirectory => "IsADirectory"
  | permissionDenied => "PermissionDenied"
  | invalidData => "InvalidData"
  | invalidInput => "InvalidInput"
  | nameTooLong => "InvalidFilename"
  | tooManyLinks => "FilesystemLoop"
  | busy => "ResourceBusy"
  | badFormat => "Uncategorized"

/-- The system's number. What is found out without the system has none. -/
def code? : FileError → Option Nat
  | notFound => some 2
  | badFormat => some 8
  | permissionDenied => some 13
  | busy => some 16
  | alreadyExists => some 17
  | notADirectory => some 20
  | isADirectory => some 21
  | nameTooLong => some 36
  | tooManyLinks => some 40
  | invalidData | invalidInput => none

def message : FileError → String
  | notFound => "No such file or directory"
  | permissionDenied => "Permission denied"
  | alreadyExists => "File exists"
  | notADirectory => "Not a directory"
  | isADirectory => "Is a directory"
  | invalidData => "stream did not contain valid UTF-8"
  | invalidInput => "nul byte found in provided data"
  | nameTooLong => "File name too long"
  | tooManyLinks => "Too many levels of symbolic links"
  | busy => "Device or resource busy"
  | badFormat => "Exec format error"

/-- The message, with the number behind it. -/
def text (e : FileError) : String :=
  e.message ++ e.code?.elim "" fun n => " (os error " ++ String.ofList (Text.decimal n) ++ ")"

end FileError

end Vigil.Files

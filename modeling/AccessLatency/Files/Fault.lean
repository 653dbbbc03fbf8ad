import AccessLatency.Text.Quoted

/-!
# Why a file cannot be read or written

A fault of the system has a number, a kind and a text; the others have a text only. A fault is
worded in two ways: as a message, and in full, as a value.
-/

set_option autoImplicit false

namespace AccessLatency

/-- Why a file cannot be read or written, or a program not be started. -/
inductive FileFault where
  | missing
  | notFolder
  | isFolder
  | nameTooLong
  | nulInPath
  | nulInArgument
  | argumentTooLong
  | notText
  deriving DecidableEq, Repr

namespace FileFault

/-- The number and the kind of a fault of the system. -/
def code? : FileFault → Option (Nat × String)
  | .missing => some (2, "NotFound")
  | .notFolder => some (20, "NotADirectory")
  | .isFolder => some (21, "IsADirectory")
  | .nameTooLong => some (36, "InvalidFilename")
  | .argumentTooLong => some (7, "ArgumentListTooLong")
  | .nulInPath => none
  | .nulInArgument => none
  | .notText => none

/-- The text of a fault. -/
def reason : FileFault → String
  | .missing => "No such file or directory"
  | .notFolder => "Not a directory"
  | .isFolder => "Is a directory"
  | .nameTooLong => "File name too long"
  | .nulInPath => "file name contained an unexpected NUL byte"
  | .nulInArgument => "nul byte found in provided data"
  | .argumentTooLong => "Argument list too long"
  | .notText => "stream did not contain valid UTF-8"

/-- The kind of a fault that is no fault of the system. -/
def plainKind : FileFault → String
  | .notText => "InvalidData"
  | _ => "InvalidInput"

/-- The message of a fault. -/
def message (fault : FileFault) : String :=
  match fault.code? with
  | some (code, _) => fault.reason ++ " (os error " ++ toString code ++ ")"
  | none => fault.reason

/-- A fault as a value in full. -/
def inFull (fault : FileFault) : String :=
  match fault.code? with
  | some (code, kind) =>
    "Os \x7b code: " ++ toString code ++ ", kind: " ++ kind ++ ", message: "
      ++ Text.quoted fault.reason.toList ++ " \x7d"
  | none =>
    "Error \x7b kind: " ++ fault.plainKind ++ ", message: " ++ Text.quoted fault.reason.toList
      ++ " \x7d"

end FileFault

end AccessLatency

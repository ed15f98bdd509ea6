import StyleMonitor.Decimal

/-!
Failures of calls to the operating system: the causes, their kinds and their texts.
-/

namespace StyleMonitor

/-- A cause for which the system refuses a call. -/
inductive Cause where
  | notFound
  | notExecutableFormat
  | permissionDenied
  | busy
  | alreadyExists
  | notADirectory
  | isADirectory
  | invalidArgument
  | nameTooLong
  | notEmpty
  | tooManyLinks
  deriving DecidableEq, Repr

namespace Cause

/-- The number by which the system reports a cause. -/
def number : Cause → Nat
  | notFound => 2
  | notExecutableFormat => 8
  | permissionDenied => 13
  | busy => 16
  | alreadyExists => 17
  | notADirectory => 20
  | isADirectory => 21
  | invalidArgument => 22
  | nameTooLong => 36
  | notEmpty => 39
  | tooManyLinks => 40

/-- The system's words for a cause. -/
def words : Cause → String
  | notFound => "No such file or directory"
  | notExecutableFormat => "Exec format error"
  | permissionDenied => "Permission denied"
  | busy => "Device or resource busy"
  | alreadyExists => "File exists"
  | notADirectory => "Not a directory"
  | isADirectory => "Is a directory"
  | invalidArgument => "Invalid argument"
  | nameTooLong => "File name too long"
  | notEmpty => "Directory not empty"
  | tooManyLinks => "Too many levels of symbolic links"

end Cause

/-- Kinds of failures, as far as callers tell them apart. -/
inductive FailureKind where
  | system (cause : Cause)
  | invalidInput
  | invalidData
  | timedOut
  | other
  deriving DecidableEq, Repr

/-- A failure of a call. -/
inductive Failure where
  /-- The system refused the call. -/
  | refused (cause : Cause)
  /-- A path holds a NUL, which no path of the system can. -/
  | nulInPath
  /-- Bytes were read as text and are not UTF-8. -/
  | notText
  /-- A failure that comes with a text of its own. -/
  | reported (kind : FailureKind) (text : String)
  deriving DecidableEq, Repr

namespace Failure

/-- The kind of a failure. -/
def kind : Failure → FailureKind
  | refused cause => .system cause
  | nulInPath => .invalidInput
  | notText => .invalidData
  | reported kind _ => kind

/-- The text of a failure. -/
def message : Failure → String
  | refused cause => cause.words ++ " (os error " ++ Decimal.text cause.number ++ ")"
  | nulInPath => "file name contained an unexpected NUL byte"
  | notText => "stream did not contain valid UTF-8"
  | reported _ text => text

/-- Whether a failure says that nothing is at a path. -/
def isNotFound (failure : Failure) : Bool :=
  failure.kind = .system .notFound

/-- Whether a failure says that time ran out. -/
def isTimeout (failure : Failure) : Bool :=
  failure.kind = .timedOut

end Failure

end StyleMonitor

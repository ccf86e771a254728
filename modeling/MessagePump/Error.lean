/-
This file names what can go wrong: an error of the system, known by its number, an error that
carries a text of its own, and the two ways in which a run of a pump can fail because of one.
-/

namespace MessagePump

/-! ### Errors of the system and of its callers -/

/-- The kinds of error that carry a text of their own. -/
inductive ErrorKind
  | notFound
  | permissionDenied
  | wouldBlock
  | interrupted
  | timedOut
  | invalidInput
  | alreadyExists
  | outOfMemory
  | other
  deriving DecidableEq

/-- A failed operation is explained by a text or by the number of a system error. -/
inductive IoError
  | custom (kind : ErrorKind) (text : String)
  | code (number : Nat)
  deriving DecidableEq

namespace IoError

/-- The operation is not permitted on this kind of file. -/
abbrev notPermitted : IoError := .code 1

/-- Nothing is registered under this key. -/
abbrev noEntry : IoError := .code 2

/-- The descriptor is not open, or not open for this direction. -/
abbrev badDescriptor : IoError := .code 9

/-- The operation would have to wait. -/
abbrev again : IoError := .code 11

/-- The key is registered already. -/
abbrev fileExists : IoError := .code 17

/-- An argument is outside the range that the system accepts. -/
abbrev invalidArgument : IoError := .code 22

/-- No further descriptor can be opened. -/
abbrev tooManyFiles : IoError := .code 24

/-- Nobody is left to read what is written. -/
abbrev brokenPipe : IoError := .code 32

/-- The descriptor is not a socket. -/
abbrev notSocket : IoError := .code 88

/-- The other end was closed before it had read everything. -/
abbrev connectionReset : IoError := .code 104

/-- The system's own wording for an error number. -/
def wording : Nat → String
  | 1 => "Operation not permitted"
  | 2 => "No such file or directory"
  | 4 => "Interrupted system call"
  | 9 => "Bad file descriptor"
  | 11 => "Resource temporarily unavailable"
  | 12 => "Cannot allocate memory"
  | 17 => "File exists"
  | 22 => "Invalid argument"
  | 23 => "Too many open files in system"
  | 24 => "Too many open files"
  | 32 => "Broken pipe"
  | 88 => "Socket operation on non-socket"
  | 104 => "Connection reset by peer"
  | number => "Unknown error " ++ toString number

/-- An error reads as its own text, or as the system's wording followed by the number. -/
def text : IoError → String
  | .custom _ text => text
  | .code number => wording number ++ " (os error " ++ toString number ++ ")"

end IoError

/-! ### How a run fails -/

/-- A run fails when its private context cannot be created or when a poll of it fails. -/
inductive RunError
  | createContext (cause : IoError)
  | poll (cause : IoError)
  deriving DecidableEq

namespace RunError

/-- The error behind the failure. -/
def cause : RunError → IoError
  | .createContext cause => cause
  | .poll cause => cause

/-- The failure says what was attempted and then why it did not work. -/
def message : RunError → String
  | .createContext cause => "failed to create reactor context: " ++ cause.text
  | .poll cause => "reactor poll failed: " ++ cause.text

end RunError

end MessagePump

/-
This file holds the journal of a scenario: one entry for each thing that was observed, in the
order in which it happened.
-/

import MessagePump.Context.Basic

namespace MessagePump

/-- The nesting level and the running flag of a pump at some moment. -/
structure Standing where
  level : Nat
  running : Bool
  deriving DecidableEq

/-- How many calls of each kind a run has made. -/
structure Tally where
  immediate : Nat := 0
  delayed : Nat := 0
  idle : Nat := 0
  deriving DecidableEq

/-- A deadline as it is reported: by its distance from the start if that is what was given, and
otherwise only as one that is near. -/
inductive ReportedDeadline
  | none
  | afterStart (millis : Int)
  | soon
  deriving DecidableEq

/-- A deadline that lies a whole number of milliseconds after the start was given so. -/
def ReportedDeadline.of : Option Instant → ReportedDeadline
  | .none => .none
  | .some deadline =>
    match deadline.millis? with
    | .none => .soon
    | .some millis => .afterStart millis

/-- What is observed. A standing is missing where the pump does not exist. -/
inductive Entry
  | new (pump : Nat) (name : String) (standing : Standing)
  | newFailed (pump : Nat) (error : RunError)
  | newPanicked (pump : Nat) (message : String)
  | panicked (message : String)
  | ended
  | create (pump : Nat) (standing : Option Standing) (context : Nat)
  | createFailed (pump : Nat) (standing : Option Standing)
  | nameSignal (pump : Nat) (context : Nat)
  | signal (pump : Nat) (signal : Nat)
  | signalDropped (pump : Nat) (signal : Nat)
  | poll (pump : Nat) (standing : Option Standing) (context : Nat) (timeout : Option Duration)
  | continuation (pump : Nat) (standing : Option Standing)
  | destroy (pump : Nat) (standing : Option Standing) (context : Nat)
  | immediate (pump : Nat) (standing : Option Standing)
  | delayed (pump : Nat) (standing : Option Standing) (deadline : Option Instant)
  | idle (pump : Nat) (standing : Option Standing)
  | noPump (pump : Nat)
  | noContext
  | noWatching (pump : Nat)
  | noToken (label : String)
  | noDeadline
  | noWaker
  | runSkipped (pump : Nat)
  | runFinished (pump : Nat) (standing : Option Standing) (calls : Tally)
  | runFailed (pump : Nat) (standing : Option Standing) (error : RunError) (calls : Tally)
  | runPanicked (pump : Nat) (standing : Option Standing) (message : String) (calls : Tally)
  | state (pump : Nat) (standing : Option Standing) (deadline : Option Instant) (context : Nat)
      (name : String) (watches : Option Nat)
  | hook (label : String) (number : Nat)
  | hookDropped (label : String)
  | hookCleared (was : Bool)
  | capacity (capacity : Nat)
  | dropRefused
  | pumpDropped (pump : Nat)
  | polled (context : Nat) (result : Except IoError Unit)
  | watched (label : String) (result : Except IoError Token)
  | rewatched (label : String) (result : Except IoError Unit)
  | unwatched (label : String) (result : Except IoError Unit)
  | interest (label : String) (interest : Option Interest)
  | count (context : Nat) (watches : Nat)
  | callback (label : String) (number : Nat) (readiness : Readiness)
  | callbackDropped (label : String)
  | note (text : String)
  | waker (text : Option String)
  | written (descriptor : String) (result : Except IoError Nat)
  | read (descriptor : String) (result : Except IoError Nat)
  | closed (descriptor : String) (result : Except IoError Unit)
  | shut (descriptor : String) (result : Except IoError Unit)
  | diagnostic (diagnostic : Diagnostic)

end MessagePump

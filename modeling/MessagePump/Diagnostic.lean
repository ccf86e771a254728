/-
This file lists what a pump and its contexts say about themselves while they work. Each remark
has a level, a message and fields; a run is moreover enclosed in a span of its own.
-/

import MessagePump.Error

namespace MessagePump

/-- How much a remark matters. -/
inductive Severity
  | trace
  | debug
  | warn
  deriving DecidableEq

/-- The value of a field of a remark. -/
inductive FieldValue
  | number (value : Nat)
  | flag (value : Bool)
  | text (value : String)
  deriving DecidableEq

/-- What a pump, a context or a wake signal remarks on. -/
inductive Remark
  | pumpCreated (name : String)
  | pumpDestroyed (name : String)
  | quitRequested (level : Nat)
  | runStarted
  | runFinished (ok : Bool)
  | enteredNested (level : Nat)
  | leftNested (level : Nat)
  | deadlinePassed
  | blocking
  | notifyingContinuation
  | runningContinuation
  | contextCreated
  | contextDestroyed (watches : Nat)
  | cycleCompleted (events : Nat)
  | watchRegistered (token : Nat)
  | watchRemoved (token : Nat)
  | wakeSent
  | wakeFailed (cause : IoError)
  deriving DecidableEq

namespace Remark

/-- Changes of shape are for debugging, steps of a loop for tracing, a lost wake is a warning. -/
def severity : Remark → Severity
  | .pumpCreated _ | .pumpDestroyed _ | .quitRequested _ | .runStarted | .runFinished _
  | .enteredNested _ | .leftNested _ | .contextCreated | .contextDestroyed _ => .debug
  | .deadlinePassed | .blocking | .notifyingContinuation | .runningContinuation
  | .cycleCompleted _ | .watchRegistered _ | .watchRemoved _ | .wakeSent => .trace
  | .wakeFailed _ => .warn

/-- The fixed text of a remark. -/
def message : Remark → String
  | .pumpCreated _ => "pump created"
  | .pumpDestroyed _ => "pump destroyed"
  | .quitRequested _ => "quit requested"
  | .runStarted => "run started"
  | .runFinished _ => "run finished"
  | .enteredNested _ => "entered nested reactor context"
  | .leftNested _ => "left nested reactor context"
  | .deadlinePassed => "delayed work deadline passed"
  | .blocking => "blocking on reactor"
  | .notifyingContinuation => "notifying reactor continuation"
  | .runningContinuation => "running host continuation"
  | .contextCreated => "epoll context created"
  | .contextDestroyed _ => "epoll context destroyed"
  | .cycleCompleted _ => "epoll cycle completed"
  | .watchRegistered _ => "watch registered"
  | .watchRemoved _ => "watch removed"
  | .wakeSent => "wake signal sent"
  | .wakeFailed _ => "failed to send wake signal"

/-- What a remark is about, field by field. -/
def fields : Remark → List (String × FieldValue)
  | .pumpCreated name | .pumpDestroyed name => [("pump", .text name)]
  | .quitRequested level | .enteredNested level | .leftNested level => [("level", .number level)]
  | .runFinished ok => [("ok", .flag ok)]
  | .contextDestroyed watches => [("watches", .number watches)]
  | .cycleCompleted events => [("events", .number events)]
  | .watchRegistered token | .watchRemoved token => [("token", .number token)]
  | .wakeFailed cause => [("err", .text cause.text)]
  | .runStarted | .deadlinePassed | .blocking | .notifyingContinuation | .runningContinuation
  | .contextCreated | .wakeSent => []

end Remark

/-- What is written to the diagnostic output: remarks, and the span that encloses a run. -/
inductive Diagnostic
  | remark (remark : Remark)
  | spanMade (pump : String) (level : Nat)
  | spanEntered
  | spanLeft
  deriving DecidableEq

end MessagePump

/-
This file holds the state of a reactor context that watches descriptors.

The context owns a table of watches and a buffer for the events that one wait of the system
reports. Its operations are `watch`, `rewatch`, `unwatch` and `poll`. Callbacks, and the
destructors of what they own, are code of others: while they run they can start any of these
operations on the same context again. The context therefore keeps the operations that have not
ended, the innermost first; what each one waits for and how it moves on is in
`MessagePump.Context.Advance`. The table and the buffer are cells that are borrowed while an
operation works on them, and `tableGuarded` and `bufferGuarded` record that.
-/

import MessagePump.Clock
import MessagePump.Diagnostic
import MessagePump.Watch.Table

namespace MessagePump

/-- The wake signal is registered under a token that no watch gets. -/
abbrev wakeToken : Token := 0xffffffffffffffff

/-- One event of a wait: the token of a registration and the conditions that were met. -/
structure Event where
  token : Token
  flags : EventFlags
  deriving DecidableEq

/-! ### Operations in progress -/

/-- How an operation on a context ends. -/
inductive ContextResult
  | watched (token : Token)
  | changed
  | removed
  | polled
  | failed (cause : IoError)
  | panicked (message : String)
  deriving DecidableEq

/-- What follows once a callback has been destroyed. -/
inductive AfterDiscard
  | finish (result : ContextResult)
  | dispatch (ready : List (Token × Readiness))
  deriving DecidableEq

/-- Where an operation on a context stands.

`adding` and `recording` belong to `watch`, `finding` and `modifying` to `rewatch`, `removing` and
`deleting` to `unwatch`. A poll borrows the buffer from `preparing` to the end of `collecting`,
where it goes through the events that were reported, and then goes through the callbacks. -/
inductive ContextStage
  | adding (token : Token) (descriptor : Descriptor) (interest : Interest) (callback : CallbackId)
  | recording (token : Token) (descriptor : Descriptor) (interest : Interest)
      (callback : CallbackId)
  | finding (token : Token) (interest : Interest)
  | modifying (token : Token) (descriptor : Descriptor) (interest : Interest)
  | removing (token : Token)
  | deleting (watch : Watch)
  | preparing (timeout : Option Duration)
  | waiting (timeout : Option Duration)
  | collecting (events : List Event) (ready : List (Token × Readiness))
  | dispatching (ready : List (Token × Readiness))
  | calling (token : Token) (readiness : Readiness) (callback : CallbackId)
      (ready : List (Token × Readiness))
  | replacing (token : Token) (callback : CallbackId) (ready : List (Token × Readiness))
  | discarding (callback : CallbackId) (next : AfterDiscard)
  | ended (result : ContextResult)
  | conflicted
  | aborting
  deriving DecidableEq

/-- The state of a context. -/
structure Context where
  capacity : Nat
  table : WatchTable := []
  nextToken : Token := 0
  tableGuarded : Bool := false
  bufferGuarded : Bool := false
  tasks : List ContextStage := []
  deriving DecidableEq

/-! ### Refusals -/

/-- A watch has to ask for something. -/
def emptyInterest : IoError := .custom .invalidInput "interest cannot be empty"

/-- No watch is registered under the token. -/
def unknownToken : IoError := .custom .notFound "unknown watch token"

/-! ### The event buffer -/

/-- A reactor has room for this many events in the buffer of each context, unless told
otherwise. -/
abbrev defaultCapacity : Nat := 64

/-- The capacity of the event buffer after some settings of it: the last one counts, and `none`
stands for the refusal of a capacity of zero. -/
def eventCapacity? (settings : List Nat) : Option Nat :=
  settings.foldlM (fun _ setting => if setting = 0 then none else some setting) defaultCapacity

/-- The panic of a reactor that is told to have no room for events. -/
def noCapacity : String := "event_capacity must be > 0"

/-- An event takes this many bytes in the buffer. -/
abbrev eventSize : Nat := 12

/-- A buffer cannot have more bytes than this. -/
abbrev largestBuffer : Nat := 0x7fffffffffffffff

/-- Whether a buffer with room for so many events exceeds all bounds. -/
def overflowsBuffer (capacity : Nat) : Bool := decide (largestBuffer < capacity * eventSize)

/-- The argument of a wait cannot express a larger number of events. -/
abbrev largestCount : Nat := 2147483647

/-- The panic of a buffer that exceeds all bounds. -/
def bufferOverflow : String := "capacity overflow"

namespace Context

/-- The number of events that a wait may report: the capacity of the buffer, as far as the
argument of the wait can express it. -/
def maxEvents (context : Context) : Nat := min context.capacity largestCount

/-- The interest of the watch under a token. -/
def interest? (context : Context) (token : Token) : Option Interest :=
  (context.table.find? token).map Watch.interest

/-- The number of watches. -/
def watchCount (context : Context) : Nat := context.table.length

/-! ### Starting an operation -/

/-- Starts an operation inside those that are in progress. -/
def start (context : Context) (stage : ContextStage) : Context :=
  { context with tasks := stage :: context.tasks }

/-- Watches a descriptor under the next token. -/
def watch (context : Context) (descriptor : Descriptor) (interest : Interest)
    (callback : CallbackId) : Context :=
  context.start <| if interest.isEmpty then .discarding callback (.finish (.failed emptyInterest))
    else .adding context.nextToken descriptor interest callback

/-- Changes the interest of a watch. -/
def rewatch (context : Context) (token : Token) (interest : Interest) : Context :=
  context.start <| if interest.isEmpty then .ended (.failed emptyInterest)
    else .finding token interest

/-- Removes a watch. -/
def unwatch (context : Context) (token : Token) : Context := context.start (.removing token)

/-- Waits once for events and runs the callbacks of the watches that are ready. -/
def poll (context : Context) (timeout : Option Duration) : Context :=
  context.start (.preparing timeout)

end Context

end MessagePump

/-
This file holds the state of a message pump.

A pump belongs to one thread. A run of it calls its delegate for immediate, delayed and idle work
in turn and waits on a reactor context when there is none. While a run is calling out, further
runs of the same pump can be started inside it; each of those works on a private context. The
pump therefore keeps a stack of invocations, the innermost first, and each invocation knows at
which point of `run` it stands. Everything the pump does not do itself (delegate, reactor, wake
signals, the clock) is asked for by a request, and what happens between the request and its
answer is up to others; see `MessagePump.Pump.Advance`.

A context is known by its number, and its wake signal by the same number. Contexts are shared:
the pump owns the current one, a nested run the one it has put aside, a run in its loop the one
it polls, and code outside the pump can own any that it was given.
-/

import MessagePump.Clock
import MessagePump.Diagnostic

namespace MessagePump

/-- Contexts are numbered in the order of their creation. -/
abbrev ContextId := Nat

/-! ### Invocations -/

/-- How an invocation of `run` ends. -/
inductive Outcome
  | finished
  | failed (error : RunError)
  | panicked (message : String)
  deriving DecidableEq

/-- A panic unwinds the invocation; any other outcome returns from it. -/
def Outcome.isPanic : Outcome → Bool
  | .panicked _ => true
  | _ => false

/-- Where an invocation stands in its loop. Delayed work is lent a copy of the recorded
deadline and returns it, changed or not; `worked` says whether this pass has done work. -/
inductive LoopPoint
  | immediate
  | delayed (worked : Bool) (lent : Option Instant)
  | notifying
  | idle
  | timing (deadline : Instant)
  | polling (timeout : Option Duration)
  deriving DecidableEq

/-- At all points but the look at the clock, code outside the pump is running. -/
def LoopPoint.callsOut : LoopPoint → Bool
  | .timing _ => false
  | _ => true

/-- What remains to be done once a context has been destroyed on the way out of a run. -/
inductive AfterDestruction
  | leaveNested
  | forwardWake
  deriving DecidableEq

/-- Where an invocation stands in `run`.

A nested invocation starts at `creating`: it has a context made, binds the signal of that context
to the wake slot, and exchanges the current context for it. At `starting` every invocation takes
hold of the current context, which it polls until its loop has ended. At `releasing` it gives
that hold up. A nested invocation then binds the signal it had put aside, exchanges the current
context for the one it had put aside, which leaves the nested context to be destroyed, and
forwards a wake to the context that is current again. -/
inductive Stage
  | creating
  | naming (made : ContextId)
  | binding (made : ContextId)
  | guarding (made : ContextId) (savedSignal : ContextId)
  | exchanging (made : ContextId) (savedSignal : ContextId)
  | starting
  | working (held : ContextId) (point : LoopPoint)
  | releasing (held : ContextId) (outcome : Outcome)
  | destroying (gone : ContextId) (outcome : Outcome) (next : AfterDestruction)
  | unbinding (outcome : Outcome)
  | regarding (outcome : Outcome)
  | restoring (outcome : Outcome)
  | forwarding (outcome : Outcome)
  | closing (outcome : Outcome)
  | conflicted
  | aborting
  deriving DecidableEq

/-- The context and the signal that a nested invocation has put aside. -/
structure Enclosing where
  context : ContextId
  signal : ContextId
  deriving DecidableEq

/-- One call of `run` that has not returned. -/
structure Invocation where
  depth : Nat
  stage : Stage
  enclosing : Option Enclosing := none
  deriving DecidableEq

/-- Whether a stage itself owns a context: one that has just been made, or the one it polls. -/
def Stage.holds (context : ContextId) : Stage → Bool
  | .naming made | .binding made | .guarding made _ | .exchanging made _ => made == context
  | .working held _ | .releasing held _ => held == context
  | _ => false

/-- Whether an invocation owns a context. -/
def Invocation.holds (context : ContextId) (invocation : Invocation) : Bool :=
  invocation.stage.holds context ||
    invocation.enclosing.any fun enclosing => enclosing.context == context

/-! ### The pump -/

/-- The state of a message pump. `guarded` tells whether the cell of the current context is
borrowed for an exchange; `live` lists the contexts that have been created and not destroyed;
`outside` lists, once for each owner, the contexts that code outside the pump owns. The wake slot
is shared by the pump (`slotShared`) and its wakers, and outlives the pump (`alive`) with them. -/
structure Pump where
  name : String
  running : Bool := true
  level : Nat := 0
  deadline : Option Instant := none
  current : ContextId := 0
  guarded : Bool := false
  slot : ContextId := 0
  live : List ContextId := [0]
  created : Nat := 1
  outside : List ContextId := []
  wakers : Nat := 0
  alive : Bool := true
  slotShared : Bool := true
  stack : List Invocation := []
  deriving DecidableEq

namespace Pump

/-- Whether somebody owns a context. -/
def isOwned (pump : Pump) (context : ContextId) : Bool :=
  (pump.alive && pump.current == context) || pump.stack.any (Invocation.holds context) ||
    pump.outside.contains context

/-- Whether the wake slot still exists and is bound to a signal. -/
def isBound (pump : Pump) (signal : ContextId) : Bool :=
  pump.slot == signal && (pump.slotShared || pump.wakers != 0)

/-! ### What any thread can do at any time -/

/-- Asks for another look for work: this is the signal that is sent, the one bound to the wake slot
at that moment. Nothing in the pump changes. -/
def scheduleWork (pump : Pump) : ContextId := pump.slot

/-- A waker is one more owner of the wake slot. -/
def addWaker (pump : Pump) : Pump := { pump with wakers := pump.wakers + 1 }

/-- A waker is given up. -/
def dropWaker (pump : Pump) : Pump := { pump with wakers := pump.wakers - 1 }

/-! ### What the thread of the pump can do at any time -/

/-- Ends the innermost invocation as soon as it looks at the flag. -/
def quit (pump : Pump) : Pump × List Diagnostic :=
  ({ pump with running := false }, [.remark (.quitRequested pump.level)])

/-- Records a deadline for delayed work, in place of the one that was recorded. -/
def scheduleDelayed (pump : Pump) (deadline : Instant) : Pump :=
  { pump with deadline := some deadline }

/-- The current context, unless its cell is borrowed. -/
def context? (pump : Pump) : Option ContextId :=
  if pump.guarded then none else some pump.current

/-- Code outside the pump becomes an owner of a context. -/
def acquire (pump : Pump) (context : ContextId) : Pump :=
  { pump with outside := context :: pump.outside }

/-- Code outside the pump gives up a context. The second component tells whether it was the last
owner, so that the context has to be destroyed. -/
def release (pump : Pump) (context : ContextId) : Pump × Bool :=
  let released := { pump with outside := pump.outside.erase context }
  (released, pump.outside.contains context && !released.isOwned context)

/-- A context has been destroyed. -/
def bury (pump : Pump) (context : ContextId) : Pump :=
  { pump with live := pump.live.erase context }

/-! ### The end of a pump -/

/-- The pump is gone for its callers and gives up the current context. The second component tells
whether it was the last owner. -/
def retire (pump : Pump) : Pump × Bool :=
  let retired := { pump with alive := false }
  (retired, !retired.isOwned pump.current)

/-- The pump gives up its share of the wake slot. -/
def leaveSlot (pump : Pump) : Pump := { pump with slotShared := false }

/-- The signal that the end of the wake slot leaves without an owner: nobody shares the slot any
more and the context of the signal is gone. -/
def orphanedSignal? (pump : Pump) : Option ContextId :=
  if pump.isBound pump.slot || pump.live.contains pump.slot then none else some pump.slot

end Pump

end MessagePump

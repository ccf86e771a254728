/-
This file holds the world in which a scenario is performed: its pumps with their reactors, the
system, the clock, the names that scripts have given, and the journal. It also holds what a
performance does to the world without running any script.

A performance can be interrupted: by a panic, which is unwound and may be caught, by two panics
at once, which nothing survives, or because it has gone on for longer than was allowed.
-/

import MessagePump.Continuation
import MessagePump.Kernel.Respond
import MessagePump.Pump.Advance
import MessagePump.Scenario.Journal
import MessagePump.Scenario.Script

namespace MessagePump

/-! ### The world -/

/-- What a callback or a hook does each time it runs, and how often it has run. -/
structure Part where
  label : String
  pump : PumpId
  calls : List (List Action)
  tail : List Action := []
  times : Nat := 0

/-- The actions of the run with a number, counted from one. -/
def Part.actions (part : Part) (number : Nat) : List Action :=
  part.calls.getD (number - 1) part.tail

/-- The reactor of a pump. A recorder answers at once; otherwise the reactor has a capacity for
the contexts it creates. -/
inductive Reactor
  | recorder
  | poller (capacity : Nat)
  deriving DecidableEq

/-- A context of a pump with the poller it works on, or one of a recorder. -/
inductive ContextState
  | recorded
  | polled (context : Context) (poller : PollerId)
  deriving DecidableEq

/-- A pump with its reactor. The pump is missing until it has been created; it stays here when it
is gone, because its contexts and its wake slot can outlive it. -/
structure Station where
  reactor : Reactor
  scripts : Scripts
  pump : Option Pump := none
  hook : HookSlot := {}
  contexts : List ContextState := []

/-- The state of a performance. The journal is kept with the latest entry first. The clock reads
a little past a whole millisecond, because some time has always passed since the start; it moves
by whole milliseconds, so a deadline that is counted from now never is a whole number of
milliseconds after the start. -/
structure World where
  delegates : List (String × Delegate) := []
  tracing : Bool := false
  journal : List Entry := []
  now : Instant := 1
  kernel : Kernel := {}
  stations : List Station := []
  descriptors : List (String × Descriptor) := []
  wakers : List (String × PumpId) := []
  holds : List (String × PumpId × ContextId) := []
  labels : List (String × Token) := []
  callbacks : List Part := []
  hooks : List Part := []
  pending : List (Instant × PumpId) := []

/-- Why a performance is interrupted. -/
inductive Interruption
  | panic (message : String)
  | aborted
  | exhausted
  deriving DecidableEq

/-- A part of a performance. What has happened in the world remains when it is interrupted. -/
abbrev Play := ExceptT Interruption (StateM World)

/-- A name is given a new meaning. -/
def rename {Meaning : Type} (names : List (String × Meaning)) (name : String)
    (meaning : Meaning) : List (String × Meaning) :=
  (names.filter fun entry => entry.1 != name) ++ [(name, meaning)]

/-- A name is forgotten. -/
def forget {Meaning : Type} (names : List (String × Meaning)) (name : String) :
    List (String × Meaning) :=
  names.filter fun entry => entry.1 != name

/-- Entries in the order of their names. -/
def byName {Meaning : Type} (names : List (String × Meaning)) : List (String × Meaning) :=
  names.mergeSort fun first second => decide (first.1 ≤ second.1)

namespace Play

/-! ### Panics -/

/-- A panic starts to unwind. -/
def panic {Result : Type} (message : String) : Play Result := throw (.panic message)

/-- Runs a part of a performance and catches its panic. -/
def attempt {Result : Type} (part : Play Result) : Play (Except String Result) :=
  tryCatch (do return .ok (← part)) fun
    | .panic message => return .error message
    | other => throw other

/-- Goes on after a caught panic by unwinding further. -/
def resume {Result : Type} : Except String Result → Play Result
  | .ok result => return result
  | .error message => panic message

/-- Runs a part of a performance, and then, also while a panic unwinds, a second one. A panic of
the second during a panic of the first is not survived. -/
def thenAlways {Result : Type} (part : Play Result) (last : Play Unit) : Play Result := do
  match ← attempt part with
  | .ok result => last; return result
  | .error message =>
    match ← attempt last with
    | .ok () => panic message
    | .error _ => throw .aborted

/-! ### Recording -/

/-- Writes an entry into the journal. -/
def record (entry : Entry) : Play Unit :=
  modify fun world => { world with journal := entry :: world.journal }

/-- Writes diagnostics into the journal, if the scenario asks for them. -/
def say (said : List Diagnostic) : Play Unit := do
  if (← get).tracing then said.forM fun diagnostic => record (.diagnostic diagnostic)

/-! ### Stations -/

/-- The station of a pump. -/
def station? (pump : PumpId) : Play (Option Station) := return (← get).stations[pump]?

/-- Changes the station of a pump. -/
def changeStation (pump : PumpId) (change : Station → Station) : Play Unit :=
  modify fun world => { world with stations := world.stations.modify pump change }

/-- A pump, or what is left of it. -/
def remains? (pump : PumpId) : Play (Option Pump) := return (← station? pump).bind Station.pump

/-- A pump that exists. -/
def pump? (pump : PumpId) : Play (Option Pump) := return (← remains? pump).filter Pump.alive

/-- Changes a pump, or what is left of it. -/
def changePump (pump : PumpId) (change : Pump → Pump) : Play Unit :=
  changeStation pump fun station => { station with pump := station.pump.map change }

/-- The nesting level and the running flag of a pump that exists. -/
def standing (pump : PumpId) : Play (Option Standing) := do
  return (← pump? pump).map fun pump => { level := pump.level, running := pump.running }

/-- A context of a pump. -/
def context? (pump : PumpId) (context : ContextId) : Play (Option ContextState) :=
  return (← station? pump).bind fun station => station.contexts[context]?

/-- Replaces the state of a context that polls. -/
def setContext (pump : PumpId) (id : ContextId) (context : Context) (poller : PollerId) :
    Play Unit :=
  changeStation pump fun station =>
    { station with contexts := station.contexts.set id (.polled context poller) }

/-- Changes the system. -/
def changeKernel (change : Kernel → Kernel) : Play Unit :=
  modify fun world => { world with kernel := change world.kernel }

/-- Lets the system do something with a descriptor and tells its result. -/
def transfer {Result : Type} (name : String)
    (operation : Kernel → Descriptor → Result × Kernel) : Play Result := do
  let world ← get
  let descriptor := (world.descriptors.lookup name).getD (-1)
  let (result, kernel) := operation world.kernel descriptor
  set { world with kernel }
  return result

/-! ### Wake signals -/

/-- Sends a wake signal. What it says is heard on the thread of the pump only. -/
def sendSignal (pump : PumpId) (signal : ContextId) (heard : Bool) : Play Unit := do
  record (.signal pump signal)
  match ← context? pump signal with
  | some (.polled _ poller) =>
    let world ← get
    let (kernel, failure) := world.kernel.signal poller
    set { world with kernel }
    if heard then
      say [.remark (match failure with | none => .wakeSent | some cause => .wakeFailed cause)]
  | _ => return

/-- The last owner of a wake signal is gone. -/
def dropSignal (pump : PumpId) (signal : ContextId) : Play Unit := do
  record (.signalDropped pump signal)
  match ← context? pump signal with
  | some (.polled _ _) => changeKernel Kernel.giveBack
  | _ => return

/-- Lets an owner of the wake slot of a pump give it up. With the last one the signal that is
bound there loses an owner. -/
def shrinkSlot (pump : PumpId) (giveUp : Pump → Pump) : Play Unit := do
  let before ← remains? pump
  changePump pump giveUp
  let after ← remains? pump
  match before.bind Pump.orphanedSignal?, after.bind Pump.orphanedSignal? with
  | none, some signal => dropSignal pump signal
  | _, _ => return

/-- Schedules work through the wake slot of a pump. -/
def wake (pump : PumpId) (heard : Bool) : Play Unit := do
  match ← remains? pump with
  | some state => sendSignal pump state.scheduleWork heard
  | none => return

/-! ### Waiting -/

/-- The wake-up of another thread that comes first, among those that come no later than a bound;
the rest stay pending. -/
def earliest? (pending : List (Instant × PumpId)) (bound : Option Instant) :
    Option ((Instant × PumpId) × List (Instant × PumpId)) :=
  let first := pending.foldl
    (fun best candidate => match best with
      | none => some candidate
      | some best => if candidate.1 < best.1 then some candidate else some best) none
  match first with
  | none => none
  | some first =>
    if bound.all fun bound => decide (first.1 ≤ bound) then
      some (first, pending.erase first)
    else none

/-- Another thread wakes a pump and gives up its waker. -/
def wakeLater (pump : PumpId) : Play Unit := do
  wake pump false
  shrinkSlot pump Pump.dropWaker

/-- Lets time pass up to a moment. Other threads wake their pumps when their time has come;
`turns` bounds the number of those wake-ups. -/
def passUntil (moment : Instant) : Nat → Play Unit
  | 0 => modify fun world => { world with now := moment }
  | turns + 1 => do
    match earliest? (← get).pending (some moment) with
    | some ((_, pump), pending) =>
      modify fun world => { world with pending }
      wakeLater pump
      passUntil moment turns
    | none => modify fun world => { world with now := moment }

/-- A wait for longer than this many milliseconds is interrupted. -/
abbrev patience : Int := 1000

/-- Waits on a poller as long as nothing is there: other threads may send what ends the wait, a
wait with a bound ends there, and any other is interrupted. `turns` bounds the number of wake-ups
of other threads. -/
def waitUntil (poller : PollerId) (request : ContextRequest) (bound : Option Instant) :
    Nat → Play ContextAnswer
  | 0 => return .interrupted
  | turns + 1 => do
    let world ← get
    match world.kernel.respond? poller request with
    | some (.events [], kernel) =>
      set { world with kernel }
      match earliest? world.pending bound with
      | some ((moment, pump), pending) =>
        modify fun world => { world with now := max world.now moment, pending }
        wakeLater pump
        waitUntil poller request bound turns
      | none =>
        match bound with
        | some now =>
          modify fun world => { world with now }
          return .events []
        | none => return .interrupted
    | some (answer, kernel) =>
      set { world with kernel }
      return answer
    | none => throw .aborted

/-- Waits on a poller for so many milliseconds; a negative number waits for ever. A wait that takes
long is interrupted. -/
def wait (poller : PollerId) (request : ContextRequest) (millis : Int) : Play ContextAnswer := do
  let world ← get
  let bound := if 0 ≤ millis ∧ millis ≤ patience then some (world.now + .ofMillis millis) else none
  waitUntil poller request bound (world.pending.length + 1)

/-! ### Moving on -/

/-- Answers the request of a pump. -/
def answerPump (pump : PumpId) (answer : Answer) : Play Unit := do
  match (← remains? pump).bind fun state => state.advance? answer with
  | some (state, said) =>
    changePump pump fun _ => state
    say said
  | none => throw .aborted

/-- Answers the request of a context. -/
def answerContext (pump : PumpId) (id : ContextId) (answer : ContextAnswer) : Play Unit := do
  match ← context? pump id with
  | some (.polled context poller) =>
    match context.advance? answer with
    | some (context, said) =>
      setContext pump id context poller
      say said
    | none => throw .aborted
  | _ => throw .aborted

/-- Answers the request of the hook slot of a pump. -/
def answerHook (pump : PumpId) (answer : HookAnswer) : Play Unit := do
  match (← station? pump).bind fun station => station.hook.advance? answer with
  | some (hook, said) =>
    changeStation pump fun station => { station with hook }
    say said
  | none => throw .aborted

/-- A callback or hook runs once more: its part, with the number of this run. -/
def nextRun (parts : List Part) (id : Nat) : Option (Part × List Part) :=
  (parts[id]?).map fun part =>
    let part := { part with times := part.times + 1 }
    (part, parts.set id part)

end Play

end MessagePump

/-
This file holds the steps of a run. The innermost invocation of a pump is always waiting for one
thing: `Pump.request?` tells for what, and `Pump.advance?` takes the answer and moves the
invocation on. Nothing else moves an invocation, and an answer that does not fit the request is
refused.

A step that only rearranges the pump's own state answers to the request `proceed`, so that other
threads, which can signal the wake slot between any two steps, are never overlooked.
-/

import MessagePump.Pump.Basic

namespace MessagePump

/-! ### Requests and answers -/

/-- What an invocation is waiting for. -/
inductive Request
  | proceed
  | createContext
  | nameSignal (context : ContextId)
  | immediate
  | delayed (deadline : Option Instant)
  | idle
  | notify
  | clock
  | poll (context : ContextId) (timeout : Option Duration)
  | destroy (context : ContextId)
  | signal (signal : ContextId)
  | leave (outcome : Outcome)
  | conflict
  | abort
  deriving DecidableEq

/-- How a request can be answered. -/
inductive Answer
  | done
  | created
  | failed (cause : IoError)
  | panicked (message : String)
  | worked (did : Bool)
  | workedUntil (did : Bool) (deadline : Option Instant)
  | time (now : Instant)
  deriving DecidableEq

/-- The request of a stage, given the signal that is bound to the wake slot. -/
def Stage.request (slot : ContextId) : Stage → Request
  | .creating => .createContext
  | .naming made => .nameSignal made
  | .binding _ | .guarding _ _ | .exchanging _ _ | .starting => .proceed
  | .working _ .immediate => .immediate
  | .working _ (.delayed _ lent) => .delayed lent
  | .working _ .notifying => .notify
  | .working _ .idle => .idle
  | .working _ (.timing _) => .clock
  | .working held (.polling timeout) => .poll held timeout
  | .releasing _ _ | .unbinding _ | .regarding _ | .restoring _ => .proceed
  | .destroying gone _ _ => .destroy gone
  | .forwarding _ => .signal slot
  | .closing outcome => .leave outcome
  | .conflicted => .conflict
  | .aborting => .abort

namespace Pump

/-- What the innermost invocation is waiting for. -/
def request? (pump : Pump) : Option Request :=
  pump.stack.head?.map fun invocation => invocation.stage.request pump.slot

/-! ### Entering -/

/-- Starts a run, unless a quit is still in force. A first run starts its loop at once, a nested
one first has a context created. -/
def enter? (pump : Pump) : Option (Pump × List Diagnostic) :=
  if pump.running then
    let depth := pump.level + 1
    let stage := if depth > 1 then Stage.creating else Stage.starting
    some ({ pump with level := depth, stack := { depth, stage } :: pump.stack },
      [.spanMade pump.name depth, .spanEntered])
  else none

/-- The panic of a run that starts while a quit is in force. -/
def staleQuit : String := "quit must have been called outside of run"

/-! ### Moving on -/

/-- The innermost invocation goes to another stage. -/
def goto (pump : Pump) (stage : Stage) : Pump :=
  match pump.stack with
  | [] => pump
  | top :: rest => { pump with stack := { top with stage } :: rest }

/-- The loop has ended: the hold on the polled context is given up next. -/
def endLoop (pump : Pump) (held : ContextId) (outcome : Outcome) : Pump × List Diagnostic :=
  (pump.goto (.releasing held outcome),
    match outcome with
    | .finished => [.remark (.runFinished true)]
    | .failed _ => [.remark (.runFinished false)]
    | .panicked _ => [])

/-- The pass through the three kinds of work is over without a quit. If it did work, the
continuation is notified, otherwise `next` follows. -/
def afterWork (pump : Pump) (held : ContextId) (worked : Bool) (next : LoopPoint) :
    Pump × List Diagnostic :=
  if worked then (pump.goto (.working held .notifying), [.remark .notifyingContinuation])
  else (pump.goto (.working held next), [])

/-- Waiting on the polled context comes next. -/
def block (pump : Pump) (held : ContextId) (timeout : Option Duration) : Pump × List Diagnostic :=
  (pump.goto (.working held (.polling timeout)), [.remark .blocking])

/-- The last step of a run is next. -/
def close (pump : Pump) (outcome : Outcome) : Pump × List Diagnostic :=
  (pump.goto (.closing outcome), [.spanLeft])

/-- The hold on the polled context has been given up: a nested invocation restores what it had
put aside, any other is at its end. -/
def leaveNested (pump : Pump) (enclosing : Option Enclosing) (outcome : Outcome) :
    Pump × List Diagnostic :=
  match enclosing with
  | some _ => (pump.goto (.unbinding outcome), [])
  | none => pump.close outcome

/-- A step of the loop, at a point that has been answered. After each call of the delegate the
quit flag is looked at. What delayed work returns as its deadline is recorded. -/
def advanceLoop? (pump : Pump) (held : ContextId) :
    LoopPoint → Answer → Option (Pump × List Diagnostic)
  | .immediate, .worked did =>
    some <| if pump.running then (pump.goto (.working held (.delayed did pump.deadline)), [])
      else pump.endLoop held .finished
  | .delayed before _, .workedUntil did deadline =>
    let recorded := { pump with deadline }
    some <| if pump.running then recorded.afterWork held (before || did) .idle
      else recorded.endLoop held .finished
  | .notifying, .done => some (pump.goto (.working held .immediate), [])
  | .idle, .worked did =>
    some <| if pump.running then
        if did then pump.afterWork held did .immediate
        else match pump.deadline with
          | none => pump.block held none
          | some deadline => (pump.goto (.working held (.timing deadline)), [])
      else pump.endLoop held .finished
  | .timing deadline, .time now =>
    some <| if remaining deadline now = 0 then
        ({ pump with deadline := none }.goto (.working held .immediate),
          [.remark .deadlinePassed])
      else pump.block held (some (remaining deadline now))
  | .polling _, .done => some (pump.goto (.working held .immediate), [])
  | .polling _, .failed cause => some (pump.endLoop held (.failed (.poll cause)))
  | point, .panicked message =>
    if point.callsOut then some (pump.endLoop held (.panicked message)) else none
  | _, _ => none

/-- A step of the invocation `top`, above the invocations `rest`, at a stage that has been
answered. A context whose signal cannot be named is destroyed before anything has been bound. A
panic of a destruction that was itself reached by unwinding aborts everything; any other panic
of a destruction skips the wake that would be forwarded. -/
def advanceTop? (pump : Pump) (top : Invocation) (rest : List Invocation) :
    Stage → Answer → Option (Pump × List Diagnostic)
  | .creating, .created =>
    some ({ pump with live := pump.live ++ [pump.created], created := pump.created + 1 }.goto
      (.naming pump.created), [])
  | .creating, .failed cause => some (pump.close (.failed (.createContext cause)))
  | .creating, .panicked message => some (pump.close (.panicked message))
  | .naming made, .done => some (pump.goto (.binding made), [])
  | .naming made, .panicked message =>
    some (pump.goto (.destroying made (.panicked message) .leaveNested), [])
  | .binding made, .done =>
    some ({ pump with slot := made }.goto (.guarding made pump.slot), [])
  | .guarding made savedSignal, .done =>
    some <| if pump.guarded then (pump.goto .conflicted, [])
      else ({ pump with guarded := true }.goto (.exchanging made savedSignal), [])
  | .exchanging made savedSignal, .done =>
    some ({ pump with
        current := made
        guarded := false
        stack := { top with
          stage := .starting
          enclosing := some { context := pump.current, signal := savedSignal } } :: rest },
      [.remark (.enteredNested pump.level)])
  | .starting, .done =>
    some <| match pump.context? with
      | none => (pump.goto .conflicted, [])
      | some context => (pump.goto (.working context .immediate), [.remark .runStarted])
  | .working held point, answer => pump.advanceLoop? held point answer
  | .releasing held outcome, .done =>
    let (left, said) := pump.leaveNested top.enclosing outcome
    some <| if left.isOwned held then (left, said)
      else (pump.goto (.destroying held outcome .leaveNested), [])
  | .destroying gone outcome .leaveNested, .done =>
    some ((pump.bury gone).leaveNested top.enclosing outcome)
  | .destroying gone outcome .forwardWake, .done =>
    some ((pump.bury gone).goto (.forwarding outcome), [])
  | .destroying gone outcome next, .panicked message =>
    some <| if outcome.isPanic then ((pump.bury gone).goto .aborting, [])
      else match next with
        | .leaveNested => (pump.bury gone).leaveNested top.enclosing (.panicked message)
        | .forwardWake => (pump.bury gone).close (.panicked message)
  | .unbinding outcome, .done =>
    top.enclosing.map fun enclosing =>
      ({ pump with slot := enclosing.signal }.goto (.regarding outcome), [])
  | .regarding outcome, .done =>
    some <| if pump.guarded then (pump.goto .conflicted, [])
      else ({ pump with guarded := true }.goto (.restoring outcome), [])
  | .restoring outcome, .done =>
    top.enclosing.map fun enclosing =>
      let restored := { pump with
        current := enclosing.context
        guarded := false
        stack := { top with stage := .forwarding outcome, enclosing := none } :: rest }
      if restored.isOwned pump.current then (restored, [])
      else (restored.goto (.destroying pump.current outcome .forwardWake), [])
  | .forwarding outcome, .done =>
    let (closed, said) := pump.close outcome
    some (closed, .remark (.leftNested pump.level) :: said)
  | .closing _, .done =>
    some ({ pump with running := true, level := top.depth - 1, stack := rest }, [])
  | _, _ => none

/-- A step of the innermost invocation. -/
def advance? (pump : Pump) (answer : Answer) : Option (Pump × List Diagnostic) :=
  match pump.stack with
  | [] => none
  | top :: rest => pump.advanceTop? top rest top.stage answer

end Pump

end MessagePump

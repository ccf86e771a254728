/-
This file holds the steps of the operations on a context. The innermost operation is always
waiting for one thing, told by `Context.request?`: an answer of the system, the end of a callback
or of the destruction of one, or simply its next step. `Context.advance?` takes the answer and
moves the operation on; an answer that does not fit is refused.
-/

import MessagePump.Context.Basic

namespace MessagePump

/-! ### Requests and answers -/

/-- What an operation on a context is waiting for. -/
inductive ContextRequest
  | proceed
  | add (descriptor : Descriptor) (flags : EventFlags) (token : Token)
  | modify (descriptor : Descriptor) (flags : EventFlags) (token : Token)
  | delete (descriptor : Descriptor)
  | wait (maxEvents : Nat) (millis : Int)
  | drain
  | call (callback : CallbackId) (readiness : Readiness)
  | discard (callback : CallbackId)
  | finish (result : ContextResult)
  | conflict
  | abort
  deriving DecidableEq

/-- How the request of an operation can be answered. -/
inductive ContextAnswer
  | done
  | failed (cause : IoError)
  | panicked (message : String)
  | interrupted
  | events (reported : List Event)
  deriving DecidableEq

namespace Context

/-- The request of a stage. -/
def stageRequest (context : Context) : ContextStage → ContextRequest
  | .adding token descriptor interest _ => .add descriptor interest.flags token
  | .modifying token descriptor interest => .modify descriptor interest.flags token
  | .deleting watch => .delete watch.descriptor
  | .waiting timeout => .wait context.maxEvents (waitMillis timeout)
  | .collecting (event :: _) _ => if event.token = wakeToken then .drain else .proceed
  | .recording .. | .finding .. | .removing _ | .preparing _ | .collecting [] _ | .dispatching _
  | .replacing .. => .proceed
  | .calling _ readiness callback _ => .call callback readiness
  | .discarding callback _ => .discard callback
  | .ended result => .finish result
  | .conflicted => .conflict
  | .aborting => .abort

/-- What the innermost operation is waiting for. -/
def request? (context : Context) : Option ContextRequest :=
  context.tasks.head?.map context.stageRequest

/-! ### Moving on -/

/-- The innermost operation, above the operations `rest`, goes to another stage. -/
def goto (context : Context) (rest : List ContextStage) (stage : ContextStage) : Context :=
  { context with tasks := stage :: rest }

/-- A step of `watch`. The token is used up and the watch enters the table only after the system
has accepted the descriptor; otherwise the callback is destroyed. -/
def advanceWatch? (context : Context) (rest : List ContextStage) :
    ContextStage → ContextAnswer → Option (Context × List Diagnostic)
  | .adding token descriptor interest callback, .done =>
    some ({ context with nextToken := token + 1 }.goto rest
      (.recording token descriptor interest callback), [])
  | .adding _ _ _ callback, .failed cause =>
    some (context.goto rest (.discarding callback (.finish (.failed cause))), [])
  | .recording token descriptor interest callback, .done =>
    some <| if context.tableGuarded then (context.goto rest .conflicted, [])
      else
        let table := context.table.insert token { descriptor, interest, callback := some callback }
        ({ context with table }.goto rest (.ended (.watched token)),
          [.remark (.watchRegistered token)])
  | _, _ => none

/-- A step of `rewatch`. The table stays borrowed while the system is asked, and the interest is
recorded only after the system has accepted it. -/
def advanceRewatch? (context : Context) (rest : List ContextStage) :
    ContextStage → ContextAnswer → Option (Context × List Diagnostic)
  | .finding token interest, .done =>
    some <| if context.tableGuarded then (context.goto rest .conflicted, [])
      else match context.table.find? token with
        | none => (context.goto rest (.ended (.failed unknownToken)), [])
        | some watch => ({ context with tableGuarded := true }.goto rest
            (.modifying token watch.descriptor interest), [])
  | .modifying token _ interest, .done =>
    let table := context.table.update token fun watch => { watch with interest }
    some ({ context with table, tableGuarded := false }.goto rest (.ended .changed), [])
  | .modifying _ _ _, .failed cause =>
    some ({ context with tableGuarded := false }.goto rest (.ended (.failed cause)), [])
  | _, _ => none

/-- A step of `unwatch`. The watch leaves the table first, then the system is asked to forget the
descriptor, and last the callback is destroyed, whatever the system said. A callback that is
running at that time is not in the table and not destroyed here. -/
def advanceUnwatch? (context : Context) (rest : List ContextStage) :
    ContextStage → ContextAnswer → Option (Context × List Diagnostic)
  | .removing token, .done =>
    some <| if context.tableGuarded then (context.goto rest .conflicted, [])
      else match context.table.find? token with
        | none => (context.goto rest (.ended (.failed unknownToken)), [])
        | some watch => ({ context with table := context.table.remove token }.goto rest
            (.deleting watch), [.remark (.watchRemoved token)])
  | .deleting watch, .done => some (context.goto rest (afterDelete watch .removed), [])
  | .deleting watch, .failed cause =>
    some (context.goto rest (afterDelete watch (.failed cause)), [])
  | _, _ => none
where
  /-- The callback of a removed watch is destroyed, if the watch holds it. -/
  afterDelete (watch : Watch) (result : ContextResult) : ContextStage :=
    match watch.callback with
    | some callback => .discarding callback (.finish result)
    | none => .ended result

/-- A step of a poll, up to the last callback. An interrupted wait is a cycle without events. The
wake signal is drained where its event stands, and if that fails nothing of the cycle is
dispatched. A callback is taken out of the table while it runs; it is put back if its watch is
still there, and destroyed otherwise. When a callback panics, the rest of the cycle is given
up. -/
def advancePoll? (context : Context) (rest : List ContextStage) :
    ContextStage → ContextAnswer → Option (Context × List Diagnostic)
  | .preparing timeout, .done =>
    some <| if context.bufferGuarded then (context.goto rest .conflicted, [])
      else ({ context with bufferGuarded := true }.goto rest (.waiting timeout), [])
  | .waiting _, .interrupted =>
    some (context.goto rest (.collecting [] []), [.remark (.cycleCompleted 0)])
  | .waiting _, .events reported =>
    some (context.goto rest (.collecting reported []),
      [.remark (.cycleCompleted reported.length)])
  | .waiting _, .failed cause =>
    some ({ context with bufferGuarded := false }.goto rest (.ended (.failed cause)), [])
  | .collecting [] ready, .done =>
    some ({ context with bufferGuarded := false }.goto rest (.dispatching ready), [])
  | .collecting (event :: events) ready, .done =>
    some <| if event.token = wakeToken then (context.goto rest (.collecting events ready), [])
      else (context.goto rest
        (.collecting events (ready ++ [(event.token, .ofFlags event.flags)])), [])
  | .collecting (event :: _) _, .failed cause =>
    if event.token = wakeToken then
      some ({ context with bufferGuarded := false }.goto rest (.ended (.failed cause)), [])
    else none
  | .dispatching [], .done => some (context.goto rest (.ended .polled), [])
  | .dispatching ((token, readiness) :: ready), .done =>
    some <| if context.tableGuarded then (context.goto rest .conflicted, [])
      else match (context.table.find? token).bind Watch.callback with
        | none => (context.goto rest (.dispatching ready), [])
        | some callback =>
          let table := context.table.update token fun watch => { watch with callback := none }
          ({ context with table }.goto rest (.calling token readiness callback ready), [])
  | .calling token _ callback ready, .done =>
    some (context.goto rest (.replacing token callback ready), [])
  | .calling _ _ callback _, .panicked message =>
    some (context.goto rest (.discarding callback (.finish (.panicked message))), [])
  | .replacing token callback ready, .done =>
    some <| if context.tableGuarded then (context.goto rest .conflicted, [])
      else match context.table.find? token with
        | none => (context.goto rest (.discarding callback (.dispatch ready)), [])
        | some _ =>
          let table := context.table.update token fun watch =>
            { watch with callback := some callback }
          ({ context with table }.goto rest (.dispatching ready), [])
  | _, _ => none

/-- A step of an operation, above the operations `rest`, at a stage that has been answered. A
destructor that panics while a panic is unwinding aborts everything. -/
def advanceTop? (context : Context) (rest : List ContextStage) (stage : ContextStage)
    (answer : ContextAnswer) : Option (Context × List Diagnostic) :=
  match stage, answer with
  | .adding .., _ | .recording .., _ => context.advanceWatch? rest stage answer
  | .finding .., _ | .modifying .., _ => context.advanceRewatch? rest stage answer
  | .removing _, _ | .deleting _, _ => context.advanceUnwatch? rest stage answer
  | .preparing _, _ | .waiting _, _ | .collecting .., _ | .dispatching _, _ | .calling .., _
  | .replacing .., _ => context.advancePoll? rest stage answer
  | .discarding _ (.finish result), .done => some (context.goto rest (.ended result), [])
  | .discarding _ (.dispatch ready), .done => some (context.goto rest (.dispatching ready), [])
  | .discarding _ (.finish (.panicked _)), .panicked _ =>
    some (context.goto rest .aborting, [])
  | .discarding _ _, .panicked message =>
    some (context.goto rest (.ended (.panicked message)), [])
  | .ended _, .done => some ({ context with tasks := rest }, [])
  | _, _ => none

/-- A step of the innermost operation. -/
def advance? (context : Context) (answer : ContextAnswer) : Option (Context × List Diagnostic) :=
  match context.tasks with
  | [] => none
  | stage :: rest => context.advanceTop? rest stage answer

end Context

end MessagePump

/-
This file holds the answers of the system to the requests of a context: registering, changing and
forgetting a descriptor, waiting, and draining the wake signal. `Kernel.respond?` is the only
place where a context and the system meet.
-/

import MessagePump.Context.Advance
import MessagePump.Kernel.Basic

namespace MessagePump

namespace Kernel

/-- A wait accepts room for at most so many events. -/
abbrev mostEvents : Nat := 178956970

/-! ### The interest list -/

/-- What is needed to work on the registration of a descriptor: an open file that can be polled,
and a poller that its descriptor leads to. -/
def pollable (kernel : Kernel) (id : PollerId) (descriptor : Descriptor) :
    Except IoError FileId :=
  match kernel.fileOf? descriptor with
  | none => .error .badDescriptor
  | some file =>
    if kernel.file file = .null then .error .notPermitted
    else if (kernel.poller id).usable then .ok file
    else .error .invalidArgument

/-- Changes the interest list of a poller. -/
def withList (kernel : Kernel) (id : PollerId) (list : InterestList) : Kernel :=
  kernel.setPoller id { kernel.poller id with list }

/-- Registers a descriptor. A file can be registered once through each of its descriptors. -/
def register (kernel : Kernel) (id : PollerId) (descriptor : Descriptor) (wanted : EventFlags)
    (token : Token) : Except IoError Kernel := do
  let file ← kernel.pollable id descriptor
  let list := (kernel.poller id).list
  let source := Source.file descriptor file
  if (list.registration? source).isSome then .error .fileExists
  else .ok (kernel.withList id (list.add (kernel.conditions id) { source, wanted, token }))

/-- Changes what is wanted of a registered descriptor. -/
def reregister (kernel : Kernel) (id : PollerId) (descriptor : Descriptor) (wanted : EventFlags)
    (token : Token) : Except IoError Kernel := do
  let file ← kernel.pollable id descriptor
  let list := (kernel.poller id).list
  let source := Source.file descriptor file
  if (list.registration? source).isSome then
    .ok (kernel.withList id (list.modify (kernel.conditions id) { source, wanted, token }))
  else .error .noEntry

/-- Forgets a registered descriptor. -/
def deregister (kernel : Kernel) (id : PollerId) (descriptor : Descriptor) :
    Except IoError Kernel := do
  let file ← kernel.pollable id descriptor
  let list := (kernel.poller id).list
  let source := Source.file descriptor file
  if (list.registration? source).isSome then
    .ok (kernel.withList id (list.forget fun other => other == source))
  else .error .noEntry

/-! ### Waiting and draining -/

/-- The events that are there now. -/
def wait (kernel : Kernel) (id : PollerId) (room : Nat) :
    Except IoError (List Event × Kernel) :=
  let poller := kernel.poller id
  if room = 0 || decide (mostEvents < room) || !poller.usable then .error .invalidArgument
  else
    let (events, list) := poller.list.wait (kernel.conditions id) room
    .ok (events, kernel.withList id list)

/-- Empties the counter of the wake signal. -/
def drainWake (kernel : Kernel) (id : PollerId) : Except IoError Kernel :=
  let poller := kernel.poller id
  poller.wake.drain.map fun (_, wake) => kernel.setPoller id { poller with wake }

/-! ### Answers -/

/-- A change of the system, or the error that kept it from happening. -/
def answerChange (kernel : Kernel) : Except IoError Kernel → ContextAnswer × Kernel
  | .ok after => (.done, after)
  | .error cause => (.failed cause, kernel)

/-- The answer of the system to a request of a context. A wait is answered by what is there now;
whether to go on waiting when nothing is there is for the caller to decide. -/
def respond? (kernel : Kernel) (id : PollerId) : ContextRequest → Option (ContextAnswer × Kernel)
  | .add descriptor flags token =>
    some (kernel.answerChange (kernel.register id descriptor flags token))
  | .modify descriptor flags token =>
    some (kernel.answerChange (kernel.reregister id descriptor flags token))
  | .delete descriptor => some (kernel.answerChange (kernel.deregister id descriptor))
  | .drain => some (kernel.answerChange (kernel.drainWake id))
  | .wait room _ =>
    some <| match kernel.wait id room with
      | .ok (events, after) => (.events events, after)
      | .error cause => (.failed cause, kernel)
  | _ => none

end Kernel

end MessagePump

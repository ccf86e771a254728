/-
This file holds what a program does with its descriptors besides polling them: reading, writing,
shutting a direction, closing. Each operation says what it transfers or why it fails, and tells
the registrations of the files that it affects.
-/

import MessagePump.Kernel.Basic

namespace MessagePump

/-- The directions in which a socket is shut. -/
inductive ShutHow
  | receive
  | send
  | both
  deriving DecidableEq

/-- Whether receiving is shut. -/
def ShutHow.receives : ShutHow → Bool
  | .send => false
  | _ => true

/-- Whether sending is shut. -/
def ShutHow.sends : ShutHow → Bool
  | .receive => false
  | _ => true

namespace Kernel

/-- The event counter takes and gives eight bytes at a time. -/
abbrev counterBytes : Nat := 8

/-! ### Writing -/

/-- Puts bytes where they wait to be read from a file, and says how many found room; it would
block if none did. -/
def deliver (kernel : Kernel) (id : FileId) (put : Backlog → Backlog) :
    Except IoError Nat × Kernel :=
  let before := kernel.backlog id
  let after := put before
  match after.unread - before.unread with
  | 0 => (.error .again, kernel)
  | taken =>
    (.ok taken,
      (kernel.setFile id ((kernel.file id).withBacklog after)).announce id (some .onlyInput))

/-- Writes bytes to a descriptor. A socket that does not send, and a pipe that nobody reads, is
broken; a full one would block. -/
def write (kernel : Kernel) (descriptor : Descriptor) (bytes : Nat) :
    Except IoError Nat × Kernel :=
  match kernel.fileOf? descriptor with
  | none => (.error .badDescriptor, kernel)
  | some id =>
    match kernel.file id with
    | .socket state =>
      if state.sendShut then (.error .brokenPipe, kernel)
      else if bytes = 0 then (.ok 0, kernel)
      else match state.pending with
        | some cause => (.error cause, kernel.setFile id (.socket { state with pending := none }))
        | none => kernel.deliver state.peer fun backlog => backlog.putMessages bytes
    | .pipeWriter reader =>
      if bytes = 0 then (.ok 0, kernel)
      else if (kernel.file reader).isClosed then (.error .brokenPipe, kernel)
      else kernel.deliver reader fun backlog => backlog.putPages bytes
    | .counter count =>
      if bytes < counterBytes then (.error .invalidArgument, kernel)
      else (.ok counterBytes,
        (kernel.setFile id (.counter (count + 1))).announce id (some .onlyInput))
    | .null => (.ok bytes, kernel)
    | .pipeReader .. | .closed _ => (.error .badDescriptor, kernel)

/-- Writes pages to a descriptor, at most so many, until it fails. -/
def writePages (descriptor : Descriptor) : Nat → Kernel → Kernel
  | 0, kernel => kernel
  | most + 1, kernel =>
    match kernel.write descriptor Backlog.pageBytes with
    | (.ok _, after) => writePages descriptor most after
    | (.error _, after) => after

/-- Neither a pipe nor a socket takes so many pages. -/
abbrev fillPages : Nat := 64

/-- Writes to a descriptor until it would block. -/
def fill (kernel : Kernel) (descriptor : Descriptor) : Kernel :=
  kernel.writePages descriptor fillPages

/-! ### Reading -/

/-- Takes bytes that wait to be read from a file. When segments go with them, and what is connected
to the file is ready for output now, it is told. -/
def collect (kernel : Kernel) (id writer : FileId) (taken : Nat) : Kernel :=
  let before := kernel.backlog id
  let after := before.take taken
  let kernel := kernel.setFile id ((kernel.file id).withBacklog after)
  if after.segments.length < before.segments.length && (kernel.fileConditions writer).output then
    kernel.announce writer (some .onlyOutput)
  else kernel

/-- Reads at most so many bytes from a descriptor. What waits comes first, then an error that
waits to be reported, then the end of the stream; otherwise it would block. -/
def read (kernel : Kernel) (descriptor : Descriptor) (limit : Nat) :
    Except IoError Nat × Kernel :=
  match kernel.fileOf? descriptor with
  | none => (.error .badDescriptor, kernel)
  | some id =>
    match kernel.file id with
    | .socket state =>
      let taken := min limit state.waiting.unread
      if limit = 0 then (.ok 0, kernel)
      else if taken ≠ 0 then (.ok taken, kernel.collect id state.peer taken)
      else match state.pending with
        | some cause => (.error cause, kernel.setFile id (.socket { state with pending := none }))
        | none => (if state.receiveShut then .ok 0 else .error .again, kernel)
    | .pipeReader writer waiting =>
      let taken := min limit waiting.unread
      if limit = 0 then (.ok 0, kernel)
      else if taken ≠ 0 then (.ok taken, kernel.collect id writer taken)
      else (if (kernel.file writer).isClosed then .ok 0 else .error .again, kernel)
    | .counter count =>
      if limit < counterBytes then (.error .invalidArgument, kernel)
      else if count = 0 then (.error .again, kernel)
      else (.ok counterBytes, (kernel.setFile id (.counter 0)).announce id (some .onlyOutput))
    | .null => (.ok 0, kernel)
    | .pipeWriter _ | .closed _ => (.error .badDescriptor, kernel)

/-- The number of bytes that wait to be read from a descriptor. -/
def unread (kernel : Kernel) (descriptor : Descriptor) : Nat :=
  match kernel.fileOf? descriptor with
  | some id => (kernel.backlog id).unread
  | none => 0

/-- Reads from a descriptor until nothing is left or it fails. -/
def drain (kernel : Kernel) (descriptor : Descriptor) : Kernel :=
  match kernel.read descriptor (max counterBytes (kernel.unread descriptor)) with
  | (.ok (_ + 1), after) => (after.read descriptor counterBytes).2
  | (_, after) => after

/-! ### Shutting and closing -/

/-- Shuts directions of a socket. The other end sees the opposite ones shut, and both are told. -/
def shutdown (kernel : Kernel) (descriptor : Descriptor) (how : ShutHow) :
    Except IoError Unit × Kernel :=
  match kernel.fileOf? descriptor with
  | none => (.error .badDescriptor, kernel)
  | some id =>
    match kernel.file id with
    | .socket state =>
      let own := { state with
        receiveShut := state.receiveShut || how.receives
        sendShut := state.sendShut || how.sends }
      let kernel := (kernel.setFile id (.socket own)).announce id none
      match kernel.file state.peer with
      | .socket other =>
        let other := { other with
          receiveShut := other.receiveShut || how.sends
          sendShut := other.sendShut || how.receives }
        (.ok (), (kernel.setFile state.peer (.socket other)).announce state.peer none)
      | _ => (.ok (), kernel)
    | _ => (.error .notSocket, kernel)

/-- What is left in a file that is closed: a pipe keeps its bytes, those of a socket are thrown
away. -/
def leftOf : File → Backlog
  | .pipeReader _ waiting => waiting
  | _ => {}

/-- A file is closed with its last descriptor: its registrations are forgotten, and what is
connected to it sees that it is gone. A socket whose other end is closed with bytes unread has an
error to report. -/
def closeFile (kernel : Kernel) (id : FileId) : Kernel :=
  let file := kernel.file id
  let forgotten := { kernel with
    files := kernel.files.set id (.closed (leftOf file))
    pollers := kernel.pollers.map fun poller =>
      { poller with list := poller.list.forget (Source.isFile id) } }
  match file with
  | .socket state =>
    match forgotten.file state.peer with
    | .socket other =>
      let other := { other with
        receiveShut := true
        sendShut := true
        pending := if state.waiting.unread = 0 then other.pending else some .connectionReset }
      (forgotten.setFile state.peer (.socket other)).announce state.peer none
    | _ => forgotten
  | .pipeReader writer _ => forgotten.announce writer none
  | .pipeWriter reader => forgotten.announce reader none
  | _ => forgotten

/-- Closes a descriptor. -/
def close (kernel : Kernel) (descriptor : Descriptor) : Except IoError Unit × Kernel :=
  match kernel.fileOf? descriptor with
  | none => (.error .badDescriptor, kernel)
  | some id =>
    let kernel := { kernel with
      descriptors := kernel.descriptors.filter fun entry => entry.1 != descriptor }
    (.ok (), if kernel.descriptors.any fun entry => entry.2 == id then kernel
      else kernel.closeFile id)

end Kernel

end MessagePump

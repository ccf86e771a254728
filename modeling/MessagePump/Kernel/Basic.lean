/-
This file holds the part of the system that a pump deals with: open files, the descriptors that
lead to them, and pollers with their interest lists and wake signals.

A file is open as long as a descriptor leads to it. What happens to a file is told to the
registrations of it in all pollers; some events concern every registration, others only those
that want one of certain conditions.
-/

import MessagePump.Kernel.Backlog
import MessagePump.Kernel.InterestList
import MessagePump.WakeSource

namespace MessagePump

/-! ### Files -/

/-- One end of a stream socket pair: the bytes that wait here to be read, the directions that are
shut, and an error that waits to be reported. -/
structure SocketEnd where
  peer : FileId
  waiting : Backlog := {}
  receiveShut : Bool := false
  sendShut : Bool := false
  pending : Option IoError := none
  deriving DecidableEq

/-- An open file, or what is left of a closed one: a pipe keeps what nobody has read while its
other end is open. -/
inductive File
  | socket (state : SocketEnd)
  | pipeReader (writer : FileId) (waiting : Backlog)
  | pipeWriter (reader : FileId)
  | counter (count : Nat)
  | null
  | closed (left : Backlog)
  deriving DecidableEq

namespace File

/-- Whether a file has been closed. -/
def isClosed : File → Bool
  | .closed _ => true
  | _ => false

/-- The bytes that wait to be read from a file, or that were left in a closed one. -/
def backlog : File → Backlog
  | .socket state => state.waiting
  | .pipeReader _ waiting => waiting
  | .closed left => left
  | .pipeWriter _ | .counter _ | .null => {}

/-- The file with other bytes waiting in it. -/
def withBacklog (file : File) (waiting : Backlog) : File :=
  match file with
  | .socket state => .socket { state with waiting }
  | .pipeReader writer _ => .pipeReader writer waiting
  | other => other

end File

/-! ### Pollers and the system -/

/-- A poller: its interest list, its wake signal, and whether its descriptor still leads to it. -/
structure Poller where
  list : InterestList := {}
  wake : WakeSource := {}
  usable : Bool := true
  deriving DecidableEq

/-- Pollers are numbered in the order of their creation. -/
abbrev PollerId := Nat

/-- The state of the system. `spare` is the number of descriptors that can still be opened, if
there is a limit. A descriptor number is never used again. -/
structure Kernel where
  files : List File := []
  descriptors : List (Descriptor × FileId) := []
  nextDescriptor : Descriptor := 0
  spare : Option Nat := none
  pollers : List Poller := []
  deriving DecidableEq

namespace Kernel

/-- The file with a number. -/
def file (kernel : Kernel) (id : FileId) : File := kernel.files.getD id (.closed {})

/-- The file that a descriptor leads to. -/
def fileOf? (kernel : Kernel) (descriptor : Descriptor) : Option FileId :=
  kernel.descriptors.lookup descriptor

/-- Replaces the state of a file. -/
def setFile (kernel : Kernel) (id : FileId) (file : File) : Kernel :=
  { kernel with files := kernel.files.set id file }

/-- The bytes that wait to be read from a file. -/
def backlog (kernel : Kernel) (id : FileId) : Backlog := (kernel.file id).backlog

/-- The conditions that hold of a file. -/
def fileConditions (kernel : Kernel) (id : FileId) : EventFlags :=
  match kernel.file id with
  | .socket state =>
    { input := state.waiting.unread != 0 || state.receiveShut
      output := (kernel.backlog state.peer).hasQuarter
      error := state.pending.isSome
      hangup := state.receiveShut && state.sendShut
      peerHangup := state.receiveShut }
  | .pipeReader writer waiting =>
    { input := waiting.unread != 0, hangup := (kernel.file writer).isClosed }
  | .pipeWriter reader =>
    { output := (kernel.backlog reader).hasPage, error := (kernel.file reader).isClosed }
  | .counter count => { input := count != 0, output := true }
  | .null | .closed _ => .none

/-- The poller with a number. -/
def poller (kernel : Kernel) (id : PollerId) : Poller := kernel.pollers.getD id {}

/-- Replaces the state of a poller. -/
def setPoller (kernel : Kernel) (id : PollerId) (poller : Poller) : Kernel :=
  { kernel with pollers := kernel.pollers.set id poller }

/-- The conditions that hold of what a poller has registered. -/
def conditions (kernel : Kernel) (id : PollerId) : Source → EventFlags
  | .wake => { input := (kernel.poller id).wake.count != 0 }
  | .file _ file => kernel.fileConditions file

/-- Tells the registrations of a file that something has happened to it. With a key only those
that want one of its conditions are told. -/
def announce (kernel : Kernel) (file : FileId) (key : Option EventFlags) : Kernel :=
  { kernel with
    pollers := kernel.pollers.map fun poller =>
      { poller with
        list := poller.list.wakeUp fun registration =>
          registration.source.isFile file && key.all fun key => key.meets registration.wanted } }

/-! ### Opening -/

/-- Opens a file through a new descriptor. -/
def openFile (kernel : Kernel) (file : File) : Descriptor × Kernel :=
  (kernel.nextDescriptor,
    { kernel with
      files := kernel.files ++ [file]
      descriptors := kernel.descriptors ++ [(kernel.nextDescriptor, kernel.files.length)]
      nextDescriptor := kernel.nextDescriptor + 1 })

/-- Opens a stream socket pair. -/
def openSockets (kernel : Kernel) : Descriptor × Descriptor × Kernel :=
  let id := kernel.files.length
  let (first, kernel) := kernel.openFile (.socket { peer := id + 1 })
  let (second, kernel) := kernel.openFile (.socket { peer := id })
  (first, second, kernel)

/-- Opens a pipe: the end to read from and the end to write to. -/
def openPipe (kernel : Kernel) : Descriptor × Descriptor × Kernel :=
  let id := kernel.files.length
  let (reader, kernel) := kernel.openFile (.pipeReader (id + 1) {})
  let (writer, kernel) := kernel.openFile (.pipeWriter id)
  (reader, writer, kernel)

/-- A second descriptor for the file of a descriptor, unless there is none to be had. -/
def duplicate? (kernel : Kernel) (descriptor : Descriptor) : Option (Descriptor × Kernel) :=
  if kernel.spare = some 0 then none
  else (kernel.fileOf? descriptor).map fun file =>
    (kernel.nextDescriptor,
      { kernel with
        descriptors := kernel.descriptors ++ [(kernel.nextDescriptor, file)]
        nextDescriptor := kernel.nextDescriptor + 1
        spare := kernel.spare.map fun spare => spare - 1 })

/-! ### Pollers -/

/-- The registration of a wake signal. -/
def wakeRegistration : Registration :=
  { source := .wake, wanted := .onlyInput, token := wakeToken }

/-- Creates a poller with its wake signal. That takes two descriptors, and none is kept when not
both can be had. -/
def createPoller (kernel : Kernel) : Except IoError (PollerId × Kernel) :=
  let refused := match kernel.spare with
    | none => false
    | some spare => decide (spare < 2)
  if refused then .error .tooManyFiles
  else .ok (kernel.pollers.length,
    { kernel with
      spare := kernel.spare.map fun spare => spare - 2
      pollers := kernel.pollers ++ [{ list := { registrations := [wakeRegistration] } }] })

/-- One descriptor more can be opened. -/
def giveBack (kernel : Kernel) : Kernel :=
  { kernel with spare := kernel.spare.map fun spare => spare + 1 }

/-- Closes a poller; its registrations are forgotten and its wake signal remains. -/
def closePoller (kernel : Kernel) (id : PollerId) : Kernel :=
  (kernel.setPoller id { kernel.poller id with list := {}, usable := false }).giveBack

/-- Sends the wake signal of a poller. The second component is the failure. -/
def signal (kernel : Kernel) (id : PollerId) : Kernel × Option IoError :=
  let poller := kernel.poller id
  let (wake, failure) := poller.wake.signal
  let woken := { poller with wake }
  let written := wake != poller.wake
  (kernel.setPoller id (if written then
      { woken with list := woken.list.wakeUp fun registration => registration.source == .wake }
    else woken), failure)

/-- The descriptor of a wake signal comes to stand for a null file; the signal itself stays
registered. -/
def breakWake (kernel : Kernel) (id : PollerId) (target : WakeTarget) : Kernel :=
  let poller := kernel.poller id
  kernel.setPoller id { poller with wake := { poller.wake with target } }

/-- The descriptor of a poller comes to stand for something else. -/
def breakPoller (kernel : Kernel) (id : PollerId) : Kernel :=
  kernel.setPoller id { kernel.poller id with usable := false }

end Kernel

end MessagePump

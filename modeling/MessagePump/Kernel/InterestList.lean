/-
This file holds the interest list of a poller of the system, with the list of registrations that
may be ready.

A registration stays in the ready list as long as its conditions are met: a wait goes through the
ready list from the front, drops what is not ready any more, reports the rest as far as there is
room, and puts what it has reported behind what it has not reached. So every registration that
stays ready gets its turn, however small the room is. What is ready now is not stored here but
told by a function of the source.
-/

import MessagePump.Context.Basic

namespace MessagePump

/-- Open files are numbered in the order in which they were opened. -/
abbrev FileId := Nat

/-- What a registration watches: the wake signal of the poller, or a file through one of its
descriptors. -/
inductive Source
  | wake
  | file (descriptor : Descriptor) (file : FileId)
  deriving DecidableEq

/-- Whether a source is a certain file, through whichever descriptor. -/
def Source.isFile (file : FileId) : Source → Bool
  | .wake => false
  | .file _ own => own == file

/-- One entry of an interest list. -/
structure Registration where
  source : Source
  wanted : EventFlags
  token : Token
  deriving DecidableEq

/-- The interest list of a poller, with the sources that may be ready. -/
structure InterestList where
  registrations : List Registration := []
  ready : List Source := []
  deriving DecidableEq

namespace InterestList

/-- What a wait has collected: events, the sources that it reported, and those that it did not
reach. -/
structure Harvest where
  events : List Event := []
  reported : List Source := []
  unreached : List Source := []
  deriving DecidableEq

/-- The registration of a source. -/
def registration? (list : InterestList) (source : Source) : Option Registration :=
  list.registrations.find? fun registration => registration.source == source

/-- A source joins the ready list at its end, unless it is there already. -/
def join (list : InterestList) (source : Source) : InterestList :=
  if list.ready.contains source then list else { list with ready := list.ready ++ [source] }

/-- The conditions of a registration that are met, given what holds of its source. -/
def met (conditions : Source → EventFlags) (registration : Registration) : EventFlags :=
  (conditions registration.source).mask registration.wanted

/-- A source joins the ready list if it is ready. -/
def joinIfReady (list : InterestList) (conditions : Source → EventFlags)
    (registration : Registration) : InterestList :=
  if (met conditions registration).any then list.join registration.source else list

/-! ### Changing the list -/

/-- Registers a source. -/
def add (list : InterestList) (conditions : Source → EventFlags) (registration : Registration) :
    InterestList :=
  joinIfReady { list with registrations := list.registrations ++ [registration] } conditions
    registration

/-- Registers a source anew, in the place of its registration. -/
def modify (list : InterestList) (conditions : Source → EventFlags)
    (registration : Registration) : InterestList :=
  joinIfReady { list with
    registrations := list.registrations.map fun old =>
      if old.source == registration.source then registration else old } conditions registration

/-- Forgets the sources that satisfy a test. -/
def forget (list : InterestList) (test : Source → Bool) : InterestList where
  registrations := list.registrations.filter fun registration => !test registration.source
  ready := list.ready.filter fun source => !test source

/-- Something has happened to the registrations that satisfy a test: they may be ready now. The
latest registration is told first. -/
def wakeUp (list : InterestList) (test : Registration → Bool) : InterestList :=
  (list.registrations.reverse.filter test).foldl
    (fun list registration => list.join registration.source) list

/-! ### Waiting -/

/-- Goes through sources that may be ready, as long as there is room for events. -/
def harvest (list : InterestList) (conditions : Source → EventFlags) :
    Nat → List Source → Harvest
  | 0, sources => { unreached := sources }
  | _ + 1, [] => {}
  | room + 1, source :: sources =>
    match list.registration? source with
    | none => list.harvest conditions (room + 1) sources
    | some registration =>
      let flags := met conditions registration
      if flags.any then
        let later := list.harvest conditions room sources
        { later with
          events := { token := registration.token, flags } :: later.events
          reported := source :: later.reported }
      else list.harvest conditions (room + 1) sources

/-- The events that are there, and the list afterwards: the sources that were reported go behind
those that were not reached. -/
def wait (list : InterestList) (conditions : Source → EventFlags) (room : Nat) :
    List Event × InterestList :=
  let harvest := list.harvest conditions room list.ready
  (harvest.events, { list with ready := harvest.unreached ++ harvest.reported })

end InterestList

end MessagePump

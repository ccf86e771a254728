/-
This file models the descriptor behind a wake signal: a counter of the system that signals add
to and a drain empties. The counter saturates, and a signal that finds it full is swallowed,
because a full counter is pending already. The descriptor can come to stand for a null file, as
when another part of the program reuses its number; signals and drains then no longer reach the
counter.
-/

import MessagePump.Error

namespace MessagePump

/-! ### The counter -/

/-- The counter of a wake signal stays below the largest word of 64 bits. -/
abbrev counterLimit : Nat := 0xfffffffffffffffe

/-- An amount is added whole or not at all. -/
def addToCounter (count amount : Nat) : Except IoError Nat :=
  if counterLimit < amount then .error .invalidArgument
  else if counterLimit < count + amount then .error .again
  else .ok (count + amount)

/-! ### The descriptor that stands for it -/

/-- What the descriptor of a wake signal stands for. -/
inductive WakeTarget
  | counter
  | readOnlyNull
  | writeOnlyNull
  deriving DecidableEq

/-- A counter and what the descriptor stands for that once led to it. -/
structure WakeSource where
  count : Nat := 0
  target : WakeTarget := .counter
  deriving DecidableEq

namespace WakeSource

/-- Writing an amount to the descriptor. -/
def write (source : WakeSource) (amount : Nat) : Except IoError WakeSource :=
  match source.target with
  | .counter => (addToCounter source.count amount).map fun count => { source with count }
  | .readOnlyNull => .error .badDescriptor
  | .writeOnlyNull => .ok source

/-- Reading the descriptor: the whole counter, which is empty afterwards. -/
def read (source : WakeSource) : Except IoError (Nat × WakeSource) :=
  match source.target with
  | .counter =>
    if source.count = 0 then .error .again else .ok (source.count, { source with count := 0 })
  | .readOnlyNull => .ok (0, source)
  | .writeOnlyNull => .error .badDescriptor

/-- A signal adds one; a full counter swallows it. The second component is the failure, if the
descriptor no longer takes signals. -/
def signal (source : WakeSource) : WakeSource × Option IoError :=
  match source.write 1 with
  | .ok after => (after, none)
  | .error cause => (source, if cause = .again then none else some cause)

/-- A drain returns what was pending, and nothing when nothing was. -/
def drain (source : WakeSource) : Except IoError (Nat × WakeSource) :=
  match source.read with
  | .ok result => .ok result
  | .error cause => if cause = .again then .ok (0, source) else .error cause

/-- A number of signals one after another, whatever becomes of them. -/
def signals (source : WakeSource) : Nat → WakeSource
  | 0 => source
  | times + 1 => source.signal.1.signals times

end WakeSource

end MessagePump

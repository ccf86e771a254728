/-
This file holds the conditions of a descriptor: the conditions the system knows, with the bits
they are written as, the interest a watch declares, and the readiness its callback is told.
-/

namespace MessagePump

/-! ### Conditions and their bits -/

/-- The conditions of a descriptor that the system reports and that a watch can ask for. -/
structure EventFlags where
  input : Bool := false
  output : Bool := false
  error : Bool := false
  hangup : Bool := false
  peerHangup : Bool := false
  deriving DecidableEq

namespace EventFlags

/-- No condition at all. -/
def none : EventFlags := {}

/-- Only that something can be read. -/
def onlyInput : EventFlags := { input := true }

/-- Only that something can be written. -/
def onlyOutput : EventFlags := { output := true }

/-- Each condition has a bit of its own; other bits mean nothing here. -/
def ofBits (bits : Nat) : EventFlags where
  input := bits.testBit 0
  output := bits.testBit 2
  error := bits.testBit 3
  hangup := bits.testBit 4
  peerHangup := bits.testBit 13

/-- The sum of the bits of the conditions that hold. -/
def toBits (flags : EventFlags) : Nat :=
  flags.input.toNat * 1 + flags.output.toNat * 4 + flags.error.toNat * 8 +
    flags.hangup.toNat * 16 + flags.peerHangup.toNat * 8192

/-- Whether some condition holds. -/
def any (flags : EventFlags) : Bool :=
  flags.input || flags.output || flags.error || flags.hangup || flags.peerHangup

/-- The conditions that hold and are asked for; an error and a hangup need not be asked for. -/
def mask (flags wanted : EventFlags) : EventFlags where
  input := flags.input && wanted.input
  output := flags.output && wanted.output
  error := flags.error
  hangup := flags.hangup
  peerHangup := flags.peerHangup && wanted.peerHangup

/-- Whether two sets of conditions have one in common. -/
def meets (left right : EventFlags) : Bool :=
  (left.input && right.input) || (left.output && right.output) || (left.error && right.error) ||
    (left.hangup && right.hangup) || (left.peerHangup && right.peerHangup)

end EventFlags

/-! ### What a watch asks for -/

/-- The directions that a watch is interested in. -/
structure Interest where
  read : Bool
  write : Bool
  deriving DecidableEq

namespace Interest

/-- Interest in reading only. -/
def readable : Interest := ⟨true, false⟩

/-- Interest in writing only. -/
def writable : Interest := ⟨false, true⟩

/-- Interest in both directions. -/
def both : Interest := ⟨true, true⟩

/-- An interest in neither direction is empty. -/
def isEmpty (interest : Interest) : Bool := !interest.read && !interest.write

/-- Reading asks for input and for a peer that stops sending, writing asks for output. -/
def flags (interest : Interest) : EventFlags where
  input := interest.read
  peerHangup := interest.read
  output := interest.write

end Interest

/-! ### What a callback is told -/

/-- The readiness that a callback is told. -/
structure Readiness where
  readable : Bool := false
  writable : Bool := false
  error : Bool := false
  hangup : Bool := false
  deriving DecidableEq

namespace Readiness

/-- A hangup of either kind is told as a hangup. -/
def ofFlags (flags : EventFlags) : Readiness where
  readable := flags.input
  writable := flags.output
  error := flags.error
  hangup := flags.hangup || flags.peerHangup

/-- Whether nothing is ready. -/
def isEmpty (readiness : Readiness) : Bool := decide (readiness = {})

/-- One letter for each thing that is ready, in a fixed order. -/
def letters (readiness : Readiness) : String :=
  (if readiness.readable then "r" else "") ++ (if readiness.writable then "w" else "") ++
    (if readiness.error then "e" else "") ++ (if readiness.hangup then "h" else "")

end Readiness

end MessagePump

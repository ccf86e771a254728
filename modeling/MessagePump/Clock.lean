/-
This file measures time. Moments and durations are counted in nanoseconds; the system's wait
takes whole milliseconds, so a duration is rounded up on its way there: a wait that is asked for
is never cut short and never becomes no wait at all.
-/

namespace MessagePump

/-- A moment, in nanoseconds after the start of the clock; earlier moments are negative. -/
abbrev Instant := Int

/-- A length of time in nanoseconds. -/
abbrev Duration := Nat

/-- A millisecond has a million nanoseconds. -/
abbrev nanosPerMilli : Nat := 1000000

/-- The moment that lies a number of milliseconds after the start of the clock. -/
def Instant.ofMillis (millis : Int) : Instant := millis * nanosPerMilli

/-- The whole number of milliseconds that a moment lies after the start, if it is one. -/
def Instant.millis? (moment : Instant) : Option Int :=
  if moment % nanosPerMilli = 0 then some (moment / nanosPerMilli) else none

/-- What is left until a deadline: nothing once it has passed. -/
def remaining (deadline now : Instant) : Duration := (deadline - now).toNat

/-- The system's wait takes at most this many milliseconds. -/
abbrev longestWait : Nat := 2147483647

/-- The wait that is asked of the system: `-1` waits for ever, and a duration is rounded up to
whole milliseconds and cut off at the longest wait. -/
def waitMillis : Option Duration → Int
  | none => -1
  | some duration => (min ((duration + (nanosPerMilli - 1)) / nanosPerMilli) longestWait : Nat)

/-- A duration in seconds, rounded up to a multiple of a hundred of them. -/
def hundredsOfSeconds (duration : Duration) : Nat :=
  (duration + (100000 * nanosPerMilli - 1)) / (100000 * nanosPerMilli) * 100

end MessagePump

/-
This file holds the language of scenarios. A scenario sets up pumps and descriptors and performs
actions one after another; delegates, callbacks, hooks and reactors act by scripts, which are
lists of actions as well.
-/

import MessagePump.Context.Basic
import MessagePump.Kernel.Transfer

namespace MessagePump

/-! ### Small words of the language -/

/-- A pump is known by its place in the scenario. -/
abbrev PumpId := Nat

/-- A moment is given by its distance in milliseconds from the start or from now. -/
inductive Moment
  | afterStart (millis : Int)
  | fromNow (millis : Int)
  deriving DecidableEq

/-- The moment that is meant, given what the clock reads. -/
def Moment.instant (now : Instant) : Moment → Instant
  | .afterStart millis => .ofMillis millis
  | .fromNow millis => now + .ofMillis millis

/-- How the work of a pump is scheduled through a waker: at once on this thread or on another
one, or later on another one. -/
inductive WakeManner
  | here
  | elsewhere
  | later (millis : Nat)
  deriving DecidableEq

/-- What of a context is made to stand for something else. -/
inductive BrokenPart
  | wake (target : WakeTarget)
  | poller
  deriving DecidableEq

/-- The three kinds of work that a delegate is asked for. -/
inductive Band
  | immediate
  | delayed
  | idle
  deriving DecidableEq

/-! ### Actions and delegates -/

mutual

/-- What a script can do to a context. -/
inductive ContextAction
  | poll (timeout : Option Duration)
  | signal
  | watch (label : String) (descriptor : String) (interest : Interest)
      (calls : List (List Action)) (tail : List Action)
  | rewatch (label : String) (interest : Interest)
  | unwatch (label : String)
  | interest (label : String)
  | count
  | break (part : BrokenPart)

/-- What a script can do. An action on a pump names it or means the pump of the script; an action
on a context names one that is held or means the current context of the pump. -/
inductive Action
  | run (pump : Option PumpId) (delegate : DelegateChoice) (maxLevel : Option Nat)
      (catching : Bool)
  | quit (pump : Option PumpId)
  | scheduleWork (pump : Option PumpId)
  | scheduleDelayed (pump : Option PumpId) (moment : Moment)
  | state (pump : Option PumpId)
  | waker (pump : Option PumpId) (name : String)
  | hold (pump : Option PumpId) (name : String)
  | setHook (pump : Option PumpId) (label : String) (calls : List (List Action))
  | clearHook (pump : Option PumpId)
  | capacity (pump : Option PumpId)
  | dropPump (pump : Option PumpId)
  | onContext (pump : Option PumpId) (held : Option String) (action : ContextAction)
  | next (moment : Option Moment)
  | panic (message : String)
  | sleep (millis : Nat)
  | note (text : String)
  | wake (waker : String) (manner : WakeManner)
  | describeWaker (waker : String)
  | dropWaker (waker : String)
  | release (held : String)
  | limitDescriptors (spare : Option Nat)
  | write (descriptor : String) (bytes : Nat)
  | read (descriptor : String) (limit : Nat)
  | fill (descriptor : String)
  | drain (descriptor : String)
  | close (descriptor : String)
  | shutdown (descriptor : String) (how : ShutHow)
  | duplicate (descriptor : String) (name : String)

/-- One call of a delegate: what it does and whether it says that it did work. -/
inductive Call
  | mk (did : Bool) (actions : List Action)

/-- The calls of one kind of work, one after another, and the call that follows for ever. Where
none is given, the tail or the default of the kind is meant. -/
inductive Calls
  | mk (calls : List (Option Call)) (tail : Option Call)

/-- A delegate, by its calls for immediate, delayed and idle work. -/
inductive Delegate
  | mk (immediate : Calls) (delayed : Calls) (idle : Calls)

/-- A delegate is written out or is one of those that the scenario names. -/
inductive DelegateChoice
  | named (name : String)
  | written (delegate : Delegate)

end

/-- The call for a kind of work with a number, counted from zero. -/
def Calls.call? : Calls → Nat → Option Call
  | .mk calls tail, number => (calls[number]?.join).or tail

/-- A delegate without calls of its own. -/
def Delegate.empty : Delegate := .mk (.mk [] none) (.mk [] none) (.mk [] none)

instance : Inhabited Delegate := ⟨.empty⟩

/-- The calls of a delegate for a kind of work. -/
def Delegate.calls : Delegate → Band → Calls
  | .mk immediate _ _, .immediate => immediate
  | .mk _ delayed _, .delayed => delayed
  | .mk _ _ idle, .idle => idle

/-- The delegate that is meant, given those that have a name; an unknown name means the delegate
without calls of its own. -/
def DelegateChoice.delegate (named : List (String × Delegate)) : DelegateChoice → Delegate
  | .written delegate => delegate
  | .named name => (named.lookup name).getD .empty

/-! ### Pumps and descriptors -/

/-- What a reactor does when it is asked for something: actions, and then possibly a failure. -/
structure ScriptEntry where
  actions : List Action := []
  failure : Option IoError := none

/-- The occasions on which a script of the reactor is consulted. -/
inductive Occasion
  | create
  | poll
  | continuation
  | destroy
  deriving DecidableEq

/-- What a reactor does on each occasion, one entry for each time. -/
structure Scripts where
  create : List ScriptEntry := []
  poll : List ScriptEntry := []
  continuation : List ScriptEntry := []
  destroy : List ScriptEntry := []

/-- The next entry for an occasion, and the scripts without it. -/
def Scripts.take (scripts : Scripts) : Occasion → Option ScriptEntry × Scripts
  | .create => (scripts.create.head?, { scripts with create := scripts.create.tail })
  | .poll => (scripts.poll.head?, { scripts with poll := scripts.poll.tail })
  | .continuation =>
    (scripts.continuation.head?, { scripts with continuation := scripts.continuation.tail })
  | .destroy => (scripts.destroy.head?, { scripts with destroy := scripts.destroy.tail })

/-- The reactor of a pump: one that only records what it is asked for, or one that watches
descriptors, with the settings of its capacity. -/
inductive ReactorKind
  | recorder
  | poller (capacities : List Nat)
  deriving DecidableEq

/-- A pump of a scenario: its reactor with its scripts, and the names it is given in turn. -/
structure PumpSpec where
  reactor : ReactorKind := .recorder
  names : List String := []
  scripts : Scripts := {}

/-- A pump that is not given a name has this one. -/
abbrev defaultName : String := "main"

/-- The last name that a pump is given is the one it has. -/
def PumpSpec.name (spec : PumpSpec) : String := spec.names.getLastD defaultName

/-- The kinds of descriptor that a scenario opens. -/
inductive DescriptorKind
  | sockets
  | pipe
  | counter
  | null
  deriving DecidableEq

/-- A scenario. -/
structure Scenario where
  pumps : List PumpSpec := [{}]
  descriptors : List DescriptorKind := []
  delegates : List (String × Delegate) := []
  tracing : Bool := false
  steps : List Action := []

end MessagePump

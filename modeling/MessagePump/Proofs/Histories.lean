/-
This file holds what all histories have in common.

A system is known by the states in which it can begin and by what an event makes of a state, if the
event is possible there. Its history lists what has happened since the beginning, the latest
occurrence first, each with the state before and after it. Every moment of a history is the end of
a shorter one, so what each occurrence keeps is shown for one occurrence and has lasted since it
held. A history is obtained in the concrete by replaying events.

Pumps, contexts, hook slots, a context on its poller and whole threads all have histories of this
kind, each with its own states and events.
-/

namespace MessagePump

/-- An event with the state before and after it. -/
structure Occurrence (State Event : Type) where
  before : State
  event : Event
  after : State
  deriving DecidableEq

/-- The histories of a system: what has happened since it began, the latest occurrence first, and
how things are now. -/
inductive Chronicle {Origin State Event : Type} (new : Origin → State)
    (after? : State → Event → Option State) : List (Occurrence State Event) → State → Prop
  | start (origin : Origin) : Chronicle new after? [] (new origin)
  | step {history : List (Occurrence State Event)} {state : State} {event : Event}
      {next : State} :
    Chronicle new after? history state → after? state event = some next →
      Chronicle new after? ({ before := state, event, after := next } :: history) next

namespace Chronicle

variable {Origin State Event : Type} {new : Origin → State}
  {after? : State → Event → Option State} {history later earlier : List (Occurrence State Event)}
  {occurrence : Occurrence State Event} {state : State}

/-! ### Moments of a history -/

/-- Each moment of a history is the end of a shorter one. -/
theorem before (chronicle : Chronicle new after? (later ++ occurrence :: earlier) state) :
    Chronicle new after? earlier occurrence.before := by
  -- By induction on what has happened since, taking off the latest occurrence.
  induction later generalizing state with
  | nil =>
    cases chronicle with
    | step shorter _ => exact shorter
  | cons _ _ inductionHypothesis =>
    cases chronicle with
    | step shorter _ => exact inductionHypothesis shorter

/-- Each event of a history was possible when it happened. -/
theorem possible (chronicle : Chronicle new after? (later ++ occurrence :: earlier) state) :
    after? occurrence.before occurrence.event = some occurrence.after := by
  induction later generalizing state with
  | nil =>
    cases chronicle with
    | step _ possible => exact possible
  | cons _ _ inductionHypothesis =>
    cases chronicle with
    | step shorter _ => exact inductionHypothesis shorter

/-- The moment after each occurrence of a history is the end of a shorter one as well. -/
theorem after (chronicle : Chronicle new after? (later ++ occurrence :: earlier) state) :
    Chronicle new after? (occurrence :: earlier) occurrence.after :=
  .step chronicle.before chronicle.possible

/-- What every occurrence of some kind keeps has lasted as long as there were no others. -/
theorem lasting_while {motive : State → Prop} {allowed : Occurrence State Event → Prop}
    (keeps : ∀ {history state event next}, Chronicle new after? history state →
      after? state event = some next → allowed ⟨state, event, next⟩ → motive state → motive next)
    (chronicle : Chronicle new after? (later ++ occurrence :: earlier) state)
    (only : ∀ other ∈ later, allowed other) (now : motive occurrence.after) :
    motive state ∧ ∀ other ∈ later, motive other.before := by
  induction later generalizing state with
  | nil =>
    cases chronicle with
    | step _ _ => exact ⟨now, nofun⟩
  | cons other later inductionHypothesis =>
    obtain ⟨latest, others⟩ := List.forall_mem_cons.mp only
    cases chronicle with
    | step shorter possible =>
      obtain ⟨held, before⟩ := inductionHypothesis shorter others
      exact ⟨keeps shorter possible latest held, List.forall_mem_cons.mpr ⟨held, before⟩⟩

/-- What becomes of a state when some events happen one after another, if they are possible: the
occurrences, the earliest first, and how things are in the end. -/
def run? (after? : State → Event → Option State) (state : State) :
    List Event → Option (List (Occurrence State Event) × State)
  | [] => some ([], state)
  | event :: events => do
    let next ← after? state event
    let (occurrences, last) ← run? after? next events
    return ({ before := state, event, after := next } :: occurrences, last)

theorem run?_cons {event : Event} {events : List Event}
    {reached : List (Occurrence State Event) × State}
    (ran : run? after? state (event :: events) = some reached) :
    ∃ next occurrences last, after? state event = some next ∧
      run? after? next events = some (occurrences, last) ∧
      reached = ({ before := state, event, after := next } :: occurrences, last) := by
  obtain ⟨next, possible, ran⟩ := Option.bind_eq_some_iff.mp ran
  obtain ⟨⟨occurrences, last⟩, ran, same⟩ := Option.bind_eq_some_iff.mp ran
  exact ⟨next, occurrences, last, possible, ran, (Option.some.inj same).symm⟩

/-- A history goes on with every run from where it ends. -/
theorem run {events : List Event} {reached : List (Occurrence State Event) × State}
    (chronicle : Chronicle new after? history state)
    (ran : run? after? state events = some reached) :
    Chronicle new after? (reached.1.reverse ++ history) reached.2 := by
  -- The first event makes the history longer, and the others go on from there.
  induction events generalizing history state reached with
  | nil =>
    cases ran
    exact chronicle
  | cons event events inductionHypothesis =>
    obtain ⟨next, occurrences, last, possible, others, rfl⟩ := run?_cons ran
    have rest := inductionHypothesis (.step chronicle possible) others
    rw [List.reverse_cons, List.append_assoc]
    exact rest

/-- The history from a beginning on if some events happen, as far as all of them are possible. -/
def replayed (after? : State → Event → Option State) (beginning : State) (events : List Event) :
    List (Occurrence State Event) × State :=
  match run? after? beginning events with
  | some (occurrences, last) => (occurrences.reverse, last)
  | none => ([], beginning)

theorem of_replayed (origin : Origin) (events : List Event) :
    Chronicle new after? (replayed after? (new origin) events).1
      (replayed after? (new origin) events).2 := by
  have start : Chronicle new after? [] (new origin) := .start origin
  unfold replayed
  split
  · next ran =>
    have rest := start.run ran
    rw [List.append_nil] at rest
    exact rest
  · exact start

end Chronicle

end MessagePump

/-
This file proves what the capacity of the event buffer means for the waits of a context.

A wait is told how many events there is room for: the capacity, which never changes, as far as the
argument of the wait can express it. The system reports no more events than that, so they fit into
the buffer. But not every number that can be expressed is one that the system takes. A buffer with
room for more than `Kernel.mostEvents` events can be made, and with it every wait is refused and
every poll fails. Up to that number a wait is refused only when its poller is out of reach.
-/

import MessagePump.Proofs.InterestAgreement
import MessagePump.Proofs.Latching

namespace MessagePump

/-! ### Capacities that are accepted -/

/-- The capacity of the contexts that a reactor creates after some settings: a capacity of zero is
refused when it is set, and a buffer that exceeds all bounds when it is made. -/
def bufferCapacity? (settings : List Nat) : Option Nat :=
  (eventCapacity? settings).filter fun capacity => !overflowsBuffer capacity

/-- Every setting but zero is accepted, and the last one counts. -/
theorem eventCapacity?_eq_some {settings : List Nat} {capacity : Nat} :
    eventCapacity? settings = some capacity ↔
      0 ∉ settings ∧ settings.getLast?.getD defaultCapacity = capacity := by
  unfold eventCapacity?
  -- The default counts like a setting that came earlier; the induction needs any such.
  generalize defaultCapacity = earlier
  induction settings generalizing earlier with
  | nil => simp [eq_comm]
  | cons setting settings inductionHypothesis =>
    rw [List.foldlM_cons, List.getLast?_cons, Option.getD_some, List.mem_cons, not_or]
    by_cases zero : setting = 0
    · simp [zero]
    · simp [zero, Ne.symm zero, inductionHypothesis]

theorem capacity_of_made {settings : List Nat} {capacity : Nat}
    (made : bufferCapacity? settings = some capacity) :
    capacity ≠ 0 ∧ capacity * eventSize ≤ largestBuffer := by
  obtain ⟨accepted, fits⟩ := Option.filter_eq_some_iff.mp made
  obtain ⟨nonzero, last⟩ := eventCapacity?_eq_some.mp accepted
  refine ⟨?_, ?_⟩
  · rintro rfl
    cases latest : settings.getLast? with
    | none => rw [latest] at last; cases last
    | some setting =>
      rw [latest] at last
      exact nonzero (last ▸ List.mem_of_getLast? latest)
  · simpa [overflowsBuffer] using fits

/-! ### The number that a wait is told -/

/-- The room of a wait in machine words: the capacity, a number of 64 bits, cut off at the largest
signed number of 32 bits. -/
def roomArgument (capacity : BitVec 64) : BitVec 32 :=
  (if capacity < BitVec.ofNat 64 largestCount then capacity
    else BitVec.ofNat 64 largestCount).setWidth 32

/-- Cutting off leaves a number that a signed word of 32 bits can hold. -/
theorem roomArgument_toInt (capacity : BitVec 64) :
    (roomArgument capacity).toInt = (min capacity.toNat largestCount : Nat) := by
  have cut : (roomArgument capacity).toNat = min capacity.toNat largestCount := by
    unfold roomArgument
    rw [BitVec.toNat_setWidth]
    dsimp only [largestCount]
    split
    · next short =>
      rw [BitVec.lt_def, BitVec.toNat_ofNat] at short
      omega
    · next long =>
      rw [BitVec.lt_def, BitVec.toNat_ofNat] at long
      rw [BitVec.toNat_ofNat]
      omega
  rw [BitVec.toInt_eq_toNat_of_lt, cut]
  rw [cut]
  dsimp only [largestCount]
  omega

namespace Context

variable (context : Context)

theorem maxEvents_le_capacity : context.maxEvents ≤ context.capacity := Nat.min_le_left _ _

theorem maxEvents_ne_zero {context : Context} (room : context.capacity ≠ 0) :
    context.maxEvents ≠ 0 := by
  dsimp only [maxEvents, largestCount]
  omega

/-- Cutting off at what the argument can express does not help: what is left is more than the system
takes if the capacity is. -/
theorem maxEvents_le_mostEvents :
    context.maxEvents ≤ Kernel.mostEvents ↔ context.capacity ≤ Kernel.mostEvents := by
  dsimp only [maxEvents, largestCount, Kernel.mostEvents]
  omega

/-- The room in machine words, for a buffer that does not exceed all bounds. -/
theorem roomArgument_maxEvents {context : Context}
    (fits : context.capacity * eventSize ≤ largestBuffer) :
    (roomArgument (BitVec.ofNat 64 context.capacity)).toInt = context.maxEvents := by
  have held : context.capacity < 2 ^ 64 := by
    dsimp only [eventSize, largestBuffer] at fits
    omega
  rw [roomArgument_toInt, BitVec.toNat_ofNat, Nat.mod_eq_of_lt held, maxEvents]

/-- Every wait is told the same number. -/
theorem stageRequest_room {stage : ContextStage} {room : Nat} {millis : Int}
    (asked : context.stageRequest stage = .wait room millis) : context.maxEvents = room := by
  cases stage with
  | waiting => exact (ContextRequest.wait.inj asked).1
  | collecting events ready =>
    cases events with
    | nil => cases asked
    | cons event events =>
      simp only [stageRequest] at asked
      split at asked <;> cases asked
  | _ => cases asked

/-- No step changes the capacity. -/
theorem Step.capacity {context next : Context} {rest : List ContextStage} {stage : ContextStage}
    {answer : ContextAnswer} (step : context.Step rest stage answer next) :
    next.capacity = context.capacity := by
  cases step <;> rfl

end Context

/-! ### The answers to a wait -/

/-- The events fit into the room. -/
theorem InterestList.length_harvest (list : InterestList) (conditions : Source → EventFlags)
    (room : Nat) (sources : List Source) :
    (list.harvest conditions room sources).events.length ≤ room := by
  induction sources generalizing room with
  | nil => cases room <;> exact Nat.zero_le _
  | cons source sources inductionHypothesis =>
    cases room with
    | zero => exact Nat.le_refl 0
    | succ room =>
      unfold harvest
      split
      · exact inductionHypothesis (room + 1)
      · dsimp only
        split
        · exact Nat.succ_le_succ (inductionHypothesis room)
        · exact inductionHypothesis (room + 1)

namespace Kernel

variable {kernel : Kernel} {id : PollerId} {room : Nat} (millis : Int)

theorem respond?_wait_refused
    (refused : room = 0 ∨ mostEvents < room ∨ (kernel.poller id).usable = false) :
    kernel.respond? id (.wait room millis) = some (.failed .invalidArgument, kernel) := by
  have reason : (room = 0 || decide (mostEvents < room) || !(kernel.poller id).usable) = true := by
    simpa [or_assoc] using refused
  simp only [respond?, Kernel.wait, reason, if_true]

/-- A wait is answered if the system takes its room and its poller is within reach. -/
theorem respond?_wait_accepted (some : room ≠ 0) (taken : room ≤ mostEvents)
    (usable : (kernel.poller id).usable = true) :
    ∃ events after, kernel.respond? id (.wait room millis) = .some (.events events, after) := by
  have reason : (room = 0 || decide (mostEvents < room) || !(kernel.poller id).usable) = false := by
    simp [some, Nat.not_lt.mpr taken, usable]
  simp only [respond?, Kernel.wait, reason, Bool.false_eq_true, if_false]
  exact ⟨_, _, rfl⟩

variable {millis}

/-- What is reported fits into the room. -/
theorem respond?_wait_length {events : List Event} {after : Kernel}
    (responds : kernel.respond? id (.wait room millis) = some (.events events, after)) :
    events.length ≤ room := by
  cases respond?_some responds with
  | waited => exact InterestList.length_harvest _ _ _ _

/-- A wait fails only by being refused. -/
theorem respond?_wait_failed {cause : IoError} {after : Kernel}
    (responds : kernel.respond? id (.wait room millis) = some (.failed cause, after)) :
    (room = 0 ∨ mostEvents < room ∨ (kernel.poller id).usable = false) ∧
      cause = .invalidArgument := by
  by_cases refused : room = 0 ∨ mostEvents < room ∨ (kernel.poller id).usable = false
  · cases (respond?_wait_refused millis refused).symm.trans responds
    exact ⟨refused, rfl⟩
  · simp only [not_or, Nat.not_lt, Bool.not_eq_false] at refused
    obtain ⟨some, taken, usable⟩ := refused
    obtain ⟨events, after, accepted⟩ := respond?_wait_accepted millis some taken usable
    cases accepted.symm.trans responds

end Kernel

/-! ### Turns -/

/-- A turn is a wait that the system refuses. -/
structure Turn.Refuses (poller : PollerId) (turn : Turn) (cause : IoError) : Prop where
  served : turn.event = .served
  refused : ∃ timeout rest kernel, turn.before.context.tasks = .waiting timeout :: rest ∧
    turn.before.kernel.respond? poller
      (.wait turn.before.context.maxEvents (waitMillis timeout)) = some (.failed cause, kernel)

/-- A turn in which a wait reports events leads from the wait to what it has reported. -/
theorem Turn.reported?_some {turn : Turn} {events : List Event}
    (reported : turn.reported? = some events) :
    ∃ timeout ready, turn.before.context.tasks.head? = some (.waiting timeout) ∧
      turn.after.context.tasks.head? = some (.collecting events ready) := by
  unfold reported? at reported
  split at reported
  · next timeout events' ready before after =>
    cases reported
    exact ⟨timeout, ready, before, after⟩
  · cases reported

namespace Wired

variable {poller : PollerId} {wired next : Wired} {event : SessionEvent}

/-- Nothing that happens changes the capacity. -/
theorem Happens.capacity (happens : wired.Happens poller event next) :
    next.context.capacity = wired.context.capacity := by
  cases happens with
  | called call => rw [Context.begin_eq]
  | answered _ _ step | served _ _ _ step => exact step.capacity
  | _ => rfl

/-- What a wait has reported fits into the room that it was told. -/
theorem Happens.reported (happens : wired.Happens poller event next) {events : List Event}
    (reported : Turn.reported? { before := wired, event, after := next } = some events) :
    events.length ≤ wired.context.maxEvents := by
  obtain ⟨timeout, ready, before, after⟩ := Turn.reported?_some reported
  obtain ⟨below, waits⟩ := List.head?_eq_some_iff.mp before
  cases happens with
  | called call yields =>
    rw [Context.yields, before] at yields
    cases yields
  | answered tasks own =>
    cases tasks.symm.trans waits
    cases own
  | served tasks responds _ step =>
    cases tasks.symm.trans waits
    cases step with
    | report =>
      cases after
      exact Kernel.respond?_wait_length responds
    | interrupt =>
      cases after
      exact Nat.zero_le _
    | waitFailed | conflict => cases after
  | waits tasks =>
    cases before.symm.trans after
  | interrupted | timedOut =>
    cases after
    exact Nat.zero_le _
  | _ => cases before.symm.trans after

/-- A wait for more events than the system takes is refused. -/
theorem refuses_of_lt (poller : PollerId) (exceeds : Kernel.mostEvents < wired.context.capacity)
    (millis : Int) :
    wired.kernel.respond? poller (.wait wired.context.maxEvents millis) =
      some (.failed .invalidArgument, wired.kernel) := by
  refine Kernel.respond?_wait_refused millis (Or.inr (Or.inl (Nat.not_le.mp fun taken => ?_)))
  exact Nat.not_le.mpr exceeds (wired.context.maxEvents_le_mostEvents.mp taken)

/-- The system answers every wait. If it takes the room and the poller is within reach, the wait
goes on or reports events; otherwise the poll ends with the refusal. -/
theorem after?_of_waiting {timeout : Option Duration} {rest : List ContextStage}
    (tasks : wired.context.tasks = .waiting timeout :: rest) (room : wired.context.capacity ≠ 0) :
    ∃ next, wired.after? poller .served = some next ∧
      if wired.context.capacity ≤ Kernel.mostEvents ∧
          (wired.kernel.poller poller).usable = true then
        next.context.tasks = .waiting timeout :: rest ∨
          ∃ event events, next.context.tasks = .collecting (event :: events) [] :: rest
      else next.context.tasks = .ended (.failed .invalidArgument) :: rest := by
  have nonzero := Context.maxEvents_ne_zero room
  split
  · next fine =>
    obtain ⟨events, kernel, responds⟩ := Kernel.respond?_wait_accepted
      (waitMillis timeout) nonzero
      (wired.context.maxEvents_le_mostEvents.mpr fine.1) fine.2
    cases events with
    | nil =>
      exact ⟨{ wired with kernel }, after?_waits tasks responds, Or.inl tasks⟩
    | cons event events =>
      exact ⟨_, after?_served tasks responds nofun rfl, Or.inr ⟨event, events, rfl⟩⟩
  · next hindered =>
    have refused : wired.context.maxEvents = 0 ∨ Kernel.mostEvents < wired.context.maxEvents ∨
        (wired.kernel.poller poller).usable = false := by
      refine Or.inr ?_
      rw [not_and_or, ← wired.context.maxEvents_le_mostEvents, Nat.not_le,
        Bool.not_eq_true] at hindered
      exact hindered
    exact ⟨_, after?_served tasks (Kernel.respond?_wait_refused _ refused) nofun rfl, rfl⟩

end Wired

/-- The capacity is the same at every moment of a session. -/
theorem Session.capacity_eq {poller : PollerId} {history : List Turn} {wired : Wired}
    (session : Session poller history wired) :
    ∀ turn ∈ history, turn.before.context.capacity = wired.context.capacity := by
  induction session with
  | start => exact fun _ member => absurd member List.not_mem_nil
  | step session possible inductionHypothesis =>
    have same := (Wired.after?_some possible).capacity
    refine List.forall_mem_cons.mpr ⟨same.symm, fun turn member => ?_⟩
    exact (inductionHypothesis turn member).trans same.symm

/-! ### Polls -/

/-- A poll fails with the failure of a wait or of an attempt to drain the wake signal. -/
theorem Context.Step.fails {context next : Context} {rest : List ContextStage}
    {stage : ContextStage} {answer : ContextAnswer} {cause : IoError}
    (step : context.Step rest stage answer next) (polls : stage.ofPoll = true)
    (after : next.tasks = .ended (.failed cause) :: rest) :
    answer = .failed cause ∧ ((∃ timeout, stage = .waiting timeout) ∨
      context.stageRequest stage = .drain) := by
  cases step with
  | waitFailed timeout =>
    cases after
    exact ⟨rfl, Or.inl ⟨timeout, rfl⟩⟩
  | drainFailed event events ready _ wake =>
    cases after
    exact ⟨rfl, Or.inr (if_pos wake)⟩
  | discard callback result =>
    cases after
    cases polls
  | finish => exact absurd (congrArg List.length after) (Nat.ne_of_lt (Nat.lt_succ_self _))
  | findNone | modifyFailed | removeNone | delete | deleteFailed => cases polls
  | _ => cases after

/-- An operation that goes on has not ended. -/
theorem Context.Step.busy {context next : Context} {rest : List ContextStage}
    {stage moved : ContextStage} {answer : ContextAnswer}
    (step : context.Step rest stage answer next) (after : next.tasks = moved :: rest) :
    ∀ result, stage ≠ .ended result := by
  rintro result rfl
  cases step with
  | finish => exact absurd (congrArg List.length after) (Nat.ne_of_lt (Nat.lt_succ_self _))
  | conflict _ taken => rcases taken with ⟨takes, -⟩ | ⟨takes, -⟩ <;> cases takes

/-- What is known of a poll at some stage: if it has failed, then in a turn of its own with which
the system has refused a wait. -/
structure Operation.FailsWaiting (poller : PollerId) (operation : Operation)
    (stage : ContextStage) : Prop where
  polls : stage.ofPoll = true
  refused : ∀ cause, stage = .ended (.failed cause) →
    ∃ turn ∈ operation.own, turn.Refuses poller cause

/-- As long as the wake signal is intact, polls fail at their waits only. -/
theorem Operation.failsWaiting_followed (poller : PollerId) :
    Followed poller (fun _ => True) fun _ operation stage =>
      ∀ timeout, operation.call = .poll timeout → operation.FailsWaiting poller stage where
  fresh := by
    rintro history wired call - - - timeout rfl
    exact ⟨rfl, nofun⟩
  own := by
    intro history wired operation stage rest event next moved session _ _ tasks known happens own
      after timeout polls
    obtain ⟨before, -⟩ := known timeout polls
    have polled : ∀ {answer : ContextAnswer},
        wired.context.Step rest stage answer next.context → moved.ofPoll = true := by
      intro answer step
      obtain ⟨moved', same, polled, -⟩ :=
        step.polls (session.orderly.step tasks step) before (step.busy after)
      exact (List.cons.inj (after.symm.trans same)).1 ▸ polled
    cases happens with
    | answered tasks' asks step =>
      cases tasks.symm.trans tasks'
      refine ⟨polled step, ?_⟩
      rintro cause rfl
      obtain ⟨-, ⟨timeout, rfl⟩ | drains⟩ := step.fails before after
      · cases asks
      · rw [drains] at asks
        cases asks
    | served tasks' responds found step =>
      cases tasks.symm.trans tasks'
      refine ⟨polled step, ?_⟩
      rintro cause rfl
      obtain ⟨rfl, ⟨timeout, rfl⟩ | drains⟩ := step.fails before after
      · exact ⟨_, List.mem_cons_self, rfl, timeout, rest, _, tasks, responds⟩
      · -- An intact signal can always be drained, so this failure is not possible.
        rw [drains] at responds
        cases Kernel.respond?_some responds with
        | drainFailed _ refused =>
          rw [WakeSource.drain_counter session.latched.poller.intact] at refused
          cases refused
    | waits tasks' =>
      cases tasks.symm.trans tasks'
      cases tasks.symm.trans after
      exact ⟨rfl, nofun⟩
    | interrupted tasks' | timedOut tasks' =>
      cases tasks.symm.trans tasks'
      cases after
      exact ⟨rfl, nofun⟩
    | _ => cases own
  aside _ _ _ _ _ known := known

/-- With room for more events than the system takes, a poll gets no further than its wait. -/
theorem Operation.vain_followed (poller : PollerId) :
    Followed poller (fun turn => Kernel.mostEvents < turn.before.context.capacity)
      fun _ operation stage => ∀ timeout, operation.call = .poll timeout →
        stage.awaits = true ∨ stage = .ended (.failed .invalidArgument) where
  fresh := by
    rintro history wired call - - - timeout rfl
    exact Or.inl rfl
  own := by
    intro history wired operation stage rest event next moved session _ exceeds tasks known happens
      own after timeout polls
    have exceeds : Kernel.mostEvents < wired.context.capacity := exceeds
    have refused := Wired.refuses_of_lt poller exceeds
    rcases known timeout polls with awaits | rfl
    · cases happens with
      | answered tasks' asks step =>
        cases tasks.symm.trans tasks'
        cases step with
        | prepare =>
          cases after
          exact Or.inl rfl
        | interrupt | report | waitFailed => cases asks
        | conflict _ taken =>
          exact absurd rfl (session.orderly.step tasks (.conflict _ taken)).sound
        | _ => cases awaits
      | served tasks' responds found step =>
        cases tasks.symm.trans tasks'
        cases stage with
        | waiting =>
          cases (refused _).symm.trans responds
          cases step
          cases after
          exact Or.inr rfl
        | preparing => cases responds
        | _ => cases awaits
      -- Each of these needs a wait that finds nothing, and the wait is refused.
      | waits tasks' responds | interrupted tasks' responds | timedOut tasks' _ responds =>
        cases (refused _).symm.trans responds
      | _ => cases own
    · cases happens with
      | answered tasks' asks step =>
        cases tasks.symm.trans tasks'
        exact absurd rfl (step.busy after _)
      | served tasks' responds =>
        cases tasks.symm.trans tasks'
        cases responds
      | waits tasks' | interrupted tasks' | timedOut tasks' => cases tasks.symm.trans tasks'
      | _ => cases own
  aside _ _ _ _ _ known := known

/-- The capacity decides whether a context can be polled. It never changes. Every wait is told a
number of events that is at least one, that the buffer has room for and that words of the machine
hold; the system takes that number exactly if it takes the capacity itself. In that case the waits
are answered as long as the poller is within reach, and a poll fails only at a wait of its own for
which it was not. With a larger capacity every wait is refused and every poll fails. No wait reports
more events than the buffer has room for. -/
theorem Session.capacity_decides {poller : PollerId} {history : List Turn} {wired : Wired}
    {settings : List Nat} (session : Session poller history wired)
    (made : bufferCapacity? settings = some wired.context.capacity) :
    (∀ turn ∈ history, turn.before.context.capacity = wired.context.capacity) ∧
    (∀ room millis, wired.context.request? = some (.wait room millis) →
      1 ≤ room ∧ room ≤ wired.context.capacity ∧
        (roomArgument (.ofNat 64 wired.context.capacity)).toInt = room ∧
        (room ≤ Kernel.mostEvents ↔ wired.context.capacity ≤ Kernel.mostEvents)) ∧
    (∀ timeout rest, wired.context.tasks = .waiting timeout :: rest →
      ∃ next, wired.after? poller .served = some next ∧
        if wired.context.capacity ≤ Kernel.mostEvents ∧
            (wired.kernel.poller poller).usable = true then
          next.context.tasks = .waiting timeout :: rest ∨
            ∃ event events, next.context.tasks = .collecting (event :: events) [] :: rest
        else next.context.tasks = .ended (.failed .invalidArgument) :: rest) ∧
    (∀ operation timeout result, (operation, result) ∈ outcomes history →
      operation.call = .poll timeout →
      (∀ cause, result = .failed cause → cause = .invalidArgument ∧
        ∃ wait ∈ operation.own, wait.Refuses poller cause ∧
          (Kernel.mostEvents < wired.context.capacity ∨
            (wait.before.kernel.poller poller).usable = false)) ∧
      (Kernel.mostEvents < wired.context.capacity → result = .failed .invalidArgument)) ∧
    ∀ turn ∈ history, ∀ events, turn.reported? = some events →
      events.length ≤ wired.context.capacity := by
  obtain ⟨room, fits⟩ := capacity_of_made made
  have kept := session.capacity_eq
  refine ⟨kept, ?_, fun timeout rest tasks => Wired.after?_of_waiting tasks room, ?_, ?_⟩
  · intro room' millis asked
    obtain ⟨stage, top, asked⟩ := Option.map_eq_some_iff.mp asked
    obtain rfl := wired.context.stageRequest_room asked
    exact ⟨Nat.pos_of_ne_zero (Context.maxEvents_ne_zero room),
      wired.context.maxEvents_le_capacity, Context.roomArgument_maxEvents fits,
      wired.context.maxEvents_le_mostEvents⟩
  · intro operation timeout result returned polls
    refine ⟨fun cause failed => ?_, fun exceeds => ?_⟩
    · obtain ⟨_, known⟩ := session.follow_outcomes (Operation.failsWaiting_followed poller)
        (fun _ _ => trivial) _ returned
      obtain ⟨wait, own, refuses⟩ := (known timeout polls).refused cause (congrArg _ failed)
      obtain ⟨_, taken⟩ := session.follow_outcomes (Operation.own_followed poller (· ∈ history))
        (fun _ member => member) _ returned
      -- The wait is in the history, so it was told the same capacity.
      obtain ⟨timeout, rest, kernel, -, responds⟩ := refuses.refused
      obtain ⟨empty | exceeds | unreached, same⟩ := Kernel.respond?_wait_failed responds
      all_goals refine ⟨same, wait, own, refuses, ?_⟩
      · exact absurd empty (Context.maxEvents_ne_zero (kept wait (taken wait own) ▸ room))
      · refine Or.inl (Nat.not_le.mp fun fine => ?_)
        rw [← kept wait (taken wait own), ← Context.maxEvents_le_mostEvents] at fine
        exact Nat.not_le.mpr exceeds fine
      · exact Or.inr unreached
    · obtain ⟨_, known⟩ := session.follow_outcomes (Operation.vain_followed poller)
        (fun turn member => (kept turn member).symm ▸ exceeds) _ returned
      rcases known timeout polls with awaits | failed
      · cases awaits
      · exact ContextStage.ended.inj failed
  · intro turn member events reported
    obtain ⟨later, earlier, rfl⟩ := List.append_of_mem member
    have same := kept turn member
    exact same ▸ Nat.le_trans ((Wired.after?_some session.possible).reported reported)
      turn.before.context.maxEvents_le_capacity

/-- A watch whose descriptor is ready is called back from one poll, and another poll waits. -/
def polledTwice : List SessionEvent :=
  [.called (.watch 0 .readable 7), .served, .answered .done, .answered .done,
    .called (.poll none), .answered .done, .served, .answered .done, .answered .done,
    .answered .done, .answered .done, .answered .done, .answered .done, .answered .done,
    .called (.poll none), .answered .done]

theorem Session.capacity_decides_mostEvents :
    bufferCapacity? [3, Kernel.mostEvents] = some Kernel.mostEvents ∧
      (outcomes (played [.openFile (.counter 1)] Kernel.mostEvents polledTwice).1).map (·.2) =
        [.polled, .watched 0] ∧
      (∀ turn ∈ (played [.openFile (.counter 1)] Kernel.mostEvents polledTwice).1,
        ∀ events, turn.reported? = some events → events.length ≤ Kernel.mostEvents) ∧
      (roomArgument (.ofNat 64 Kernel.mostEvents)).toInt = Kernel.mostEvents ∧
      ∃ next, (played [.openFile (.counter 1)] Kernel.mostEvents polledTwice).2.after? 0 .served =
          some next ∧
        (next.context.tasks = [.waiting none] ∨
          ∃ event events, next.context.tasks = [.collecting (event :: events) []]) := by
  have made : bufferCapacity? [3, Kernel.mostEvents] =
      some (played [.openFile (.counter 1)] Kernel.mostEvents polledTwice).2.context.capacity := by
    decide
  have usable : ((played [.openFile (.counter 1)] Kernel.mostEvents
      polledTwice).2.kernel.poller 0).usable = true := by decide
  obtain ⟨-, told, waits, -, fits⟩ := Session.capacity_decides
    (.of_played [.openFile (.counter 1)] Kernel.mostEvents polledTwice rfl rfl) made
  obtain ⟨-, -, held, -⟩ := told Kernel.mostEvents (-1) (by decide)
  obtain ⟨next, answered, goes⟩ := waits none [] (by decide)
  rw [if_pos ⟨by decide, usable⟩] at goes
  exact ⟨by decide, by decide, fits, held, next, answered, goes⟩

/-- It is not so that every capacity that is accepted can be polled with. A buffer with room for one
more event than the system takes can be made, and a poll with it fails although its poller is within
reach. -/
theorem Session.poll_refused :
    bufferCapacity? [Kernel.mostEvents + 1] = some (Kernel.mostEvents + 1) ∧
      (outcomes (played [] (Kernel.mostEvents + 1)
        [.called (.poll (some 0)), .answered .done, .served, .answered .done]).1).map
          (fun outcome => (outcome.1.call, outcome.2)) =
        [(.poll (some 0), .failed .invalidArgument)] ∧
      ∀ turn ∈ (played [] (Kernel.mostEvents + 1)
        [.called (.poll (some 0)), .answered .done, .served, .answered .done]).1,
        (turn.before.kernel.poller 0).usable = true := by
  decide

end MessagePump

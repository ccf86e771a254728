/-
This file proves that the wake signal of a context latches.

The signal is a counter of the system that is registered like any descriptor, so its event competes
with those of the watches for the room in the buffer and may stay out of what a wait collects. The
counter is what latches: as long as it is not empty its source is in the ready list, so a wait finds
something and does not block. Only the poll that has collected the event drains the counter, and it
does so before any callback runs, so a signal sent from then on is there for the next poll.
-/

import MessagePump.Proofs.Pollers
import MessagePump.Proofs.Sessions

namespace MessagePump

/-! ### The counter -/

/-- The wake signal is intact and registered, and its source may be ready as far as the system knows
when something is in the counter. -/
structure Poller.Latched (poller : Poller) : Prop where
  intact : poller.wake.target = .counter
  registered : poller.list.registration? .wake = some Kernel.wakeRegistration
  ready : poller.wake.count ≠ 0 → .wake ∈ poller.list.ready

/-- The poller with a number is there, and its wake signal latches. -/
structure Kernel.Latched (kernel : Kernel) (id : PollerId) : Prop where
  inside : id < kernel.pollers.length
  poller : (kernel.poller id).Latched

theorem WakeSource.drain_counter {source : WakeSource} (intact : source.target = .counter) :
    source.drain = .ok (source.count, { source with count := 0 }) := by
  obtain ⟨count, target⟩ := source
  cases intact
  unfold drain read
  cases count with
  | zero => rfl
  | succ count => rfl

/-- A signal leaves something in the counter. The counter stays as it is only if it is full. -/
theorem WakeSource.signal_counter {source : WakeSource} (intact : source.target = .counter) :
    source.signal =
      ({ source with
        count := if source.count + 1 ≤ counterLimit then source.count + 1 else source.count },
        none) := by
  obtain ⟨count, target⟩ := source
  cases intact
  simp only [signal, write, addToCounter]
  rw [if_neg (by decide)]
  by_cases full : counterLimit < count + 1
  · rw [if_pos full, if_neg (Nat.not_le.mpr full)]
    rfl
  · rw [if_neg full, if_pos (Nat.not_lt.mp full)]
    rfl

namespace Poller.Latched

variable {poller : Poller}

/-- Another interest list in which the wake signal is registered. -/
theorem withList (latched : poller.Latched) {list : InterestList}
    (registered : list.registration? .wake = poller.list.registration? .wake)
    (ready : .wake ∈ poller.list.ready → .wake ∈ list.ready) :
    Latched { poller with list } where
  intact := latched.intact
  registered := registered.trans latched.registered
  ready some := ready (latched.ready some)

theorem drained (latched : poller.Latched) :
    Latched { poller with wake := { poller.wake with count := 0 } } where
  intact := latched.intact
  registered := latched.registered
  ready some := absurd rfl some

end Poller.Latched

namespace Kernel

variable {kernel : Kernel} {id : PollerId}

theorem setPoller_length (kernel : Kernel) (id : PollerId) (poller : Poller) :
    (kernel.setPoller id poller).pollers.length = kernel.pollers.length :=
  List.length_set

theorem Latched.setPoller (latched : kernel.Latched id) {poller : Poller}
    (after : poller.Latched) : (kernel.setPoller id poller).Latched id where
  inside := by
    rw [setPoller_length]
    exact latched.inside
  poller := by
    rw [poller_setPoller latched.inside]
    exact after

/-- The wake event is met exactly when something is in the counter. -/
theorem met_wake (kernel : Kernel) (id : PollerId) :
    (InterestList.met (kernel.conditions id) wakeRegistration).any =
      ((kernel.poller id).wake.count != 0) := by
  have asked : wakeRegistration.wanted.input = true := rfl
  simp [InterestList.met, conditions, wakeRegistration, EventFlags.mask, EventFlags.any,
    EventFlags.onlyInput]

/-- While something is in the counter, a wait does not come back empty-handed. -/
theorem Latched.finds (latched : kernel.Latched id) (pending : (kernel.poller id).wake.count ≠ 0)
    {room : Nat} {millis : Int} {answer : ContextAnswer} {after : Kernel}
    (responds : kernel.respond? id (.wait room millis) = some (answer, after)) :
    answer ≠ .events [] := by
  generalize asked : ContextRequest.wait room millis = request at responds
  cases respond?_some responds with
  | waited room _ space =>
    obtain ⟨room, rfl⟩ := Nat.exists_eq_succ_of_ne_zero space
    have met : (InterestList.met (kernel.conditions id) wakeRegistration).any = true := by
      rw [met_wake, bne_iff_ne]
      exact pending
    have found := InterestList.harvest_finds latched.poller.registered met room
      (latched.poller.ready pending)
    exact fun empty => found (ContextAnswer.events.inj empty)
  | waitFailed => exact nofun
  | _ => cases asked

/-- What the system answers keeps the wake signal latched, and only a drain empties the counter. -/
theorem Latched.answers (latched : kernel.Latched id) {request : ContextRequest}
    {answer : ContextAnswer} {after : Kernel} (answers : kernel.Answers id request answer after) :
    after.Latched id ∧ ((after.poller id).wake.count = (kernel.poller id).wake.count ∨
      request = .drain ∧ answer = .done ∧ (after.poller id).wake.count = 0) := by
  have listed : ∀ list : InterestList,
      list.registration? .wake = (kernel.poller id).list.registration? .wake →
      (.wake ∈ (kernel.poller id).list.ready → .wake ∈ list.ready) →
      (kernel.withList id list).Latched id ∧
        ((kernel.withList id list).poller id).wake.count = (kernel.poller id).wake.count := by
    intro list registered ready
    refine ⟨latched.setPoller (latched.poller.withList registered ready), ?_⟩
    rw [withList, poller_setPoller latched.inside]
  cases answers with
  | added descriptor wanted token file pollable fresh =>
    refine (listed ((kernel.poller id).list.add _
      { source := .file descriptor file, wanted, token }) ?_ InterestList.mem_ready_add).imp_right
        Or.inl
    exact InterestList.add_registration? nofun
  | modified descriptor wanted token file pollable =>
    refine (listed ((kernel.poller id).list.modify _
      { source := .file descriptor file, wanted, token })
      ?_ InterestList.mem_ready_modify).imp_right Or.inl
    exact InterestList.modify_registration? nofun
  | deleted descriptor file pollable =>
    refine (listed ((kernel.poller id).list.forget fun other => other == .file descriptor file)
      ?_ (InterestList.mem_ready_forget rfl)).imp_right Or.inl
    exact InterestList.forget_registration? rfl
  | drained count wake drains =>
    rw [WakeSource.drain_counter latched.poller.intact] at drains
    cases drains
    refine ⟨latched.setPoller latched.poller.drained, Or.inr ⟨rfl, rfl, ?_⟩⟩
    rw [poller_setPoller latched.inside]
  | waited room millis space =>
    refine ⟨latched.setPoller ?_, Or.inl ?_⟩
    · refine ⟨latched.poller.intact, latched.poller.registered, fun pending => ?_⟩
      have met : (InterestList.met (kernel.conditions id) wakeRegistration).any = true := by
        rw [met_wake, bne_iff_ne]
        exact pending
      exact InterestList.harvest_keeps latched.poller.registered met room
        (latched.poller.ready pending)
    · rw [withList, poller_setPoller latched.inside]
  | _ => exact ⟨latched, Or.inl rfl⟩

/-- The poller after a signal: the counter has grown, unless it was full, and its source is in the
ready list, where it was already if the counter was full. -/
theorem Latched.signal_eq (latched : kernel.Latched id) :
    (kernel.signal id).1 = kernel.setPoller id
      { kernel.poller id with
        wake := { (kernel.poller id).wake with
          count := if (kernel.poller id).wake.count + 1 ≤ counterLimit
            then (kernel.poller id).wake.count + 1 else (kernel.poller id).wake.count }
        list := (kernel.poller id).list.join .wake } := by
  simp only [Kernel.signal, WakeSource.signal_counter latched.poller.intact]
  by_cases room : (kernel.poller id).wake.count + 1 ≤ counterLimit
  · have written : (({ (kernel.poller id).wake with
        count := (kernel.poller id).wake.count + 1 } : WakeSource) != (kernel.poller id).wake) =
          true := bne_iff_ne.mpr fun same =>
      Nat.succ_ne_self _ (congrArg WakeSource.count same)
    simp only [if_pos room, written, if_true,
      InterestList.wakeUp_source latched.poller.registered]
  · have full : (kernel.poller id).wake.count ≠ 0 := fun empty => room (empty ▸ by decide)
    simp only [if_neg room, bne_self_eq_false, Bool.false_eq_true, if_false,
      InterestList.join_of_mem (latched.poller.ready full)]

/-- A signal leaves something in the counter. -/
theorem Latched.signal (latched : kernel.Latched id) :
    (kernel.signal id).1.Latched id ∧ ((kernel.signal id).1.poller id).wake.count ≠ 0 := by
  rw [latched.signal_eq]
  refine ⟨latched.setPoller ⟨latched.poller.intact, ?_, fun _ => ?_⟩, ?_⟩
  · simp only [InterestList.registration?, InterestList.join_registrations]
    exact latched.poller.registered
  · exact InterestList.mem_ready_join_self _ _
  · rw [poller_setPoller latched.inside]
    dsimp only
    split
    · exact Nat.succ_ne_zero _
    · next full => exact fun empty => full (empty ▸ by decide)

theorem Latched.serves (latched : kernel.Latched id) {action : Kernel → Kernel}
    {closed : Option Descriptor} {news : List News} (serves : Serves action kernel closed news) :
    (action kernel).Latched id ∧
      ((action kernel).poller id).wake = (kernel.poller id).wake := by
  obtain ⟨length, heard⟩ := serves.poller latched.inside
  obtain ⟨wake, -, registered, ready⟩ := (kernel.poller id).hear_wake news
  refine ⟨⟨length.symm ▸ latched.inside, ?_⟩, heard ▸ wake⟩
  rw [heard]
  exact latched.poller.withList registered ready

/-- A poller that has just been created has nothing in its counter. -/
theorem Latched.created {after : Kernel} (created : kernel.createPoller = .ok (id, after)) :
    after.Latched id ∧ (after.poller id).wake.count = 0 := by
  obtain ⟨rfl, poller, inside, -⟩ := createPoller_ok created
  rw [poller]
  exact ⟨⟨inside, poller ▸ ⟨rfl, rfl, fun pending => absurd rfl pending⟩⟩, rfl⟩

end Kernel

/-! ### Turns -/

/-- Only a poll that has come to the wake event drains. -/
theorem Context.stageRequest_drain {context : Context} {stage : ContextStage}
    (drains : context.stageRequest stage = .drain) :
    ∃ event events ready, stage = .collecting (event :: events) ready ∧
      event.token = wakeToken := by
  cases stage with
  | collecting events ready =>
    cases events with
    | nil => cases drains
    | cons event events =>
      simp only [stageRequest] at drains
      split at drains
      · next wake => exact ⟨event, events, ready, rfl, wake⟩
      · cases drains
  | _ => cases drains

namespace Wired

variable {poller : PollerId} {wired next : Wired} {event : SessionEvent}

/-- The turn drains the counter: the innermost operation is a poll that has come to the wake event,
and it goes on with the events behind it. -/
def Drains (poller : PollerId) (wired : Wired) (event : SessionEvent) (next : Wired) : Prop :=
  event = .served ∧ next.pending poller = 0 ∧
    ∃ wake events ready rest, wake.token = wakeToken ∧
      wired.context.tasks = .collecting (wake :: events) ready :: rest ∧
      next.context.tasks = .collecting events ready :: rest

/-- Whatever happens keeps the wake signal latched. The counter changes with a signal, which leaves
something in it, and with a drain. -/
theorem Happens.latched (latched : wired.kernel.Latched poller)
    (happens : wired.Happens poller event next) :
    next.kernel.Latched poller ∧ (next.pending poller = wired.pending poller ∨
      event = .signalled ∧ next.pending poller ≠ 0 ∨ Drains poller wired event next) := by
  cases happens with
  | called | answered => exact ⟨latched, Or.inl rfl⟩
  | @served stage rest answer context kernel tasks responds found step =>
    obtain ⟨kept, same | ⟨drains, rfl, empty⟩⟩ := latched.answers (Kernel.respond?_some responds)
    · exact ⟨kept, Or.inl same⟩
    · obtain ⟨event, events, ready, rfl, wake⟩ := Context.stageRequest_drain drains
      refine ⟨kept, Or.inr (Or.inr ⟨rfl, empty, event, events, ready, rest, wake, tasks, ?_⟩)⟩
      cases step with
      | drain => rfl
      | gather _ _ _ native => exact absurd wake native
      | conflict _ taken => rcases taken with ⟨takes, -⟩ | ⟨takes, -⟩ <;> cases takes
  | waits tasks responds | interrupted tasks responds | timedOut tasks _ responds =>
    obtain ⟨kept, same | ⟨drains, -⟩⟩ := latched.answers (Kernel.respond?_some responds)
    · exact ⟨kept, Or.inl same⟩
    · cases drains
  | signalled =>
    obtain ⟨kept, some⟩ := latched.signal
    exact ⟨kept, Or.inr (Or.inl ⟨rfl, some⟩)⟩
  | changed call =>
    obtain ⟨news, serves⟩ := wired.kernel.perform_serves call
    obtain ⟨kept, wake⟩ := latched.serves serves
    exact ⟨kept, Or.inl (congrArg WakeSource.count wake)⟩
  | reordered ready same =>
    refine ⟨latched.setPoller (latched.poller.withList rfl same.mem_iff.mpr), Or.inl ?_⟩
    rw [pending, Kernel.reorder, Kernel.withList, Kernel.poller_setPoller latched.inside]
    rfl
  | elsewhere pollers inside =>
    refine ⟨⟨?_, ?_⟩, Or.inl ?_⟩
    · exact Nat.lt_of_lt_of_eq inside List.length_set.symm
    · rw [Kernel.poller_withOthers inside]
      exact latched.poller
    · rw [pending, Kernel.poller_withOthers inside]
      rfl
  | broken =>
    refine ⟨latched.setPoller ⟨latched.poller.intact, latched.poller.registered,
      latched.poller.ready⟩, Or.inl ?_⟩
    rw [pending, Kernel.breakPoller, Kernel.poller_setPoller latched.inside]
    rfl

end Wired

theorem Session.latched {poller : PollerId} {history : List Turn} {wired : Wired}
    (session : Session poller history wired) : wired.kernel.Latched poller := by
  induction session with
  | start connection => exact (Kernel.Latched.created connection.created).1
  | step _ possible inductionHypothesis =>
    exact (Wired.Happens.latched inductionHypothesis (Wired.after?_some possible)).1

/-! ### Polls -/

/-- Whether a poll has not come to its callbacks yet. -/
def ContextStage.gathers : ContextStage → Bool
  | .preparing _ | .waiting _ | .collecting .. => true
  | _ => false

/-- Whether a poll has not come back from its wait yet. -/
def ContextStage.awaits : ContextStage → Bool
  | .preparing _ | .waiting _ => true
  | _ => false

theorem ContextStage.gathers_of_awaits {stage : ContextStage} (awaits : stage.awaits = true) :
    stage.gathers = true := by
  cases stage <;> first | rfl | cases awaits

theorem ContextStage.gathers_of_callsOut {stage : ContextStage} (outside : stage.callsOut = true) :
    stage.gathers = false := by
  cases stage <;> first | rfl | cases outside

theorem ContextStage.afterDelete_gathers (watch : Watch) (result : ContextResult) :
    (ContextStage.afterDelete watch result).gathers = false := by
  rcases afterDelete_cases watch result with ⟨-, same⟩ | ⟨callback, -, same⟩ <;> rw [same] <;> rfl

/-- Whether the turn is a wait that finds nothing: it goes on waiting, is interrupted or has waited
for as long as it may. -/
def Turn.waits (turn : Turn) : Bool :=
  match turn.event with
  | .interrupted | .timedOut => true
  | .served => turn.after.context.tasks.head?.any ContextStage.awaits
  | _ => false

/-- The events that a wait has reported in the turn. -/
def Turn.reported? (turn : Turn) : Option (List Event) :=
  match turn.before.context.tasks.head?, turn.after.context.tasks.head? with
  | some (.waiting _), some (.collecting events _) => some events
  | _, _ => none

/-- The events that an operation has collected. -/
def Operation.collected (operation : Operation) : List Event :=
  (operation.own.findSome? Turn.reported?).getD []

/-- How a poll gets as far as its callbacks, one turn after the other. -/
inductive GatherStep : ContextStage → ContextStage → Prop
  | prepare (timeout : Option Duration) : GatherStep (.preparing timeout) (.waiting timeout)
  | wait (timeout : Option Duration) : GatherStep (.waiting timeout) (.waiting timeout)
  | report (timeout : Option Duration) (events : List Event) :
    GatherStep (.waiting timeout) (.collecting events [])
  | collect (event : Event) (events : List Event) (before after : List (Token × Readiness)) :
    GatherStep (.collecting (event :: events) before) (.collecting events after)

theorem Context.Step.gathering {context next : Context} {rest : List ContextStage}
    {stage moved : ContextStage} {answer : ContextAnswer}
    (step : context.Step rest stage answer next) (after : next.tasks = moved :: rest)
    (gathers : moved.gathers = true) : GatherStep stage moved := by
  cases step
  case finish => exact absurd (congrArg List.length after) (Nat.ne_of_lt (Nat.lt_succ_self _))
  all_goals obtain rfl := (List.cons.inj after).1
  case delete watch | deleteFailed watch cause =>
    exact absurd (gathers.symm.trans (ContextStage.afterDelete_gathers watch _)) (by decide)
  case prepare => exact .prepare _
  case interrupt | report => exact .report _ _
  case drain | gather => exact .collect _ _ _ _
  all_goals cases gathers

namespace Wired

variable {poller : PollerId} {wired next : Wired} {event : SessionEvent} {stage : ContextStage}
  {rest : List ContextStage}

theorem Happens.gathering {moved : ContextStage} (happens : wired.Happens poller event next)
    (own : event.isOwn = true) (tasks : wired.context.tasks = stage :: rest)
    (after : next.context.tasks = moved :: rest) (gathers : moved.gathers = true) :
    GatherStep stage moved := by
  cases happens with
  | answered tasks' _ step | served tasks' _ _ step =>
    obtain ⟨rfl, rfl⟩ := List.cons.inj (tasks'.symm.trans tasks)
    exact step.gathering after gathers
  | waits tasks' =>
    obtain ⟨rfl, rfl⟩ := List.cons.inj (tasks'.symm.trans tasks)
    obtain ⟨rfl, -⟩ := List.cons.inj (tasks.symm.trans after)
    exact .wait _
  | interrupted tasks' | timedOut tasks' =>
    obtain ⟨rfl, rfl⟩ := List.cons.inj (tasks'.symm.trans tasks)
    obtain rfl := (List.cons.inj after).1
    exact .report _ _
  | _ => cases own

/-- A wait that finds nothing is one to which the system has answered so. -/
theorem Happens.waiting (happens : wired.Happens poller event next)
    (waits : Turn.waits { before := wired, event, after := next } = true) :
    ∃ timeout rest kernel, wired.context.tasks = .waiting timeout :: rest ∧
      wired.kernel.respond? poller (.wait wired.context.maxEvents (waitMillis timeout)) =
        some (.events [], kernel) := by
  cases happens with
  | waits tasks responds | interrupted tasks responds | timedOut tasks _ responds =>
    exact ⟨_, _, _, tasks, responds⟩
  | served tasks responds found step =>
    cases step
    case delete watch | deleteFailed watch cause =>
      have gathers := ContextStage.gathers_of_awaits waits
      exact absurd (gathers.symm.trans (ContextStage.afterDelete_gathers watch _)) (by decide)
    case prepare | finish => cases responds
    all_goals cases waits
  | _ => cases waits

end Wired

/-- What is known of an operation at some stage, as far as the wake signal goes. Only a poll gathers
events. An operation that was called with something in the counter never waits in vain, and until it
has come back from its wait there still is something in the counter. The events that a poll goes
through are some of those that it has collected. -/
structure Operation.Prompt (poller : PollerId) (wired : Wired) (operation : Operation)
    (stage : ContextStage) : Prop where
  polls : stage.gathers = true → ∃ timeout, operation.call = .poll timeout
  prompt : operation.start.pending poller ≠ 0 → ∀ turn ∈ operation.own, turn.waits = false
  pending : operation.start.pending poller ≠ 0 → stage.awaits = true → wired.pending poller ≠ 0
  collects : ∀ events ready, stage = .collecting events ready → events <:+ operation.collected

theorem ContextCall.Opens.polls {nextToken : Token} {call : ContextCall} {stage : ContextStage}
    (opens : call.Opens nextToken stage) (gathers : stage.gathers = true) :
    ∃ timeout, call = .poll timeout ∧ stage = .preparing timeout := by
  cases opens with
  | prepare timeout => exact ⟨timeout, rfl, rfl⟩
  | _ => cases gathers

/-- Every operation is prompt. -/
theorem Operation.prompt_followed (poller : PollerId) :
    Followed poller (fun _ => True) (Operation.Prompt poller) where
  fresh call session _ _ := by
    refine ⟨fun gathers => ?_, fun _ _ member => absurd member List.not_mem_nil,
      fun pending _ => pending, fun events ready same => ?_⟩
    · obtain ⟨timeout, polls, -⟩ := (call.first_opens _).polls gathers
      exact ⟨timeout, polls⟩
    · obtain ⟨timeout, -, first⟩ :=
        (call.first_opens _).polls (congrArg ContextStage.gathers same)
      cases first.symm.trans same
  own session _ _ tasks fits happens own after := by
    obtain ⟨polls, prompt, pending, collects⟩ := fits
    have latched := session.latched
    have gathering := happens.gathering own tasks after
    refine ⟨fun gathers => ?_, fun filled turn member => ?_, fun filled awaits => ?_, ?_⟩
    · cases gathering gathers <;> exact polls rfl
    · rcases List.mem_cons.mp member with rfl | member
      · refine Bool.eq_false_iff.mpr fun waits => ?_
        obtain ⟨timeout, rest, kernel, tasks', responds⟩ := happens.waiting waits
        obtain ⟨rfl, rfl⟩ := List.cons.inj (tasks'.symm.trans tasks)
        exact latched.finds (pending filled rfl) responds rfl
      · exact prompt filled turn member
    · obtain ⟨-, same | ⟨-, some⟩ | ⟨-, -, wake, events, ready, below, -, tasks', -⟩⟩ :=
        happens.latched latched
      · rw [same]
        cases gathering (ContextStage.gathers_of_awaits awaits) with
        | prepare | wait => exact pending filled rfl
        | _ => cases awaits
      · exact some
      · obtain ⟨rfl, -⟩ := List.cons.inj (tasks'.symm.trans tasks)
        cases gathering (ContextStage.gathers_of_awaits awaits)
        cases awaits
    · rintro events ready rfl
      cases gathering rfl with
      | report timeout =>
        simp only [collected, List.findSome?_cons, Turn.reported?, tasks, after, List.head?_cons]
        exact List.suffix_refl events
      | collect event _ before =>
        simp only [collected, List.findSome?_cons, Turn.reported?, tasks, after, List.head?_cons]
        exact (List.suffix_cons event events).trans (collects _ before rfl)
  aside session _ _ happens other fits := by
    obtain ⟨polls, prompt, pending, collects⟩ := fits
    refine ⟨polls, prompt, fun filled awaits => ?_, collects⟩
    obtain ⟨-, same | ⟨-, some⟩ | ⟨own, -⟩⟩ := happens.latched session.latched
    · exact same ▸ pending filled awaits
    · exact some
    · rcases other with outside | ⟨other, -⟩
      · have gathers := ContextStage.gathers_of_awaits awaits
        exact absurd (gathers.symm.trans (ContextStage.gathers_of_callsOut outside)) (by decide)
      · rw [own] at other
        cases other

/-- Whether the innermost operation is a poll that has not come to its callbacks yet. -/
def Context.gathers (context : Context) : Bool := context.tasks.head?.any ContextStage.gathers

/-- Nothing but the call of a poll makes events be gathered. -/
theorem Wired.Happens.gathers {poller : PollerId} {wired next : Wired} {event : SessionEvent}
    (orderly : wired.context.Orderly) (happens : wired.Happens poller event next)
    (idle : wired.context.gathers = false)
    (silent : ∀ timeout, event ≠ .called (.poll timeout)) : next.context.gathers = false := by
  cases own : event.isOwn with
  | true =>
    obtain ⟨stage, rest, tasks, ⟨moved, after⟩ | ⟨result, -, -, rfl⟩⟩ := happens.own_cases own
    · simp only [Context.gathers, tasks, after, List.head?_cons, Option.any_some] at idle ⊢
      refine Bool.eq_false_iff.mpr fun gathers => ?_
      cases happens.gathering own tasks after gathers <;> cases idle
    · have below := orderly.below
      rw [tasks] at below
      cases rest with
      | nil => rfl
      | cons top rest =>
        exact ContextStage.gathers_of_callsOut (below top List.mem_cons_self)
  | false =>
    obtain ⟨call, rfl, -, rfl⟩ | ⟨-, same⟩ := happens.other_cases own
    · rw [Context.begin_eq]
      refine Bool.eq_false_iff.mpr fun gathers => ?_
      obtain ⟨timeout, rfl, -⟩ := (call.first_opens _).polls gathers
      exact silent timeout rfl
    · rw [same]
      exact idle

/-- What has been sent while nothing was gathered is still there as long as no poll is called. -/
theorem Session.stays {poller : PollerId} {later earlier : List Turn} {signal : Turn}
    {wired : Wired} (session : Session poller (later ++ signal :: earlier) wired)
    (sent : signal.event = .signalled) (idle : signal.before.context.gathers = false)
    (silent : ∀ turn ∈ later, ∀ timeout, turn.event ≠ .called (.poll timeout)) :
    wired.pending poller ≠ 0 ∧ wired.context.gathers = false := by
  induction later generalizing wired with
  | nil =>
    cases session with
    | step session possible =>
      obtain rfl : _ = SessionEvent.signalled := sent
      cases Wired.after?_some possible
      exact ⟨(Session.latched session).signal.2, idle⟩
  | cons turn later inductionHypothesis =>
    cases session with
    | step session possible =>
      have happens := Wired.after?_some possible
      obtain ⟨filled, idle⟩ :=
        inductionHypothesis session fun turn member => silent turn (List.mem_cons_of_mem _ member)
      refine ⟨?_, happens.gathers (Session.orderly session) idle (silent _ List.mem_cons_self)⟩
      obtain ⟨-, same | ⟨-, some⟩ | ⟨-, -, wake, events, ready, rest, -, tasks, -⟩⟩ :=
        happens.latched (Session.latched session)
      · exact same ▸ filled
      · exact some
      · simp only [Context.gathers, tasks] at idle
        cases idle

/-- While something is in the counter a wait is answered at once. It reports events, unless the
system does not accept it. -/
theorem Wired.after?_waiting {poller : PollerId} {wired : Wired} {timeout : Option Duration}
    {rest : List ContextStage} (latched : wired.kernel.Latched poller)
    (filled : wired.pending poller ≠ 0) (tasks : wired.context.tasks = .waiting timeout :: rest) :
    ∃ next, wired.after? poller .served = some next ∧
      ((∃ event events, next.context.tasks = .collecting (event :: events) [] :: rest) ∨
        (∃ cause, next.context.tasks = .ended (.failed cause) :: rest) ∧
          (wired.context.maxEvents = 0 ∨ Kernel.mostEvents < wired.context.maxEvents ∨
            (wired.kernel.poller poller).usable = false)) := by
  obtain ⟨answer, kernel, responds⟩ : ∃ answer kernel, wired.kernel.respond? poller
      (.wait wired.context.maxEvents (waitMillis timeout)) = some (answer, kernel) :=
    ⟨_, _, rfl⟩
  have found := latched.finds filled responds
  cases Kernel.respond?_some responds with
  | waited =>
    cases events : ((wired.kernel.poller poller).list.wait (wired.kernel.conditions poller)
        wired.context.maxEvents).1 with
    | nil => exact absurd (congrArg ContextAnswer.events events) found
    | cons event events' =>
      refine ⟨_, after?_served tasks responds found rfl, Or.inl ⟨event, events', ?_⟩⟩
      rw [events]
      rfl
  | waitFailed _ _ cause refused =>
    exact ⟨_, after?_served tasks responds found rfl, Or.inr ⟨⟨cause, rfl⟩, refused⟩⟩

end MessagePump

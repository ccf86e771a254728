/-
This file proves that any number of signals count as one.

Two pollers that differ in the number in their counters, neither of them being zero, cannot be told
apart: no answer of the system depends on that number, and whatever happens to both leaves them with
numbers that differ at most in this way. The first drain makes them equal. So a context on the one
goes through exactly the same stages as a context on the other, and calls the same callbacks.
-/

import MessagePump.Proofs.Latching

namespace MessagePump

/-! ### Another number in the counter -/

/-- The poller with another number in its counter. -/
def Poller.recount (poller : Poller) (count : Nat) : Poller :=
  { poller with wake := { poller.wake with count } }

namespace Kernel

variable {kernel : Kernel} {id : PollerId}

/-- The system with another number in the counter of a poller. -/
def recount (kernel : Kernel) (id : PollerId) (count : Nat) : Kernel :=
  kernel.setPoller id ((kernel.poller id).recount count)

theorem recount_poller (inside : id < kernel.pollers.length) (count : Nat) :
    (kernel.recount id count).poller id = (kernel.poller id).recount count :=
  poller_setPoller inside _

theorem setPoller_setPoller (kernel : Kernel) (id : PollerId) (first second : Poller) :
    (kernel.setPoller id first).setPoller id second = kernel.setPoller id second := by
  simp only [setPoller, List.set_set]

theorem recount_setPoller (kernel : Kernel) (id : PollerId) (count : Nat) (poller : Poller) :
    (kernel.recount id count).setPoller id poller = kernel.setPoller id poller :=
  setPoller_setPoller kernel id _ poller

theorem setPoller_recount (inside : id < kernel.pollers.length) (poller : Poller) (count : Nat) :
    (kernel.setPoller id poller).recount id count = kernel.setPoller id (poller.recount count) := by
  rw [recount, poller_setPoller inside, setPoller_setPoller]

theorem withList_recount (inside : id < kernel.pollers.length) (list : InterestList)
    (count : Nat) :
    (kernel.recount id count).withList id list = (kernel.withList id list).recount id count := by
  rw [withList, recount_poller inside, recount_setPoller, withList, setPoller_recount inside]
  rfl

/-- The wake event is met with the one number as with the other. -/
theorem recount_conditions (inside : id < kernel.pollers.length) {count : Nat} (some : count ≠ 0)
    (filled : (kernel.poller id).wake.count ≠ 0) :
    (kernel.recount id count).conditions id = kernel.conditions id := by
  funext source
  cases source with
  | wake =>
    have left : (count != 0) = true := bne_iff_ne.mpr some
    have right : ((kernel.poller id).wake.count != 0) = true := bne_iff_ne.mpr filled
    simp only [conditions, recount_poller inside, Poller.recount, left, right]
  | file => rfl

theorem recount_pollable (inside : id < kernel.pollers.length) (count : Nat)
    (descriptor : Descriptor) :
    (kernel.recount id count).pollable id descriptor = kernel.pollable id descriptor := by
  simp only [pollable, recount_poller inside]
  rfl

/-- A number in the counter that is not zero keeps the wake signal latched. -/
theorem Latched.recount (latched : kernel.Latched id)
    (filled : (kernel.poller id).wake.count ≠ 0) (count : Nat) :
    (kernel.recount id count).Latched id :=
  latched.setPoller ⟨latched.poller.intact, latched.poller.registered,
    fun _ => latched.poller.ready filled⟩

/-! ### The system does not tell the numbers apart -/

/-- A change that succeeds or fails with the one number as with the other. -/
theorem answerChange_recount (count : Nat) (result : Except IoError Kernel) :
    (kernel.recount id count).answerChange (result.map fun after => after.recount id count) =
      ((kernel.answerChange result).1, (kernel.answerChange result).2.recount id count) := by
  cases result <;> rfl

theorem respond?_recount (latched : kernel.Latched id) {count : Nat} (some : count ≠ 0)
    (filled : (kernel.poller id).wake.count ≠ 0) {request : ContextRequest}
    (other : request ≠ .drain) :
    (kernel.recount id count).respond? id request =
      (kernel.respond? id request).map fun answer => (answer.1, answer.2.recount id count) := by
  have inside := latched.inside
  have pollable := recount_pollable inside count
  have conditions := recount_conditions inside some filled
  have list : ((kernel.recount id count).poller id).list = (kernel.poller id).list := by
    rw [recount_poller inside, Poller.recount]
  cases request with
  | add descriptor wanted token =>
    have same : (kernel.recount id count).register id descriptor wanted token =
        (kernel.register id descriptor wanted token).map fun after => after.recount id count := by
      unfold register
      rw [pollable, list, conditions]
      cases kernel.pollable id descriptor with
      | error cause => rfl
      | ok file =>
        simp only [bind, Except.bind]
        split
        · rfl
        · simp only [Except.map, withList_recount inside]
    simp only [respond?, same, answerChange_recount, Option.map_some]
  | modify descriptor wanted token =>
    have same : (kernel.recount id count).reregister id descriptor wanted token =
        (kernel.reregister id descriptor wanted token).map fun after =>
          after.recount id count := by
      unfold reregister
      rw [pollable, list, conditions]
      cases kernel.pollable id descriptor with
      | error cause => rfl
      | ok file =>
        simp only [bind, Except.bind]
        split
        · simp only [Except.map, withList_recount inside]
        · rfl
    simp only [respond?, same, answerChange_recount, Option.map_some]
  | delete descriptor =>
    have same : (kernel.recount id count).deregister id descriptor =
        (kernel.deregister id descriptor).map fun after => after.recount id count := by
      unfold deregister
      rw [pollable, list]
      cases kernel.pollable id descriptor with
      | error cause => rfl
      | ok file =>
        simp only [bind, Except.bind]
        split
        · simp only [Except.map, withList_recount inside]
        · rfl
    simp only [respond?, same, answerChange_recount, Option.map_some]
  | wait room millis =>
    have usable : ((kernel.recount id count).poller id).usable = (kernel.poller id).usable := by
      rw [recount_poller inside, Poller.recount]
    simp only [respond?, Kernel.wait, usable, list, conditions, Option.map_some]
    cases room = 0 || decide (mostEvents < room) || !(kernel.poller id).usable with
    | true => rfl
    | false => simp only [Bool.false_eq_true, if_false, withList_recount inside]
  | drain => exact absurd rfl other
  | _ => rfl

/-- A drain leaves nothing of the difference. -/
theorem respond?_drain_recount (latched : kernel.Latched id) (count : Nat) :
    (kernel.recount id count).respond? id .drain = kernel.respond? id .drain := by
  have intact : ((kernel.poller id).recount count).wake.target = .counter := latched.poller.intact
  simp only [respond?, drainWake, recount_poller latched.inside,
    WakeSource.drain_counter latched.poller.intact, WakeSource.drain_counter intact, Except.map,
    recount_setPoller]
  rfl

/-- A signal adds to the one number as to the other. -/
theorem signal_recount (latched : kernel.Latched id) (filled : (kernel.poller id).wake.count ≠ 0)
    {count : Nat} (some : count ≠ 0) :
    ∃ after, after ≠ 0 ∧
      ((kernel.recount id count).signal id).1 = (kernel.signal id).1.recount id after := by
  refine ⟨if count + 1 ≤ counterLimit then count + 1 else count, ?_, ?_⟩
  · split
    · exact Nat.succ_ne_zero count
    · exact some
  · rw [(latched.recount filled count).signal_eq, latched.signal_eq,
      setPoller_recount latched.inside,
      recount_setPoller, recount_poller latched.inside]
    rfl

theorem perform_recount (inside : id < kernel.pollers.length) (count : Nat) (call : SystemCall) :
    (kernel.recount id count).perform call = (kernel.perform call).recount id count := by
  obtain ⟨news, serves⟩ := kernel.perform_serves call
  have there := serves.heard (kernel.pollers.set id ((kernel.poller id).recount count))
  rw [List.map_set, ← serves.pollers] at there
  have same : ((kernel.perform call).poller id).recount count =
      ((kernel.poller id).recount count).hear news := by
    rw [(serves.poller inside).2]
    rfl
  rw [recount, setPoller, recount, setPoller, same]
  exact there

theorem withOthers_recount (inside : id < kernel.pollers.length) {pollers : List Poller}
    (room : id < pollers.length) (count : Nat) :
    (kernel.recount id count).withOthers id pollers =
      (kernel.withOthers id pollers).recount id count := by
  have set : ∀ (kernel : Kernel) (first second : Poller),
      kernel.withPollers (pollers.set id second) =
        (kernel.withPollers (pollers.set id first)).setPoller id second := by
    intro kernel first second
    simp only [setPoller, withPollers, List.set_set]
  have same : (kernel.withOthers id pollers).recount id count =
      (kernel.withOthers id pollers).setPoller id ((kernel.poller id).recount count) := by
    rw [recount, poller_withOthers room]
  rw [withOthers, recount_poller inside, same]
  exact set kernel _ _

theorem recount_recount (inside : id < kernel.pollers.length) (first second : Nat) :
    (kernel.recount id first).recount id second = kernel.recount id second := by
  rw [recount, recount_setPoller, recount_poller inside, recount]
  rfl

theorem recount_self (inside : id < kernel.pollers.length) :
    kernel.recount id (kernel.poller id).wake.count = kernel := by
  have same : kernel.pollers.set id (kernel.poller id) = kernel.pollers := by
    simp [Kernel.poller, List.getD_eq_getElem?_getD, inside]
  simp only [recount, setPoller, Poller.recount, same]

/-- When something is in the counter already, a signal changes nothing but the number. -/
theorem Latched.signal_filled (latched : kernel.Latched id)
    (filled : (kernel.poller id).wake.count ≠ 0) :
    ∃ count, count ≠ 0 ∧ (kernel.signal id).1 = kernel.recount id count := by
  refine ⟨if (kernel.poller id).wake.count + 1 ≤ counterLimit then (kernel.poller id).wake.count + 1
    else (kernel.poller id).wake.count, ?_, ?_⟩
  · split
    · exact Nat.succ_ne_zero _
    · exact filled
  · rw [latched.signal_eq, InterestList.join_of_mem (latched.poller.ready filled)]
    rfl

end Kernel

/-! ### What happens to both -/

/-- What can be seen of a turn from within the context: its stages before and after it, and with
them the callbacks that are called. -/
def Turn.seen (turn : Turn) : Context × SessionEvent × Context :=
  (turn.before.context, turn.event, turn.after.context)

namespace Wired

variable {poller : PollerId} {wired next : Wired} {event : SessionEvent}

/-- The same context on a poller with another number in its counter. -/
def recount (poller : PollerId) (wired : Wired) (count : Nat) : Wired :=
  { wired with kernel := wired.kernel.recount poller count }

/-- What is done to the context alone is done with the one number as with the other. -/
theorem answer?_recount (poller : PollerId) (wired : Wired) (count : Nat) (answer : ContextAnswer) :
    (wired.recount poller count).answer? answer =
      (wired.answer? answer).map fun next => next.recount poller count := by
  unfold answer? recount
  cases wired.context.advance? answer <;> rfl

/-- While something is in the counter, no wait finds nothing. -/
theorem idle?_filled (latched : wired.kernel.Latched poller) (filled : wired.pending poller ≠ 0) :
    wired.idle? poller = none := by
  refine Option.eq_none_iff_forall_not_mem.mpr fun idle nothing => ?_
  obtain ⟨timeout, rest, kernel, -, responds, -⟩ := idle?_some nothing
  exact latched.finds filled responds rfl

theorem pending_recount (latched : wired.kernel.Latched poller) (count : Nat) :
    (wired.recount poller count).pending poller = count := by
  rw [pending, recount, Kernel.recount_poller latched.inside]
  rfl

/-- Whatever can happen with the one number can happen with the other. Unless it is a drain, it
leaves a difference in the counter at most. -/
theorem after?_recount (latched : wired.kernel.Latched poller) (filled : wired.pending poller ≠ 0)
    {count : Nat} (nonzero : count ≠ 0) (event : SessionEvent)
    (other : ¬ (event = .served ∧ wired.context.request? = some .drain)) :
    ∃ after, after ≠ 0 ∧ (wired.recount poller count).after? poller event =
      (wired.after? poller event).map fun next => next.recount poller after := by
  have inside := latched.inside
  have never : ((wired.recount poller count).idle? poller) = none :=
    idle?_filled (latched.recount filled count)
      (by rw [pending_recount latched]; exact nonzero)
  cases event with
  | called call =>
    refine ⟨count, nonzero, ?_⟩
    by_cases yields : wired.context.yields = true <;> simp [after?, recount, yields]
  | answered answer =>
    refine ⟨count, nonzero, ?_⟩
    by_cases asks : wired.context.request?.any ContextRequest.asksSystem = true
    · have refused : wired.after? poller (.answered answer) = none := if_pos asks
      rw [refused]
      exact if_pos asks
    · have moved : wired.after? poller (.answered answer) = wired.answer? answer := if_neg asks
      rw [moved, ← answer?_recount]
      exact if_neg asks
  | served =>
    refine ⟨count, nonzero, ?_⟩
    simp only [after?, Option.bind_eq_bind]
    cases asked : wired.context.request? with
    | none => simp only [recount, asked, Option.bind_none, Option.map_none]
    | some request =>
      have native : request ≠ .drain := fun drains =>
        other ⟨rfl, asked.trans (congrArg some drains)⟩
      have responds := Kernel.respond?_recount latched nonzero filled native
      simp only [recount, asked, Option.bind_some, responds]
      cases wired.kernel.respond? poller request with
      | none => rfl
      | some answered =>
        obtain ⟨answer, kernel⟩ := answered
        have moved := answer?_recount poller { wired with kernel } count answer
        cases answer with
        | events reported =>
          cases reported with
          | nil => rfl
          | cons => exact moved
        | _ => exact moved
  | interrupted =>
    refine ⟨count, nonzero, ?_⟩
    simp only [after?, never, idle?_filled latched filled, Option.bind_none, Option.map_none]
  | timedOut =>
    refine ⟨count, nonzero, ?_⟩
    simp only [after?, never, idle?_filled latched filled, Option.bind_none, ite_self,
      Option.map_none]
  | signalled =>
    obtain ⟨after, filled', same⟩ := Kernel.signal_recount latched filled nonzero
    refine ⟨after, filled', ?_⟩
    simp only [after?, recount, same, Option.map_some]
  | changed call =>
    refine ⟨count, nonzero, ?_⟩
    simp only [after?, recount, Kernel.perform_recount inside, Option.map_some]
  | reordered ready =>
    refine ⟨count, nonzero, ?_⟩
    simp only [after?, recount, Kernel.reorder, Kernel.recount_poller inside,
      Kernel.withList_recount inside, Poller.recount]
    cases ready.isPerm (wired.kernel.poller poller).list.ready <;> rfl
  | elsewhere pollers =>
    refine ⟨count, nonzero, ?_⟩
    by_cases room : poller < pollers.length
    · simp only [after?, recount, if_pos room, Kernel.withOthers_recount inside room,
        Option.map_some]
    · simp only [after?, recount, if_neg room, Option.map_none]
  | broken =>
    refine ⟨count, nonzero, ?_⟩
    simp only [after?, recount, Kernel.breakPoller, Kernel.recount_poller inside,
      Kernel.recount_setPoller, Kernel.setPoller_recount inside, Option.map_some]
    rfl

/-- A drain leaves nothing of the difference. -/
theorem after?_drain_recount (latched : wired.kernel.Latched poller) (count : Nat)
    (drains : wired.context.request? = some .drain) :
    (wired.recount poller count).after? poller .served = wired.after? poller .served := by
  have answered : ∃ kernel, wired.kernel.respond? poller .drain = some (.done, kernel) := by
    simp only [Kernel.respond?, Kernel.drainWake,
      WakeSource.drain_counter latched.poller.intact, Except.map]
    exact ⟨_, rfl⟩
  obtain ⟨kernel, responds⟩ := answered
  have same := (Kernel.respond?_drain_recount latched count).trans responds
  simp only [after?, Option.bind_eq_bind, recount, drains, Option.bind_some, responds, same]

/-! ### Whole runs -/

/-- Two pollers that cannot be told apart, under the same context: they are equal but for the number
in the counter, which is not zero in either. -/
structure Alike (poller : PollerId) (first second : Wired) : Prop where
  latched : first.kernel.Latched poller
  same : first = second ∨ first.pending poller ≠ 0 ∧ ∃ count, count ≠ 0 ∧
    first.recount poller count = second

variable {first second : Wired}

theorem Alike.context (alike : Alike poller first second) : first.context = second.context := by
  rcases alike.same with rfl | ⟨-, count, -, rfl⟩ <;> rfl

/-- A drain is asked for at the wake event. -/
theorem Drains.request (drains : Drains poller wired event next) :
    event = .served ∧ wired.context.request? = some .drain := by
  obtain ⟨served, -, wake, events, ready, rest, token, tasks, -⟩ := drains
  refine ⟨served, (request?_cons tasks).trans ?_⟩
  simp only [Context.stageRequest, if_pos token]

/-- What happens to both leaves them alike, and equal after a drain. -/
theorem Alike.after (alike : Alike poller first second) (event : SessionEvent) :
    first.after? poller event = none ∧ second.after? poller event = none ∨
      ∃ next other, first.after? poller event = some next ∧
        second.after? poller event = some other ∧ Alike poller next other ∧
        (Drains poller first event next → next = other) := by
  have latched := alike.latched
  cases possible : first.after? poller event with
  | none =>
    refine Or.inl ⟨rfl, ?_⟩
    rcases alike.same with rfl | ⟨filled, count, nonzero, rfl⟩
    · exact possible
    by_cases drains : event = .served ∧ first.context.request? = some .drain
    · obtain ⟨rfl, asked⟩ := drains
      rw [after?_drain_recount latched count asked, possible]
    · obtain ⟨after, -, same⟩ := after?_recount latched filled nonzero event drains
      rw [same, possible, Option.map_none]
  | some next =>
    obtain ⟨kept, counter⟩ := (after?_some possible).latched latched
    refine Or.inr ⟨next, ?_⟩
    rcases alike.same with rfl | ⟨filled, count, nonzero, rfl⟩
    · exact ⟨next, rfl, possible, ⟨kept, Or.inl rfl⟩, fun _ => rfl⟩
    by_cases drains : event = .served ∧ first.context.request? = some .drain
    · obtain ⟨rfl, asked⟩ := drains
      exact ⟨next, rfl, (after?_drain_recount latched count asked).trans possible,
        ⟨kept, Or.inl rfl⟩, fun _ => rfl⟩
    · obtain ⟨after, nonzero', same⟩ := after?_recount latched filled nonzero event drains
      refine ⟨next.recount poller after, rfl, by rw [same, possible, Option.map_some],
        ⟨kept, Or.inr ⟨?_, after, nonzero', rfl⟩⟩, fun drained => absurd drained.request drains⟩
      rcases counter with unchanged | ⟨-, some⟩ | drained
      · rw [unchanged]
        exact filled
      · exact some
      · exact absurd drained.request drains

/-- The same events are possible for both, and they do the same to the context. Once the counters
have been drained, nothing is left of the difference. -/
theorem Alike.run (events : List SessionEvent) (alike : Alike poller first second) :
    first.run? poller events = none ∧ second.run? poller events = none ∨
      ∃ turns last others final, first.run? poller events = some (turns, last) ∧
        second.run? poller events = some (others, final) ∧
        turns.map Turn.seen = others.map Turn.seen ∧ Alike poller last final ∧
        (first = second ∨ (∃ turn ∈ turns, Drains poller turn.before turn.event turn.after) →
          last = final) := by
  unfold run?
  induction events generalizing first second with
  | nil =>
    refine Or.inr ⟨[], first, [], second, rfl, rfl, rfl, alike, ?_⟩
    rintro (same | ⟨turn, member, -⟩)
    · exact same
    · exact absurd member List.not_mem_nil
  | cons event events inductionHypothesis =>
    simp only [Chronicle.run?, Option.bind_eq_bind]
    obtain ⟨possible, possible'⟩ | ⟨next, other, possible, possible', after, drained⟩ :=
      alike.after event
    · exact Or.inl ⟨by rw [possible, Option.bind_none], by rw [possible', Option.bind_none]⟩
    rw [possible, possible', Option.bind_some, Option.bind_some]
    obtain ⟨ran, ran'⟩ | ⟨turns, last, others, final, ran, ran', seen, alike', equal⟩ :=
      inductionHypothesis after
    · exact Or.inl ⟨by rw [ran, Option.bind_none], by rw [ran', Option.bind_none]⟩
    rw [ran, ran']
    refine Or.inr ⟨_, last, _, final, rfl, rfl, ?_, alike', ?_⟩
    · simp only [List.map_cons, Turn.seen, alike.context, after.context, seen]
    · rintro (rfl | ⟨turn, member, drains⟩)
      · exact equal (Or.inl (Option.some.inj (possible.symm.trans possible')))
      · rcases List.mem_cons.mp member with rfl | member
        · exact equal (Or.inl (drained drains))
        · exact equal (Or.inr ⟨turn, member, drains⟩)

/-- Some signals, one right after the other. -/
def signals (poller : PollerId) (wired : Wired) : Nat → Wired
  | 0 => wired
  | times + 1 => signals poller { wired with kernel := (wired.kernel.signal poller).1 } times

/-- After the first signal the others make a difference in the counter only. -/
theorem signals_filled (latched : wired.kernel.Latched poller) (filled : wired.pending poller ≠ 0)
    (times : Nat) :
    ∃ count, count ≠ 0 ∧ wired.recount poller count = signals poller wired times := by
  induction times generalizing wired with
  | zero =>
    refine ⟨wired.pending poller, filled, ?_⟩
    simp only [recount, pending, Kernel.recount_self latched.inside, signals]
  | succ times inductionHypothesis =>
    obtain ⟨kept, filled'⟩ := latched.signal
    obtain ⟨first, -, same⟩ := latched.signal_filled filled
    have latched' : Kernel.Latched
        { wired with kernel := (wired.kernel.signal poller).1 }.kernel poller := kept
    obtain ⟨count, nonzero, rest⟩ := inductionHypothesis latched' filled'
    refine ⟨count, nonzero, ?_⟩
    rw [signals, ← rest]
    simp only [recount, same, Kernel.recount_recount latched.inside]

/-- Any number of signals leave what one signal leaves. -/
theorem signals_alike (latched : wired.kernel.Latched poller) {times : Nat} (some : times ≠ 0) :
    Alike poller (signals poller wired 1) (signals poller wired times) := by
  obtain ⟨more, rfl⟩ := Nat.exists_eq_succ_of_ne_zero some
  obtain ⟨kept, filled⟩ := latched.signal
  have latched' : Kernel.Latched
      { wired with kernel := (wired.kernel.signal poller).1 }.kernel poller := kept
  obtain ⟨count, nonzero, same⟩ := signals_filled latched' filled more
  exact ⟨kept, Or.inr ⟨filled, count, nonzero, same⟩⟩

end Wired

/-- The wake signal of a context latches. An operation that is called while something is in the
counter never waits in vain: a wait is then answered at once, by events or by the refusal of what
the system does not accept. The counter is emptied only by a poll that has collected the wake event.
A signal that is sent while nothing is gathered, as when callbacks run, is there until the next poll
is called. After any number of signals in a row the same events are possible as after one, and they
do the same to the context; once the counter has been drained everything is the same. -/
theorem Session.wake_signal_latches {poller : PollerId} {history : List Turn} {wired : Wired}
    (session : Session poller history wired) :
    (∀ operation, (operation ∈ operations history ∨
        ∃ result, (operation, result) ∈ outcomes history) →
      operation.start.pending poller ≠ 0 → ∀ turn ∈ operation.own, turn.waits = false) ∧
    (∀ operation others timeout rest, operations history = operation :: others →
      operation.start.pending poller ≠ 0 → wired.context.tasks = .waiting timeout :: rest →
      ∃ next, wired.after? poller .served = some next ∧
        ((∃ event events, next.context.tasks = .collecting (event :: events) [] :: rest) ∨
          (∃ cause, next.context.tasks = .ended (.failed cause) :: rest) ∧
            (wired.context.maxEvents = 0 ∨ Kernel.mostEvents < wired.context.maxEvents ∨
              (wired.kernel.poller poller).usable = false))) ∧
    (∀ later turn earlier, history = later ++ turn :: earlier →
      turn.before.pending poller ≠ 0 → turn.after.pending poller = 0 →
      ∃ operation others timeout, operations earlier = operation :: others ∧
        operation.call = .poll timeout ∧
        ∃ event ∈ operation.collected, event.token = wakeToken) ∧
    (∀ later signal earlier, history = later ++ signal :: earlier → signal.event = .signalled →
      signal.before.context.gathers = false →
      (∀ turn ∈ later, ∀ timeout, turn.event ≠ .called (.poll timeout)) →
      wired.pending poller ≠ 0) ∧
    ∀ times, times ≠ 0 → ∀ events,
      (wired.signals poller 1).run? poller events = none ∧
        (wired.signals poller times).run? poller events = none ∨
      ∃ turns last others final,
        (wired.signals poller 1).run? poller events = some (turns, last) ∧
        (wired.signals poller times).run? poller events = some (others, final) ∧
        turns.map Turn.seen = others.map Turn.seen ∧ last.context = final.context ∧
        ((∃ turn ∈ turns, Wired.Drains poller turn.before turn.event turn.after) →
          last = final) := by
  have followed := Operation.prompt_followed poller
  refine ⟨?_, ?_, ?_, ?_, ?_⟩
  · rintro operation (progress | ⟨result, returned⟩) filled
    · obtain ⟨stage, -, fits⟩ :=
        session.follow_mem followed (fun _ _ => trivial) operation progress
      exact fits.prompt filled
    · obtain ⟨ended, fits⟩ := session.follow_outcomes followed (fun _ _ => trivial) _ returned
      exact fits.prompt filled
  · intro operation others timeout rest progress filled tasks
    obtain ⟨innermost, _, progress', fits⟩ :=
      session.follow_top followed (fun _ _ => trivial) tasks
    obtain ⟨rfl, -⟩ := List.cons.inj (progress'.symm.trans progress)
    exact Wired.after?_waiting session.latched (fits.pending filled rfl) tasks
  · rintro later turn earlier rfl filled empty
    have before := session.before
    obtain ⟨-, same | ⟨-, some⟩ | ⟨-, -, wake, events, ready, rest, token, tasks, -⟩⟩ :=
      (Wired.after?_some session.possible).latched before.latched
    · exact absurd (same.symm.trans empty) filled
    · exact absurd empty some
    · obtain ⟨operation, others, progress, fits⟩ :=
        before.follow_top followed (fun _ _ => trivial) tasks
      obtain ⟨timeout, polls⟩ := fits.polls rfl
      exact ⟨operation, others, timeout, progress, polls, wake,
        (fits.collects _ ready rfl).subset List.mem_cons_self, token⟩
  · rintro later signal earlier rfl sent idle silent
    exact (session.stays sent idle silent).1
  · intro times some events
    rcases (Wired.signals_alike session.latched some).run events with
      refused | ⟨turns, last, others, final, ran, ran', seen, alike, equal⟩
    · exact Or.inl refused
    · exact Or.inr ⟨turns, last, others, final, ran, ran', seen, alike.context,
        fun drained => equal (Or.inr drained)⟩

/-- The buffer has room for one event. Two signals are sent before a poll, which collects the event
of a watch instead. Its callback sends a third one and polls again, and that poll drains. -/
def roomForOne : List SessionEvent :=
  [.called (.watch 0 .readable 7), .served, .answered .done, .answered .done, .signalled,
    .signalled, .called (.poll none), .answered .done, .served, .answered .done, .answered .done,
    .answered .done, .signalled, .called (.poll none), .answered .done, .served, .served]

theorem Session.wake_signal_latches_roomForOne :
    ∃ turn earlier operation others,
      (played [.openFile (.counter 1)] 1 roomForOne).1 = turn :: earlier ∧
        operations earlier = operation :: others ∧ others.length = 1 ∧
        operation.start.pending 0 = 3 ∧ turn.after.pending 0 = 0 ∧
        (∀ own ∈ operation.own, own.waits = false) ∧
        ∃ event ∈ operation.collected, event.token = wakeToken := by
  have split : (played [.openFile (.counter 1)] 1 roomForOne).1 =
      [] ++ (played [.openFile (.counter 1)] 1 roomForOne).1.get ⟨0, by decide⟩ ::
        (played [.openFile (.counter 1)] 1 roomForOne).1.drop 1 := rfl
  have session := Session.of_played [.openFile (.counter 1)] 1 roomForOne rfl rfl
  rw [split] at session
  obtain ⟨-, -, reset, -⟩ := Session.wake_signal_latches session
  obtain ⟨operation, others, -, progress, -, collected⟩ :=
    reset [] _ _ rfl (by decide) (by decide)
  have two : (operations ((played [.openFile (.counter 1)] 1 roomForOne).1.drop 1)).map
      (fun operation => operation.start.pending 0) = [3, 2] := by decide
  rw [progress, List.map_cons, List.cons.injEq] at two
  have nested : others.length = 1 := by
    rw [← List.length_map fun operation : Operation => operation.start.pending 0, two.2]
    rfl
  obtain ⟨never, -⟩ := Session.wake_signal_latches session.before
  have own := never operation (Or.inl (progress ▸ List.mem_cons_self))
    (two.1 ▸ by decide)
  exact ⟨_, _, operation, others, split, progress, nested, two.1, by decide, own, collected⟩

end MessagePump

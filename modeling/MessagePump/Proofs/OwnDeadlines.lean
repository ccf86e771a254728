/-
This file proves that no loop waits for a deadline that is not its own.

The recorded deadline is one cell, and the loop of a nested run overwrites and clears it. The loop
around that run goes on with whatever it finds there, and the cell alone would make it wait for the
wrong moment. What prevents this is the wake that a nested run forwards when it leaves: the next
poll of the enclosing context does not wait, and the delegate is consulted again before there is
another.

The invariant therefore concerns a loop between the return of its delayed work and its poll. Either
the recorded deadline is its own, or a wake is latched at its context or owed to it by a run that is
still inside.
-/

import MessagePump.Proofs.Deadlines
import MessagePump.Proofs.WakeUps

namespace MessagePump

/-! ### The deadline of a loop -/

/-- Delayed work of the invocation at a depth returns a deadline. -/
structure Move.LeavesDeadline (depth : Nat) (left : Option Instant) (move : Move) : Prop where
  asked : ∃ lent, move.before.request? = some (.delayed lent)
  returned : ∃ did, move.event = .answered (.workedUntil did left)
  before : move.before.stack.length = depth

/-- The own deadline of the invocation at a depth: its delayed work has returned one, and since then
it has not left, and whatever has been recorded was scheduled. -/
def OwnDeadline (depth : Nat) (deadline : Option Instant) (history : List Move) : Prop :=
  ∃ since returned earlier left, history = since ++ returned :: earlier ∧
    returned.LeavesDeadline depth left ∧
    (∀ move ∈ since, depth ≤ move.after.stack.length ∧
      ∀ value, move.records? = some value → ∃ scheduled, move.event = .deadlineSet scheduled) ∧
    deadline = recordedAfter left since

/-- The points of a loop between the return of its delayed work and its poll. -/
def LoopPoint.beforeWait : LoopPoint → Bool
  | .idle | .timing _ => true
  | _ => false

/-- A wake is latched at a context or owed to it. -/
def Due (context : ContextId) (history : List Move) (stack : List Invocation) : Prop :=
  latched context history = true ∨ Owes context stack

/-- The invariant: every loop that may be about to wait would wait for its own deadline, or a wake
is due to it. -/
def Governed (history : List Move) (pump : Pump) : Prop :=
  ∀ top rest, top :: rest <:+ pump.stack → ∀ held point, top.stage = .working held point →
    point.beforeWait = true →
      OwnDeadline (rest.length + 1) pump.deadline history ∨ Due held history pump.stack

/-! ### What a move leaves as it is -/

theorem OwnDeadline.cons {depth : Nat} {history : List Move} {move : Move}
    (own : OwnDeadline depth move.before.deadline history)
    (inside : depth ≤ move.after.stack.length)
    (scheduled : ∀ value, move.records? = some value →
      ∃ deadline, move.event = .deadlineSet deadline)
    (happens : move.before.Happens move.event move.after) :
    OwnDeadline depth move.after.deadline (move :: history) := by
  obtain ⟨since, returned, earlier, left, rfl, leaves, quiet, deadline⟩ := own
  refine ⟨move :: since, returned, earlier, left, rfl, leaves,
    List.forall_mem_cons.mpr ⟨⟨inside, scheduled⟩, quiet⟩, ?_⟩
  rw [recordedAfter_cons, ← deadline]
  exact happens.records

theorem Owes.of_suffix {context : ContextId} {stack below : List Invocation}
    (owed : Owes context below) (suffix : below <:+ stack) : Owes context stack := by
  induction stack with
  | nil => exact List.suffix_nil.mp suffix ▸ owed
  | cons top rest inductionHypothesis =>
    rcases List.suffix_cons_iff.mp suffix with rfl | inner
    · exact owed
    · exact Or.inr (inductionHypothesis inner)

theorem Due.cons {context : ContextId} {history : List Move} {move : Move}
    (due : Due context history move.before.stack)
    (unread : move.event = .noticed → move.before.polled? ≠ some context)
    (owes : Owes context move.before.stack →
      latched context (move :: history) = true ∨ Owes context move.after.stack) :
    Due context (move :: history) move.after.stack :=
  due.elim (fun wake => Or.inl (latched_cons wake unread)) owes

/-- Only a loop records something when it is answered. -/
theorem Stage.records?_some {stage : Stage} {answer : Answer} {value : Option Instant}
    (records : stage.records? answer = some value) : ∃ held point, stage = .working held point := by
  cases stage with
  | working held point => exact ⟨held, point, rfl⟩
  | _ => cases records

/-- Of what is not an answer, only a deadline that is scheduled is recorded. -/
theorem Move.records?_unanswered {move : Move} {value : Option Instant}
    (other : ∀ answer, move.event ≠ .answered answer) (records : move.records? = some value) :
    ∃ deadline, move.event = .deadlineSet deadline := by
  unfold records? at records
  split at records
  · next deadline scheduled => exact ⟨deadline, scheduled⟩
  · next answer answered => exact absurd answered (other answer)
  · cases records

section

variable {history : List Move} {pump next : Pump}

/-- While a loop is innermost, a wake is owed to every loop around it. -/
theorem Pump.Layered.owes_around {contexts : List (Option ContextId)} {top other : Invocation}
    {rest : List Invocation} {held context : ContextId} {point elsewhere : LoopPoint}
    (layered : pump.Layered contexts) (sound : pump.Sound) (stack : pump.stack = top :: rest)
    (works : top.stage = .working held point) (member : other ∈ rest)
    (stage : other.stage = .working context elsewhere) : Owes context pump.stack := by
  have bound := sound.bound
  rcases bound.slot_or_owes (stack ▸ List.mem_cons_of_mem top member) stage with slot | owed
  · rw [stack] at bound
    obtain ⟨-, binds, -⟩ := bound
    simp only [Invocation.Binds, works] at binds
    obtain rfl : held = context := (binds.1.trans binds.2.1.symm).trans slot
    exact absurd stage (layered.loops_differ sound stack works member elsewhere)
  · exact owed

/-- A loop that may be about to wait is not the one that polls. -/
theorem Pump.Layered.polls_other {contexts : List (Option ContextId)} {top : Invocation}
    {rest : List Invocation} {held : ContextId} {point : LoopPoint}
    (layered : pump.Layered contexts) (sound : pump.Sound)
    (present : top :: rest <:+ pump.stack) (stage : top.stage = .working held point)
    (before : point.beforeWait = true) : pump.polled? ≠ some held := by
  intro polled
  obtain ⟨innermost, below, timeout, stack, polls⟩ := polled?_some polled
  rw [stack] at present
  rcases List.suffix_cons_iff.mp present with mine | outer
  · obtain ⟨rfl, -⟩ := List.cons.inj mine
    cases stage.symm.trans polls
    cases before
  · have member : top ∈ below := outer.subset List.mem_cons_self
    exact layered.loops_differ sound stack polls member point stage

/-- What is owed to a context is due to it after a step of the innermost invocation. -/
theorem Pump.RunStep.due {top : Invocation} {rest : List Invocation} {answer : Answer}
    {context : ContextId} (sound : pump.Sound) (stack : pump.stack = top :: rest)
    (step : pump.RunStep top rest top.stage answer next)
    (intact : ∀ gone message, pump.request? = some (.destroy gone) → answer ≠ .panicked message)
    (owed : Owes context pump.stack) :
    Due context ({ before := pump, event := .answered answer, after := next } :: history)
      next.stack :=
  (step.owes sound stack intact owed).imp_left latched_of_signal

/-! ### The invariant -/

/-- A loop around the innermost invocation keeps its own deadline through a step of that, or a wake
is due to it. -/
theorem Governed.around {contexts : List (Option ContextId)} {top : Invocation}
    {rest : List Invocation} {answer : Answer} (governed : Governed history pump)
    (layered : pump.Layered contexts) (sound : pump.Sound) (stack : pump.stack = top :: rest)
    (step : pump.RunStep top rest top.stage answer next)
    (intact : ∀ gone message, pump.request? = some (.destroy gone) → answer ≠ .panicked message)
    {inner : Invocation} {below : List Invocation} (outer : inner :: below <:+ rest)
    (stays : rest.length ≤ next.stack.length) {held : ContextId} {point : LoopPoint}
    (stage : inner.stage = .working held point) (before : point.beforeWait = true) :
    OwnDeadline (below.length + 1) next.deadline
        ({ before := pump, event := .answered answer, after := next } :: history) ∨
      Due held ({ before := pump, event := .answered answer, after := next } :: history)
        next.stack := by
  have present : inner :: below <:+ pump.stack := by
    rw [stack]
    exact outer.trans (List.suffix_cons top rest)
  cases records : top.stage.records? answer with
  | some value =>
    -- The innermost invocation is in its loop, so the wake that it will forward is still to come.
    obtain ⟨context, elsewhere, works⟩ := Stage.records?_some records
    have member : inner ∈ rest := outer.subset List.mem_cons_self
    exact Or.inr (step.due sound stack intact (layered.owes_around sound stack works member stage))
  | none =>
    refine (governed inner below present held point stage before).imp (fun own => ?_) fun due => ?_
    · refine own.cons (Nat.le_trans outer.length_le stays) (fun value recorded => ?_)
        (.answered stack step)
      simp only [Move.records?, stack, List.head?_cons, Option.bind_some, records] at recorded
      cases recorded
    · exact Due.cons due PumpEvent.noConfusion (step.due sound stack intact)

/-- The innermost loop has its own deadline once its delayed work has returned, and keeps it while
it goes on to its poll. -/
theorem Governed.innermost {top moved : Invocation} {rest : List Invocation} {answer : Answer}
    (governed : Governed history pump) (sound : pump.Sound) (stack : pump.stack = top :: rest)
    (step : pump.RunStep top rest top.stage answer next) (kept : next.stack = moved :: rest)
    (intact : ∀ gone message, pump.request? = some (.destroy gone) → answer ≠ .panicked message)
    {held : ContextId} {point : LoopPoint} (stage : moved.stage = .working held point)
    (before : point.beforeWait = true) :
    OwnDeadline (rest.length + 1) next.deadline
        ({ before := pump, event := .answered answer, after := next } :: history) ∨
      Due held ({ before := pump, event := .answered answer, after := next } :: history)
        next.stack := by
  have depth : pump.stack.length = rest.length + 1 := by rw [stack, List.length_cons]
  rcases step.loop_cases kept stage with ⟨-, rfl⟩ | ⟨was, works, loop⟩
  · cases before
  · generalize recorded : next.deadline = deadline at loop ⊢
    cases loop with
    | passDelayed lent deadline going =>
      refine Or.inl ⟨[], _, history, deadline, rfl, ⟨⟨lent, ?_⟩, ⟨false, rfl⟩, depth⟩,
        List.forall_mem_nil _, rfl⟩
      rw [Pump.request?, stack, List.head?_cons, Option.map_some, works]
      rfl
    | lookAtClock deadline going some =>
      rw [← recorded]
      refine (governed top rest (stack ▸ List.suffix_refl _) held .idle works rfl).imp
        (fun own => ?_) fun due => ?_
      · refine own.cons ?_ (fun value records => ?_) (.answered stack step)
        · rw [kept]
          exact Nat.le_refl _
        · simp only [Move.records?, stack, List.head?_cons, Option.bind_some, works] at records
          cases records
      · exact Due.cons due PumpEvent.noConfusion (step.due sound stack intact)
    | _ => cases before

/-- A step of the innermost invocation keeps the invariant. -/
theorem Governed.run_step {contexts : List (Option ContextId)} {top : Invocation}
    {rest : List Invocation} {answer : Answer} (governed : Governed history pump)
    (layered : pump.Layered contexts) (sound : pump.Sound) (stack : pump.stack = top :: rest)
    (step : pump.RunStep top rest top.stage answer next)
    (intact : ∀ gone message, pump.request? = some (.destroy gone) → answer ≠ .panicked message) :
    Governed ({ before := pump, event := .answered answer, after := next } :: history) next := by
  intro inner below present held point stage before
  rcases step.stack_cases with ⟨moved, -, kept⟩ | ⟨-, left⟩
  · rw [kept] at present
    rcases List.suffix_cons_iff.mp present with mine | outer
    · obtain ⟨rfl, rfl⟩ := List.cons.inj mine
      exact governed.innermost sound stack step kept intact stage before
    · have stays : rest.length ≤ next.stack.length := by
        rw [kept]
        exact Nat.le_succ rest.length
      exact governed.around layered sound stack step intact outer stays stage before
  · subst left
    exact governed.around layered sound stack step intact present (Nat.le_refl _) stage before

/-- What is not an answer leaves the loops on the stack where they are and keeps the invariant. -/
theorem Governed.unanswered {contexts : List (Option ContextId)} {event : PumpEvent}
    (governed : Governed history pump) (layered : pump.Layered contexts) (sound : pump.Sound)
    (happens : pump.Happens event next) (other : ∀ answer, event ≠ .answered answer)
    (grown : pump.stack <:+ next.stack)
    (loops : ∀ top rest, top :: rest <:+ next.stack → ∀ held point,
      top.stage = .working held point → top :: rest <:+ pump.stack) :
    Governed ({ before := pump, event, after := next } :: history) next := by
  intro top rest present held point stage before
  have was := loops top rest present held point stage
  refine (governed top rest was held point stage before).imp (fun own => ?_) fun due => ?_
  · exact own.cons present.length_le (fun _ => Move.records?_unanswered other) happens
  · exact Due.cons due (fun _ => layered.polls_other sound was stage before)
      fun owed => Or.inr (owed.of_suffix grown)

end

theorem Execution.governed {history : List Move} {pump : Pump}
    (execution : Execution history pump)
    (intact : ∀ move ∈ history, move.failsToDestroy = false) : Governed history pump := by
  induction execution with
  | start name =>
    intro top rest present
    exact absurd (List.suffix_nil.mp present) (List.cons_ne_nil top rest)
  | @step history pump event next execution possible inductionHypothesis =>
    obtain ⟨unharmed, intact⟩ := List.forall_mem_cons.mp intact
    have governed := inductionHypothesis intact
    cases Pump.after?_some possible with
    | @answered _ _ answer _ stack step =>
      refine governed.run_step (Execution.layered execution) (Execution.sound execution) stack step
        ?_
      intro gone message asked panicked
      simp only [Move.failsToDestroy, asked, panicked, Bool.true_eq_false] at unharmed
    | entered yields alive running =>
      refine governed.unanswered (Execution.layered execution) (Execution.sound execution)
        (Pump.after?_some possible) (fun _ => PumpEvent.noConfusion) (List.suffix_cons _ _) ?_
      intro top rest present held point stage
      rcases List.suffix_cons_iff.mp present with mine | outer
      · obtain ⟨rfl, -⟩ := List.cons.inj mine
        dsimp only at stage
        split at stage <;> cases stage
      · exact outer
    | _ =>
      exact governed.unanswered (Execution.layered execution) (Execution.sound execution)
        (Pump.after?_some possible) (fun _ => PumpEvent.noConfusion) (List.suffix_refl _)
        fun _ _ present _ _ _ => present

/-! ### No wait for another deadline -/

/-- A loop begins a poll of its context while nothing is latched there, so the poll waits. It waits
until the deadline that its own delegate left when it was last asked for delayed work, or until one
that has been scheduled since; in between no loop, of this run or of a nested one, has recorded
anything. The destruction of a context is taken not to panic. -/
theorem Execution.own_deadline {later earlier : List Move} {poll : Move} {pump : Pump}
    {context : ContextId} {timeout : Option Duration}
    (execution : Execution (later ++ poll :: earlier) pump)
    (intact : ∀ move ∈ poll :: earlier, move.failsToDestroy = false)
    (polls : poll.asks? = some (.poll context timeout))
    (unlatched : latched context (poll :: earlier) = false) :
    ∃ since returned before left, earlier = since ++ returned :: before ∧
      returned.LeavesDeadline poll.before.stack.length left ∧
      (∀ move ∈ since, poll.before.stack.length ≤ move.after.stack.length ∧
        ∀ value, move.records? = some value → ∃ scheduled, move.event = .deadlineSet scheduled) ∧
      poll.WaitsUntil timeout (recordedAfter left since) := by
  have reached := execution.before
  have governed := reached.governed (List.forall_mem_cons.mp intact).2
  obtain ⟨answer, top, moved, rest, answered, stack, step, kept, asked⟩ :=
    execution.after.asked polls
  obtain ⟨held, point, works, ready⟩ :
      ∃ held point, top.stage = .working held point ∧ point.beforeWait = true ∧ held = context := by
    rcases step.loop_cases kept (Stage.request_poll asked) with ⟨-, early⟩ | ⟨point, works, loop⟩
    · cases early
    · generalize poll.after.deadline = deadline at loop
      cases loop with
      | waitForever => exact ⟨context, .idle, works, rfl, rfl⟩
      | waitUntil => exact ⟨context, _, works, rfl, rfl⟩
  obtain ⟨ready, rfl⟩ := ready
  have goes := execution.after.goes_by.2 held timeout polls
  have quiet : latched held earlier = false := by
    refine Bool.eq_false_iff.mpr fun wake => ?_
    refine absurd (latched_cons wake ?_) (Bool.eq_false_iff.mp unlatched)
    exact fun noticed => PumpEvent.noConfusion (answered.symm.trans noticed)
  rcases governed top rest (stack ▸ List.suffix_refl _) held point works ready with
    own | wake | owed
  · obtain ⟨since, returned, before, left, split, leaves, undisturbed, deadline⟩ := own
    rw [deadline] at goes
    rw [stack, List.length_cons]
    exact ⟨since, returned, before, left, split, leaves, undisturbed, goes⟩
  · exact absurd (wake.symm.trans quiet) (by decide)
  · obtain ⟨own, others, contexts, -, mine, -⟩ := reached.recorded_cons stack
    have layered := reached.layered
    rw [contexts] at layered
    rw [works] at mine
    exact absurd (layered.older mine (owed.recorded layered.recorded)) (Nat.lt_irrefl held)

/-- A run that is nested in idle work clears the deadline that the outer delegate has just left. The
outer poll takes notice of the forwarded wake, and only the one after it waits, until the deadline
that the delegate has left again. -/
def nestedClear : List PumpEvent :=
  [.entered, .answered .done, .answered (.worked false),
    .answered (.workedUntil false (some 5000000)), .entered, .answered .created, .answered .done,
    .answered .done, .answered .done, .answered .done, .answered .done, .answered (.worked false),
    .quit, .answered (.workedUntil false none), .answered .done, .answered .done, .answered .done,
    .answered .done, .answered .done, .answered .done, .answered .done, .answered (.worked false),
    .noticed, .answered .done, .answered (.worked false),
    .answered (.workedUntil false (some 5000000)), .answered (.worked false), .answered (.time 0)]

theorem Execution.own_deadline_nestedClear :
    ∃ poll earlier, (replayed nestedClear).1 = poll :: earlier ∧
      poll.asks? = some (.poll 0 (some 5000000)) ∧ latched 0 (poll :: earlier) = false ∧
      ∃ since returned before left, earlier = since ++ returned :: before ∧
        returned.LeavesDeadline 1 left ∧
        (∀ move ∈ since, 1 ≤ move.after.stack.length ∧
          ∀ value, move.records? = some value → ∃ scheduled, move.event = .deadlineSet scheduled) ∧
        poll.WaitsUntil (some 5000000) (recordedAfter left since) := by
  have split : (replayed nestedClear).1 =
      [] ++ (replayed nestedClear).1.get ⟨0, by decide⟩ :: (replayed nestedClear).1.tail := rfl
  have execution := Execution.of_replayed nestedClear
  rw [split] at execution
  have unlatched : latched 0 ((replayed nestedClear).1.get ⟨0, by decide⟩ ::
      (replayed nestedClear).1.tail) = false := by decide
  have polls : ((replayed nestedClear).1.get ⟨0, by decide⟩).asks? =
      some (.poll 0 (some 5000000)) := by decide
  exact ⟨_, _, split, polls, unlatched,
    Execution.own_deadline execution (by decide) polls unlatched⟩

end MessagePump

/-
This file follows the recorded deadline, one cell that all runs of a pump share.

Three things are written into the cell: a deadline that is scheduled, what a loop gets back from
delayed work, and nothing at all once a deadline has passed. `Move.records?` tells which of them a
move does, and the cell always holds what was written last. Delayed work is handed what the cell
holds, and a poll waits until then. Hence a scheduled deadline is used unless something replaces it.

What a loop gets back is written even if the delegate has left it as it was lent. The loan is a
copy, made before the delegate runs, so a deadline that is scheduled while delayed work is being
done, by that work itself or by a run that is nested in it, gives way to the older one.
-/

import MessagePump.Proofs.Execution

namespace MessagePump

/-! ### What is written into the cell -/

/-- What a loop records as the deadline when a request of it is answered: the value that delayed
work returns, and nothing once the deadline has passed. -/
def Stage.records? : Stage → Answer → Option (Option Instant)
  | .working _ (.delayed _ _), .workedUntil _ deadline => some deadline
  | .working _ (.timing deadline), .time now =>
    if remaining deadline now = 0 then some none else none
  | _, _ => none

/-- What a move records as the deadline, if it records any. -/
def Move.records? (move : Move) : Option (Option Instant) :=
  match move.event with
  | .deadlineSet deadline => some (some deadline)
  | .answered answer => move.before.stack.head?.bind fun top => top.stage.records? answer
  | _ => none

/-- What is recorded after some moves, the latest first, if `first` was recorded before them. -/
def recordedAfter (first : Option Instant) (moves : List Move) : Option Instant :=
  (moves.findSome? Move.records?).getD first

theorem recordedAfter_cons (first : Option Instant) (move : Move) (moves : List Move) :
    recordedAfter first (move :: moves) = move.records?.getD (recordedAfter first moves) := by
  unfold recordedAfter
  rw [List.findSome?_cons]
  cases move.records? <;> rfl

theorem LoopStep.records {running : Bool} {recorded deadline : Option Instant} {held : ContextId}
    {point : LoopPoint} {answer : Answer} {stage : Stage}
    (step : LoopStep running recorded held point answer deadline stage) :
    deadline = ((Stage.working held point).records? answer).getD recorded := by
  cases step with
  | expire deadline now passed => simp only [Stage.records?, if_pos passed, Option.getD_some]
  | waitUntil deadline now ahead => simp only [Stage.records?, if_neg ahead, Option.getD_none]
  | panicked point => cases point <;> rfl
  | _ => rfl

theorem Pump.RunStep.records {pump next : Pump} {top : Invocation} {rest : List Invocation}
    {stage : Stage} {answer : Answer} (step : pump.RunStep top rest stage answer next) :
    next.deadline = (stage.records? answer).getD pump.deadline := by
  cases step with
  | loop held point answer deadline stage step => exact step.records
  | conflict stage taken atCell =>
    rcases atCell with rfl | ⟨made, saved, rfl⟩ | ⟨outcome, rfl⟩ <;> rfl
  | _ => rfl

/-- Nothing else changes the cell. -/
theorem Pump.Happens.records {pump next : Pump} {event : PumpEvent}
    (happens : pump.Happens event next) :
    next.deadline =
      (Move.records? { before := pump, event, after := next }).getD pump.deadline := by
  cases happens with
  | answered stack step =>
    rw [step.records, Move.records?, stack]
    rfl
  | _ => rfl

/-- The cell holds what was written last. -/
theorem Execution.recorded_since {later earlier : List Move} {move : Move} {pump : Pump}
    (execution : Execution (later ++ move :: earlier) pump) :
    pump.deadline = recordedAfter move.after.deadline later := by
  induction later generalizing pump with
  | nil =>
    cases execution with
    | step => rfl
  | cons latest later inductionHypothesis =>
    cases execution with
    | step execution possible =>
      rw [recordedAfter_cons, ← inductionHypothesis execution]
      exact (Pump.after?_some possible).records

/-! ### What the cell is used for -/

/-- A loop that looks at the clock does so for the recorded deadline, and no run can be nested in
that. -/
def Pump.Clocked (pump : Pump) : Prop :=
  ∀ top rest, pump.stack = top :: rest →
    (∀ held deadline, top.stage = .working held (.timing deadline) →
      pump.deadline = some deadline) ∧
    ∀ invocation ∈ rest, ∀ held deadline, invocation.stage ≠ .working held (.timing deadline)

/-- Code outside the pump does not have its thread while a loop looks at the clock. -/
theorem Pump.not_timing {pump : Pump} {top : Invocation} {rest : List Invocation}
    (yields : pump.yields = true) (stack : pump.stack = top :: rest) (held : ContextId)
    (deadline : Instant) : top.stage ≠ .working held (.timing deadline) := by
  intro timing
  rw [Pump.yields, request?, stack, List.head?_cons, Option.map_some, timing] at yields
  cases yields

theorem Execution.clocked {history : List Move} {pump : Pump}
    (execution : Execution history pump) : pump.Clocked := by
  induction execution with
  | start name =>
    intro top rest stack
    cases stack
  | @step _ pump _ next _ possible inductionHypothesis =>
    cases Pump.after?_some possible with
    | @answered top rest _ _ stack step =>
      obtain ⟨-, outer⟩ := inductionHypothesis top rest stack
      rcases step.stack_cases with ⟨moved, -, kept⟩ | ⟨-, rfl⟩
      · intro now below present
        obtain ⟨rfl, rfl⟩ := List.cons.inj (kept.symm.trans present)
        refine ⟨fun held deadline timing => ?_, outer⟩
        rcases step.loop_cases kept timing with ⟨-, early⟩ | ⟨before, -, step⟩
        · cases early
        · generalize next.deadline = recorded at step ⊢
          cases step with
          | lookAtClock deadline going recorded => exact recorded
      · intro now below present
        have callsOut : ∀ invocation ∈ now :: below, ∀ held deadline,
            invocation.stage ≠ .working held (.timing deadline) := present ▸ outer
        exact ⟨fun held deadline timing => absurd timing (callsOut now (.head _) held deadline),
          fun invocation member => callsOut invocation (.tail _ member)⟩
    | entered yields =>
      intro now below present
      obtain ⟨rfl, rfl⟩ := List.cons.inj present
      refine ⟨fun held deadline timing => ?_, fun invocation member => ?_⟩
      · dsimp only at timing
        split at timing <;> cases timing
      · cases stack : pump.stack with
        | nil =>
          rw [stack] at member
          cases member
        | cons top rest =>
          rw [stack] at member
          rcases List.mem_cons.mp member with rfl | member
          · exact Pump.not_timing yields stack
          · exact (inductionHypothesis top rest stack).2 invocation member
    | deadlineSet yields =>
      intro top rest stack
      exact ⟨fun held deadline timing => absurd timing (Pump.not_timing yields stack held deadline),
        (inductionHypothesis top rest stack).2⟩
    | _ => exact inductionHypothesis

/-- A poll that begins with a move waits until a deadline, or for ever if there is none. The wait is
measured from the moment at which the clock was looked at, and the deadline was ahead then. -/
def Move.WaitsUntil (move : Move) (timeout : Option Duration) : Option Instant → Prop
  | none => timeout = none
  | some deadline =>
    ∃ now, move.event = .answered (.time now) ∧ remaining deadline now ≠ 0 ∧
      timeout = some (remaining deadline now)

/-- A move goes by a deadline: if it asks for delayed work, the deadline is handed over, and if it
begins a poll, the poll waits until the deadline. -/
def Move.GoesBy (deadline : Option Instant) (move : Move) : Prop :=
  (∀ lent, move.asks? = some (.delayed lent) → lent = deadline) ∧
    ∀ context timeout, move.asks? = some (.poll context timeout) → move.WaitsUntil timeout deadline

/-- Every move goes by what is recorded when it begins. -/
theorem Execution.goes_by {earlier : List Move} {move : Move} {pump : Pump}
    (execution : Execution (move :: earlier) pump) : move.GoesBy move.before.deadline := by
  refine ⟨fun lent asks => ?_, fun context timeout asks => ?_⟩
  · obtain ⟨answer, top, moved, rest, -, stack, step, kept, asked⟩ := execution.asked asks
    obtain ⟨held, worked, works⟩ := Stage.request_delayed asked
    rcases step.loop_cases kept works with ⟨-, early⟩ | ⟨before, -, step⟩
    · cases early
    · generalize move.after.deadline = recorded at step
      cases step with
      | passImmediate => rfl
  · obtain ⟨answer, top, moved, rest, answered, stack, step, kept, asked⟩ := execution.asked asks
    have works := Stage.request_poll asked
    have clocked : move.before.Clocked := by
      cases execution with
      | step execution _ => exact Execution.clocked execution
    rcases step.loop_cases kept works with ⟨-, early⟩ | ⟨before, was, step⟩
    · cases early
    · generalize move.after.deadline = recorded at step
      cases step with
      | waitForever going none =>
        rw [none]
        rfl
      | waitUntil deadline now ahead =>
        rw [(clocked top rest stack).1 context deadline was]
        exact ⟨now, answered, ahead, rfl⟩

/-! ### A scheduled deadline -/

/-- What delayed work had been lent, if a move is its return and it returns the deadline as it was
lent. -/
def Move.putBack? (move : Move) : Option (Option Instant) :=
  match move.before.request?, move.event with
  | some (.delayed lent), .answered (.workedUntil _ deadline) =>
    if deadline = lent then some lent else none
  | _, _ => none

/-- If delayed work puts back whatever is recorded, the last of it to return decides. -/
theorem recordedAfter_of_kept (first : Option Instant) {moves : List Move}
    (kept : ∀ move ∈ moves, move.records? = move.putBack?) :
    recordedAfter first moves = (moves.findSome? Move.putBack?).getD first := by
  induction moves with
  | nil => rfl
  | cons move moves inductionHypothesis =>
    obtain ⟨same, kept⟩ := List.forall_mem_cons.mp kept
    rw [recordedAfter_cons, inductionHypothesis kept, same, List.findSome?_cons]
    cases move.putBack? <;> rfl

/-- A deadline is scheduled, and until a later move nothing replaces it: no other one is scheduled,
none passes, and no delegate assigns one. If no delayed work has returned meanwhile, the later move
goes by the scheduled deadline. If some has, it puts back what it had been lent, and the later move
goes by what was put back last. -/
theorem Execution.scheduled_deadline {later between earlier : List Move} {move scheduling : Move}
    {deadline : Instant} {pump : Pump}
    (execution : Execution (later ++ move :: (between ++ scheduling :: earlier)) pump)
    (schedules : scheduling.event = .deadlineSet deadline)
    (kept : ∀ other ∈ between, other.records? = other.putBack?) :
    (between.findSome? Move.putBack? = none → move.GoesBy (some deadline)) ∧
      ∀ lent, between.findSome? Move.putBack? = some lent → move.GoesBy lent := by
  have reached := execution.after
  have goes := reached.goes_by
  have recorded : move.before.deadline =
      (between.findSome? Move.putBack?).getD (some deadline) := by
    cases reached with
    | step reached _ =>
      have scheduled : scheduling.after.deadline = some deadline := by
        rw [(Pump.after?_some reached.possible).records, Move.records?, schedules]
        rfl
      rw [Execution.recorded_since reached, scheduled, recordedAfter_of_kept _ kept]
  rw [recorded] at goes
  refine ⟨fun none => ?_, fun lent some => ?_⟩
  · rw [none] at goes
    exact goes
  · rw [some] at goes
    exact goes

/-- A run that is nested in idle work schedules a deadline and is quit. The outer loop then polls
until that deadline and asks for delayed work again. -/
def nestedSchedule : List PumpEvent :=
  [.entered, .answered .done, .answered (.worked false), .answered (.workedUntil false none),
    .entered, .answered .created, .answered .done, .answered .done, .answered .done,
    .answered .done, .answered .done, .deadlineSet 5000000, .quit, .answered (.worked false),
    .answered .done, .answered .done, .answered .done, .answered .done, .answered .done,
    .answered .done, .answered .done, .answered (.worked false), .answered (.time 0),
    .answered .done, .answered (.worked false)]

theorem Execution.scheduled_deadline_nestedSchedule :
    ∃ move between scheduling earlier,
      (replayed nestedSchedule).1 = move :: (between ++ scheduling :: earlier) ∧
        scheduling.before.level = 2 ∧ scheduling.event = .deadlineSet 5000000 ∧
        between.findSome? Move.putBack? = none ∧
        move.asks? = some (.delayed (some 5000000)) ∧ move.GoesBy (some 5000000) := by
  have split : (replayed nestedSchedule).1 =
      [] ++ (replayed nestedSchedule).1.get ⟨0, by decide⟩ ::
        ((replayed nestedSchedule).1.tail.take 12 ++
          (replayed nestedSchedule).1.get ⟨13, by decide⟩ ::
            (replayed nestedSchedule).1.drop 14) := rfl
  have execution := Execution.of_replayed nestedSchedule
  rw [split] at execution
  have kept : ∀ other ∈ (replayed nestedSchedule).1.tail.take 12,
      other.records? = other.putBack? := by decide
  have quiet : ((replayed nestedSchedule).1.tail.take 12).findSome? Move.putBack? = none := by
    decide
  exact ⟨_, _, _, _, split, by decide, by decide, quiet, by decide,
    (Execution.scheduled_deadline execution (by decide) kept).1 quiet⟩

/-- Delayed work schedules a deadline and returns the one that it was lent, none, as it is. -/
def undoneSchedule : List PumpEvent :=
  [.entered, .answered .done, .answered (.worked false), .deadlineSet 5000000,
    .answered (.workedUntil false none), .answered (.worked false), .answered .done,
    .answered (.worked false)]

/-- Delayed work that leaves the deadline as it was lent undoes what it has scheduled itself: the
next delayed work is handed no deadline. -/
theorem Execution.scheduled_deadline_undone :
    ¬ ∀ (move scheduling : Move) (between earlier : List Move) (deadline : Instant) (pump : Pump),
      Execution (move :: (between ++ scheduling :: earlier)) pump →
        scheduling.event = .deadlineSet deadline →
        (∀ other ∈ between, other.records? = other.putBack?) →
          ∀ lent, move.asks? = some (.delayed lent) → lent = some deadline := by
  intro kept
  have split : (replayed undoneSchedule).1 =
      (replayed undoneSchedule).1.get ⟨0, by decide⟩ ::
        ((replayed undoneSchedule).1.tail.take 3 ++
          (replayed undoneSchedule).1.get ⟨4, by decide⟩ ::
            (replayed undoneSchedule).1.drop 5) := rfl
  have execution := Execution.of_replayed undoneSchedule
  rw [split] at execution
  have handed := kept _ _ _ _ 5000000 _ execution (by decide) (by decide) none (by decide)
  cases handed

end MessagePump

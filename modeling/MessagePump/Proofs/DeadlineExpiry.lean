/-
This file proves what the recorded deadline does to a loop that is about to wait.

A poll waits for ever if no deadline is recorded, and otherwise for what is left until the recorded
one, which is never nothing: the clock is looked at, and only a deadline that is ahead is waited
for. One that has passed is cleared instead, and the loop asks for immediate work without a poll.
From there on the invocation is followed through whatever its callbacks and the runs that are nested
in them do. The first reply to it is the return of immediate work; unless a quit or a panic ends the
loop, it asks for delayed work next, and hands over what has been recorded since the clearing.
-/

import MessagePump.Proofs.RunOutcomes

namespace MessagePump

/-! ### What is left until a deadline -/

theorem remaining_eq_zero {deadline now : Instant} :
    remaining deadline now = 0 ↔ deadline ≤ now :=
  Int.toNat_eq_zero.trans ⟨Int.le_of_sub_nonpos, Int.sub_nonpos_of_le⟩

theorem remaining_ne_zero {deadline now : Instant} :
    remaining deadline now ≠ 0 ↔ now < deadline :=
  (not_congr remaining_eq_zero).trans Int.not_le

theorem remaining_of_lt {deadline now : Instant} (ahead : now < deadline) :
    (remaining deadline now : Int) = deadline - now :=
  Int.toNat_of_nonneg (Int.sub_nonneg_of_le (Int.le_of_lt ahead))

/-! ### One step -/

/-- A reply to the innermost invocation is a step of it. -/
theorem Execution.replied_step {earlier : List Move} {move : Move} {pump : Pump} {request : Request}
    {answer : Answer} (execution : Execution (move :: earlier) pump)
    (asked : move.before.request? = some request) (answered : move.event = .answered answer) :
    ∃ top rest, move.before.stack = top :: rest ∧ top.stage.request move.before.slot = request ∧
      move.before.RunStep top rest top.stage answer move.after := by
  cases execution with
  | step execution possible =>
    cases answered
    cases Pump.after?_some possible with
    | answered stack step =>
      rw [Pump.request?, stack] at asked
      exact ⟨_, _, stack, Option.some.inj asked, step⟩

theorem Move.asks?_cons {move : Move} {answer : Answer} {top moved : Invocation}
    {rest : List Invocation} (answered : move.event = .answered answer)
    (stack : move.before.stack = top :: rest) (kept : move.after.stack = moved :: rest) :
    move.asks? = some (moved.stage.request move.after.slot) := by
  simp only [asks?, answered, stack, kept, List.length_cons, if_true, Pump.request?,
    List.head?_cons, Option.map_some]

/-- A step of the loop, told by the stage that it leads to. -/
theorem Pump.RunStep.of_loop {pump next : Pump} {top : Invocation} {rest : List Invocation}
    {held : ContextId} {point : LoopPoint} {answer : Answer}
    (step : pump.RunStep top rest (.working held point) answer next) :
    ∃ stage, next.stack = { top with stage } :: rest ∧ next.slot = pump.slot ∧
      LoopStep pump.running pump.deadline held point answer next.deadline stage := by
  cases step with
  | loop _ _ _ deadline stage step => exact ⟨stage, rfl, rfl, step⟩
  | conflict _ _ atCell => simp at atCell

/-- Only a loop asks for idle work. -/
theorem Stage.request_idle {slot : ContextId} {stage : Stage} (asks : stage.request slot = .idle) :
    ∃ held, stage = .working held .idle := by
  cases stage with
  | working held point =>
    cases point <;> cases asks
    exact ⟨held, rfl⟩
  | _ => cases asks

/-- Only a loop looks at the clock. -/
theorem Stage.request_clock {slot : ContextId} {stage : Stage}
    (asks : stage.request slot = .clock) :
    ∃ held deadline, stage = .working held (.timing deadline) := by
  cases stage with
  | working held point =>
    cases point <;> cases asks
    exact ⟨held, _, rfl⟩
  | _ => cases asks

/-- A poll waits until what is recorded while it is issued. -/
theorem Execution.waits_recorded {earlier : List Move} {poll : Move} {context : ContextId}
    {timeout : Option Duration} {pump : Pump} (execution : Execution (poll :: earlier) pump)
    (polls : poll.asks? = some (.poll context timeout)) :
    poll.WaitsUntil timeout poll.after.deadline := by
  have goes := execution.goes_by.2 context timeout polls
  obtain ⟨answer, top, moved, rest, -, -, step, kept, asked⟩ := execution.asked polls
  have same : poll.after.deadline = poll.before.deadline := by
    rcases step.loop_cases kept (Stage.request_poll asked) with ⟨-, early⟩ | ⟨point, -, loop⟩
    · cases early
    · generalize poll.after.deadline = deadline at loop ⊢
      cases loop with
      | waitForever | waitUntil => rfl
  rw [same]
  exact goes

/-- A pass without work ends in a poll that waits for ever, or in a look at the clock. -/
theorem Execution.workless {earlier : List Move} {idle : Move} {pump : Pump}
    (execution : Execution (idle :: earlier) pump) (asked : idle.before.request? = some .idle)
    (vain : idle.event = .answered (.worked false)) (going : idle.before.running = true) :
    (idle.before.deadline = none → ∃ context, idle.asks? = some (.poll context none)) ∧
      ∀ deadline, idle.before.deadline = some deadline → idle.asks? = some .clock := by
  obtain ⟨top, rest, stack, asked, step⟩ := execution.replied_step asked vain
  obtain ⟨held, works⟩ := Stage.request_idle asked
  rw [works] at step
  obtain ⟨stage, kept, -, step⟩ := step.of_loop
  rw [Move.asks?_cons vain stack kept]
  generalize idle.after.deadline = left at step
  cases step with
  | waitForever _ none =>
    exact ⟨fun _ => ⟨held, rfl⟩, fun deadline some => absurd (none.symm.trans some) (by simp)⟩
  | lookAtClock deadline _ some =>
    exact ⟨fun none => absurd (none.symm.trans some) (by simp), fun _ _ => rfl⟩
  | quitIdle _ quit => exact absurd (going.symm.trans quit) (by decide)

/-- A look at the clock is for the recorded deadline. If that is ahead, a poll waits for what is
left; if it has passed, it is cleared and the loop starts over. -/
theorem Execution.looked {earlier : List Move} {look : Move} {now : Instant} {pump : Pump}
    (execution : Execution (look :: earlier) pump) (asked : look.before.request? = some .clock)
    (time : look.event = .answered (.time now)) :
    ∃ deadline top moved rest held, look.before.deadline = some deadline ∧
      look.before.stack = top :: rest ∧ look.after.stack = moved :: rest ∧
      (deadline ≤ now → look.after.deadline = none ∧ moved.stage = .working held .immediate) ∧
      (now < deadline → look.after.deadline = some deadline ∧
        moved.stage = .working held (.polling (some (remaining deadline now)))) := by
  obtain ⟨top, rest, stack, asked, step⟩ := execution.replied_step asked time
  obtain ⟨held, deadline, works⟩ := Stage.request_clock asked
  have clocked : look.before.Clocked := by
    cases execution with
    | step execution _ => exact Execution.clocked execution
  have recorded := (clocked top rest stack).1 held deadline works
  rw [works] at step
  obtain ⟨stage, kept, -, step⟩ := step.of_loop
  refine ⟨deadline, top, _, rest, held, recorded, stack, kept, ?_⟩
  generalize look.after.deadline = left at step ⊢
  cases step with
  | expire _ _ passed =>
    exact ⟨fun _ => ⟨rfl, rfl⟩,
      fun ahead => absurd (remaining_eq_zero.mp passed) (Int.not_le.mpr ahead)⟩
  | waitUntil _ _ ahead =>
    exact ⟨fun passed => absurd (remaining_ne_zero.mp ahead) (Int.not_lt.mpr passed),
      fun _ => ⟨recorded, rfl⟩⟩

/-- A loop whose immediate work returns asks for delayed work, unless a quit has been called. -/
theorem Execution.worked_immediate {earlier : List Move} {move : Move} {top : Invocation}
    {rest : List Invocation} {held : ContextId} {did : Bool} {pump : Pump}
    (execution : Execution (move :: earlier) pump) (stack : move.before.stack = top :: rest)
    (works : top.stage = .working held .immediate) (returns : move.event = .answered (.worked did))
    (going : move.before.running = true) :
    move.asks? = some (.delayed move.before.deadline) := by
  have asked : move.before.request? = some .immediate := by
    rw [Pump.request?, stack, List.head?_cons, Option.map_some, works]
    rfl
  obtain ⟨top, rest, present, -, step⟩ := execution.replied_step asked returns
  obtain ⟨rfl, rfl⟩ := List.cons.inj (stack.symm.trans present)
  rw [works] at step
  obtain ⟨stage, kept, -, step⟩ := step.of_loop
  rw [Move.asks?_cons returns stack kept]
  generalize move.after.deadline = left at step
  cases step with
  | passImmediate => rfl
  | quitImmediate _ quit => exact absurd (going.symm.trans quit) (by decide)

/-! ### After a deadline has passed -/

/-- The stages after the loop of a run. -/
def Stage.pastLoop : Stage → Bool
  | .releasing _ _ | .destroying _ _ _ | .unbinding _ | .regarding _ | .restoring _ | .forwarding _
  | .closing _ | .conflicted | .aborting => true
  | _ => false

theorem Stage.leaving_pastLoop (enclosing : Option Enclosing) (outcome : Outcome) :
    (Stage.leaving enclosing outcome).pastLoop = true := by
  cases enclosing <;> rfl

/-- A run does not get back into its loop. -/
theorem Pump.RunStep.pastLoop {pump next : Pump} {top moved : Invocation} {rest : List Invocation}
    {answer : Answer} (step : pump.RunStep top rest top.stage answer next)
    (kept : next.stack = moved :: rest) (past : top.stage.pastLoop = true) :
    moved.stage.pastLoop = true := by
  generalize top.stage = stage at past step
  cases step
  case close outcome =>
    exact absurd (congrArg List.length kept) (Nat.ne_of_lt (Nat.lt_succ_self _))
  all_goals obtain rfl := (List.cons.inj kept).1
  case release | destroyed | destroyPanicked => exact Stage.leaving_pastLoop top.enclosing _
  all_goals first | rfl | cases past

/-- What delayed work is handed some moves after a deadline was cleared: what has been recorded last
in these, hence nothing unless a deadline has been. -/
structure HandedSince (since : List Move) (lent : Option Instant) : Prop where
  latest : lent = recordedAfter none since
  recorded : ∀ deadline, lent = some deadline →
    ∃ move ∈ since, move.records? = some (some deadline)

/-- Since a deadline has passed, the invocation at a depth has asked for immediate work and, on its
return, for delayed work, and it has handed over what has been recorded in the meantime. -/
def Consulted (depth : Nat) (since : List Move) : Prop :=
  ∃ after asking before lent, since = after ++ asking :: before ∧ replies depth before = [] ∧
    (∃ did, asking.reply? depth = some ⟨.immediate, .worked did, true⟩) ∧
    asking.asks? = some (.delayed lent) ∧ HandedSince before lent

/-- How an invocation stands since a deadline has passed: it has been told nothing and waits for
immediate work, or it has been told something, and then it has been through delayed work or is past
its loop. -/
def Stage.StartedOver (depth : Nat) (since : List Move) (stage : Stage) : Prop :=
  replies depth since = [] ∧ (∃ held, stage = .working held .immediate) ∨
    replies depth since ≠ [] ∧ (Consulted depth since ∨ stage.pastLoop = true)

theorem handedSince (since : List Move) : HandedSince since (recordedAfter none since) := by
  refine ⟨rfl, fun deadline recorded => ?_⟩
  unfold recordedAfter at recorded
  cases found : since.findSome? Move.records? with
  | none =>
    rw [found] at recorded
    cases recorded
  | some last =>
    rw [found, Option.getD_some] at recorded
    obtain ⟨move, member, records⟩ := List.exists_of_findSome?_eq_some found
    exact ⟨move, member, recorded ▸ records⟩

theorem Consulted.cons {depth : Nat} {since : List Move} (consulted : Consulted depth since)
    (move : Move) : Consulted depth (move :: since) := by
  obtain ⟨after, asking, before, lent, rfl, told⟩ := consulted
  exact ⟨move :: after, asking, before, lent, rfl, told⟩

/-- From a look at the clock that finds the deadline passed, an invocation is followed until it has
left. -/
theorem Execution.started_over {since earlier : List Move} {look : Move} {top : Invocation}
    {below : List Invocation} {held : ContextId} {pump : Pump}
    (execution : Execution (since ++ look :: earlier) pump)
    (stack : look.after.stack = top :: below) (works : top.stage = .working held .immediate)
    (cleared : look.after.deadline = none)
    (inside : ∀ move ∈ since, below.length < move.after.stack.length) :
    ∃ top : Invocation, top :: below <:+ pump.stack ∧
      top.stage.StartedOver (below.length + 1) since := by
  refine execution.follow (fun since stage => stage.StartedOver (below.length + 1) since) stack
    inside (Or.inl ⟨rfl, held, works⟩) ?_ ?_
  · intro since before next answer top moved execution stack step kept started
    have told := Move.reply?_answered stack answer next
    have replied : replies (below.length + 1) (⟨before, .answered answer, next⟩ :: since) ≠ [] := by
      rw [replies, List.filterMap_cons_some told]
      exact List.cons_ne_nil _ _
    refine Or.inr ⟨replied, ?_⟩
    rcases started with ⟨silent, held, immediate⟩ | ⟨-, consulted | past⟩
    · rw [immediate] at step told
      obtain ⟨stage, moves, -, step⟩ := step.of_loop
      obtain rfl : moved = { top with stage } := (List.cons.inj (kept.symm.trans moves)).1
      have recorded : before.deadline = recordedAfter none since := by
        rw [execution.recorded_since, cleared]
      generalize next.deadline = left at step
      cases step with
      | passImmediate did going =>
        rw [going] at told
        refine Or.inl ⟨[], _, since, _, rfl, silent, ⟨did, told⟩, ?_, handedSince since⟩
        rw [Move.asks?_cons rfl stack kept, ← recorded]
        rfl
      | quitImmediate | panicked => exact Or.inr rfl
    · exact Or.inl (consulted.cons _)
    · exact Or.inr (step.pastLoop kept past)
  · intro since move stage other started
    have same : replies (below.length + 1) (move :: since) = replies (below.length + 1) since :=
      List.filterMap_cons_none (Move.reply?_elsewhere other)
    unfold Stage.StartedOver
    rw [same]
    exact started.imp_right (And.imp_right (Or.imp_left fun consulted => consulted.cons move))

/-! ### Waiting and starting over -/

/-- What follows a look at the clock that has found the deadline passed; `later` is what has
happened since. The deadline is cleared, and immediate work is asked for, not a poll. The first
reply that the invocation gets is to that request, and if it returns while the flag is up, delayed
work is asked for next. As long as the invocation has not left, it polls only after this. -/
structure Move.Expired (look : Move) (later : List Move) : Prop where
  cleared : look.after.deadline = none
  unpolled : look.asks? = some .immediate
  consults : ∀ after reply since told, later = after ++ reply :: since →
    (∀ move ∈ since, look.before.stack.length ≤ move.after.stack.length) →
    replies look.before.stack.length since = [] →
    reply.reply? look.before.stack.length = some told →
      told.request = .immediate ∧ ∀ did, told.answer = .worked did → told.running = true →
        ∃ lent, reply.asks? = some (.delayed lent) ∧ HandedSince since lent
  polls : ∀ after poll since context timeout, later = after ++ poll :: since →
    (∀ move ∈ since, look.before.stack.length ≤ move.after.stack.length) →
    poll.before.stack.length = look.before.stack.length →
    poll.asks? = some (.poll context timeout) → Consulted look.before.stack.length since

theorem Execution.expired {later earlier : List Move} {look : Move} {top moved : Invocation}
    {rest : List Invocation} {held : ContextId} {answer : Answer} {pump : Pump}
    (execution : Execution (later ++ look :: earlier) pump)
    (answered : look.event = .answered answer) (stack : look.before.stack = top :: rest)
    (kept : look.after.stack = moved :: rest) (cleared : look.after.deadline = none)
    (works : moved.stage = .working held .immediate) : look.Expired later := by
  have followed : ∀ after move since, later = after ++ move :: since →
      (∀ other ∈ since, look.before.stack.length ≤ other.after.stack.length) →
      move.before.stack.length = look.before.stack.length →
      Execution (move :: (since ++ look :: earlier)) move.after ∧
        ∃ top, move.before.stack = top :: rest ∧
          top.stage.StartedOver look.before.stack.length since := by
    rintro after move since rfl inside mine
    rw [List.append_assoc] at execution
    rw [stack, List.length_cons] at inside mine ⊢
    have reached : Execution (since ++ look :: earlier) move.before := Execution.before execution
    obtain ⟨top, present, started⟩ := reached.started_over kept works cleared inside
    refine ⟨Execution.after execution, top, ?_, started⟩
    exact (present.eq_of_length (mine.symm ▸ rfl)).symm
  refine ⟨cleared, ?_, ?_, ?_⟩
  · rw [Move.asks?_cons answered stack kept, works]
    rfl
  · intro after reply since told split inside silent replied
    obtain ⟨returns, asked, mine, flag⟩ := Move.reply?_some replied
    obtain ⟨ran, top, stack, started⟩ := followed after reply since split inside mine
    rcases started with ⟨-, held, works⟩ | ⟨heard, -⟩
    · rw [Pump.request?, stack, List.head?_cons, Option.map_some, works] at asked
      refine ⟨(Option.some.inj asked).symm, fun did worked going => ?_⟩
      rw [worked] at returns
      have recorded : reply.before.deadline = recordedAfter none since := by
        cases ran with
        | step reached _ => rw [Execution.recorded_since reached, cleared]
      refine ⟨_, ran.worked_immediate stack works returns (flag.trans going), ?_⟩
      rw [recorded]
      exact handedSince since
    · exact absurd silent heard
  · intro after poll since context timeout split inside mine polls
    obtain ⟨ran, top, stack, started⟩ := followed after poll since split inside mine
    obtain ⟨answer, polling, moved, below, -, present, step, kept, asked⟩ := ran.asked polls
    obtain ⟨rfl, rfl⟩ := List.cons.inj (stack.symm.trans present)
    rcases step.loop_cases kept (Stage.request_poll asked) with ⟨-, early⟩ | ⟨point, was, loop⟩
    · cases early
    · rcases started with ⟨-, held, works⟩ | ⟨-, consulted | past⟩
      · rw [works] at was
        cases was
        generalize poll.after.deadline = left at loop
        cases loop
      · exact consulted
      · rw [was] at past
        cases past

/-- A poll waits for ever exactly if no deadline is recorded, and otherwise for what the clock has
shown to be left until the recorded one, which is more than nothing. A pass without work leads to a
poll that waits for ever or, if a deadline is recorded, to a look at the clock. If that finds the
deadline ahead, a poll follows; if it finds it passed, the deadline is cleared, nothing is polled,
and the invocation starts over with immediate and delayed work. -/
theorem Execution.deadline_bounds_poll {later earlier : List Move} {move : Move} {pump : Pump}
    (execution : Execution (later ++ move :: earlier) pump) :
    (∀ context timeout, move.asks? = some (.poll context timeout) →
      (timeout = none ↔ move.after.deadline = none) ∧
        ∀ deadline, move.after.deadline = some deadline →
          ∃ (now : Instant) (left : Duration), move.event = .answered (.time now) ∧
            timeout = some left ∧ (left : Int) = deadline - now ∧ 0 < left) ∧
      (move.before.request? = some .idle → move.event = .answered (.worked false) →
        move.before.running = true →
          (move.before.deadline = none → ∃ context, move.asks? = some (.poll context none)) ∧
          ∀ deadline, move.before.deadline = some deadline → move.asks? = some .clock) ∧
      ∀ now, move.before.request? = some .clock → move.event = .answered (.time now) →
        ∃ deadline, move.before.deadline = some deadline ∧
          (now < deadline → ∃ context,
            move.asks? = some (.poll context (some (remaining deadline now)))) ∧
          (deadline ≤ now → move.Expired later) := by
  have ran := execution.after
  refine ⟨fun context timeout polls => ?_, fun asked vain going => ran.workless asked vain going,
    fun now asked time => ?_⟩
  · have waits := ran.waits_recorded polls
    cases recorded : move.after.deadline with
    | none =>
      rw [recorded] at waits
      exact ⟨iff_of_true waits rfl, fun deadline some => by cases some⟩
    | some deadline =>
      rw [recorded] at waits
      obtain ⟨now, time, ahead, rfl⟩ := waits
      refine ⟨iff_of_false (Option.some_ne_none _) (Option.some_ne_none _), fun due same => ?_⟩
      obtain rfl := Option.some.inj same
      exact ⟨now, _, time, rfl, remaining_of_lt (remaining_ne_zero.mp ahead),
        Nat.pos_of_ne_zero ahead⟩
  · obtain ⟨deadline, top, moved, rest, held, recorded, stack, kept, passed, ahead⟩ :=
      ran.looked asked time
    refine ⟨deadline, recorded, fun early => ⟨held, ?_⟩, fun late => ?_⟩
    · rw [Move.asks?_cons time stack kept, (ahead early).2]
      rfl
    · exact execution.expired time stack kept (passed late).1 (passed late).2

/-- The recorded deadline has passed exactly when the clock is looked at. The immediate work that
follows schedules another one, which delayed work is handed and the poll waits for. -/
def expiredOnTime : List PumpEvent :=
  [.entered, .answered .done, .answered (.worked false),
    .answered (.workedUntil false (some 5000000)), .answered (.worked false),
    .answered (.time 5000000), .deadlineSet 9000000, .answered (.worked false),
    .answered (.workedUntil false (some 9000000)), .answered (.worked false),
    .answered (.time 6000000)]

theorem Execution.deadline_bounds_poll_expiredOnTime :
    ∃ poll since look earlier, (replayed expiredOnTime).1 = poll :: since ++ look :: earlier ∧
      look.event = .answered (.time 5000000) ∧ look.before.deadline = some 5000000 ∧
      look.after.deadline = none ∧ look.asks? = some .immediate ∧
      poll.asks? = some (.poll 0 (some 3000000)) ∧ Consulted 1 since := by
  have split : (replayed expiredOnTime).1 =
      (replayed expiredOnTime).1.take 5 ++ (replayed expiredOnTime).1.get ⟨5, by decide⟩ ::
        (replayed expiredOnTime).1.drop 6 := rfl
  have execution := Execution.of_replayed expiredOnTime
  rw [split] at execution
  obtain ⟨deadline, recorded, -, late⟩ :=
    (Execution.deadline_bounds_poll execution).2.2 5000000 (by decide) (by decide)
  have due : ((replayed expiredOnTime).1.get ⟨5, by decide⟩).before.deadline = some 5000000 := by
    decide
  obtain rfl := Option.some.inj (due.symm.trans recorded)
  have expired := late (Int.le_refl _)
  have polls : ((replayed expiredOnTime).1.get ⟨0, by decide⟩).asks? =
      some (.poll 0 (some 3000000)) := by decide
  exact ⟨(replayed expiredOnTime).1.get ⟨0, by decide⟩, (replayed expiredOnTime).1.tail.take 4,
    _, _, split, by decide, due, expired.cleared, expired.unpolled, polls,
    expired.polls [] _ _ 0 (some 3000000) rfl (by decide) (by decide) polls⟩

end MessagePump

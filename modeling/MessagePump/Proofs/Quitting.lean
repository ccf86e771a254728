/-
This file proves what a quit does: to the invocation that is innermost when it is called, and to the
runs that are started afterwards.

One flag serves all runs of a pump. A quit lowers it, the end of a run raises it, and no run is
entered while it is down. So a quit stays in force until the invocation that it was called in has
left, or, if it was called outside all runs, for good, and in the meantime nothing is nested in that
invocation. It gets out in a bounded number of steps. But it looks at the flag only after each kind
of work. If the quit was called while it was being set up, in the continuation or in a poll, it asks
for immediate work once more. And while the quit is in force every further run is refused, one that
is started inside the invocation no less than one outside.
-/

import MessagePump.Proofs.Deadlines
import MessagePump.Proofs.LoopDiscipline

namespace MessagePump

/-! ### A quit that is in force -/

/-- A quit is in force among a number of runs: it has been called while they were in progress, and
since then no run has been entered and none has ended. -/
def QuitInForce (runs : Nat) (history : List Move) : Prop :=
  ∃ since quit earlier, history = since ++ quit :: earlier ∧ quit.event = .quit ∧
    quit.before.stack.length = runs ∧ ∀ move ∈ since, move.after.stack.length = runs

/-- A move is a quit, or it leaves both the flag and the number of runs as they are, or it changes
that number and leaves the flag raised. -/
theorem Pump.Happens.flag_cases {pump next : Pump} {event : PumpEvent}
    (happens : pump.Happens event next) :
    event = .quit ∧ next = { pump with running := false } ∨
      event ≠ .quit ∧ next.running = pump.running ∧ next.stack.length = pump.stack.length ∨
      event ≠ .quit ∧ next.running = true ∧ next.stack.length ≠ pump.stack.length := by
  cases happens with
  | @answered top rest answer _ stack step =>
    rw [stack]
    generalize top.stage = stage at step
    cases step
    case close outcome =>
      exact Or.inr (Or.inr ⟨PumpEvent.noConfusion, rfl, Nat.ne_of_lt (Nat.lt_succ_self _)⟩)
    all_goals exact Or.inr (Or.inl ⟨PumpEvent.noConfusion, rfl, rfl⟩)
  | entered yields alive running =>
    exact Or.inr (Or.inr ⟨PumpEvent.noConfusion, running, Nat.ne_of_gt (Nat.lt_succ_self _)⟩)
  | quit => exact Or.inl ⟨rfl, rfl⟩
  | _ => exact Or.inr (Or.inl ⟨PumpEvent.noConfusion, rfl, rfl⟩)

/-- What happens next leaves a quit in force, unless it changes the number of runs. -/
theorem quitInForce_cons {runs : Nat} {history : List Move} {move : Move}
    (other : move.event ≠ .quit) :
    QuitInForce runs (move :: history) ↔
      QuitInForce runs history ∧ move.after.stack.length = runs := by
  constructor
  · rintro ⟨since, quit, earlier, split, quits, before, same⟩
    cases since with
    | nil =>
      obtain ⟨rfl, -⟩ := List.cons.inj split
      exact absurd quits other
    | cons latest since =>
      obtain ⟨rfl, rfl⟩ := List.cons.inj split
      obtain ⟨now, same⟩ := List.forall_mem_cons.mp same
      exact ⟨⟨since, quit, earlier, rfl, quits, before, same⟩, now⟩
  · rintro ⟨⟨since, quit, earlier, rfl, quits, before, same⟩, now⟩
    exact ⟨move :: since, quit, earlier, rfl, quits, before, List.forall_mem_cons.mpr ⟨now, same⟩⟩

/-- A quit is in force only among the runs that are in progress. -/
theorem QuitInForce.runs {runs : Nat} {history : List Move} {pump : Pump}
    (inForce : QuitInForce runs history) (execution : Execution history pump) :
    pump.stack.length = runs := by
  obtain ⟨since, quit, earlier, rfl, quits, before, same⟩ := inForce
  cases since with
  | nil =>
    cases execution with
    | step _ possible =>
      rcases (Pump.after?_some possible).flag_cases with ⟨-, rfl⟩ | ⟨other, -⟩ | ⟨other, -⟩
      · exact before
      · exact absurd quits other
      · exact absurd quits other
  | cons latest since =>
    cases execution with
    | step => exact same _ (.head _)

/-- The flag is down exactly while a quit is in force. -/
theorem Execution.running_iff {history : List Move} {pump : Pump}
    (execution : Execution history pump) :
    pump.running = false ↔ QuitInForce pump.stack.length history := by
  induction execution with
  | start name =>
    refine iff_of_false Bool.noConfusion ?_
    rintro ⟨since, quit, earlier, split, -⟩
    exact absurd split.symm (List.append_ne_nil_of_right_ne_nil since (List.cons_ne_nil _ _))
  | @step history pump event next execution possible inductionHypothesis =>
    rcases (Pump.after?_some possible).flag_cases with
      ⟨rfl, rfl⟩ | ⟨other, flag, runs⟩ | ⟨other, raised, runs⟩
    · exact iff_of_true rfl ⟨[], _, history, rfl, rfl, rfl, List.forall_mem_nil _⟩
    · rw [quitInForce_cons other, flag, inductionHypothesis, runs]
      exact (and_iff_left rfl).symm
    · refine iff_of_false (Bool.not_eq_false _ ▸ raised) fun inForce => ?_
      exact runs (((quitInForce_cons other).mp inForce).1.runs execution).symm

/-! ### An invocation after a quit -/

/-- How many answers an invocation takes at most, after a quit, until it has left. What is still
being set up for a nested one is completed and then torn down again. -/
def Stage.answersLeft : Stage → Nat
  | .creating => 15
  | .naming _ => 14
  | .binding _ => 13
  | .guarding _ _ => 12
  | .exchanging _ _ => 11
  | .starting | .working _ .notifying | .working _ (.polling _) | .working _ (.timing _) => 10
  | .working _ _ => 9
  | .releasing _ _ => 8
  | .destroying _ _ .leaveNested => 7
  | .unbinding _ => 6
  | .regarding _ => 5
  | .restoring _ => 4
  | .destroying _ _ .forwardWake => 3
  | .forwarding _ => 2
  | .closing _ => 1
  | .conflicted | .aborting => 0

/-- The stages from which an invocation gets to its immediate work without a look at the flag: those
before the loop, the continuation and the poll. -/
def Stage.unchecked : Stage → Bool
  | .creating | .naming _ | .binding _ | .guarding _ _ | .exchanging _ _ | .starting
  | .working _ .notifying | .working _ (.polling _) => true
  | _ => false

/-- A move answers a request of the innermost invocation. -/
def Move.isAnswer (move : Move) : Bool :=
  match move.event with
  | .answered _ => true
  | _ => false

/-- After a quit a loop that is not looking at the clock ends or asks for immediate work. -/
theorem LoopStep.after_quit {recorded deadline : Option Instant} {held : ContextId}
    {point : LoopPoint} {answer : Answer} {stage : Stage}
    (step : LoopStep false recorded held point answer deadline stage)
    (untimed : ∀ due, point ≠ .timing due) :
    (∃ outcome, stage = .releasing held outcome) ∨
      (Stage.working held point).unchecked = true ∧ stage = .working held .immediate := by
  cases step with
  | expire due | waitUntil due => exact absurd rfl (untimed due)
  | notified | polled => exact Or.inr ⟨rfl, rfl⟩
  | quitImmediate | quitDelayed | quitIdle | pollFailed | panicked => exact Or.inl ⟨_, rfl⟩
  | passImmediate _ going | workDelayed _ _ _ _ going | passDelayed _ _ going | workIdle going
  | waitForever going | lookAtClock _ going => cases going

theorem Stage.leaving_after_quit (enclosing : Option Enclosing) (outcome : Outcome) :
    (Stage.leaving enclosing outcome).answersLeft < 7 ∧
      (Stage.leaving enclosing outcome).unchecked = false := by
  cases enclosing <;> simp [Stage.leaving, Stage.answersLeft, Stage.unchecked]

/-- After a quit every answer brings an invocation nearer to its end. The only call that its loop
makes is one for immediate work, and after that there is no other. -/
theorem Pump.RunStep.after_quit {pump next : Pump} {top moved : Invocation}
    {rest : List Invocation} {answer : Answer} (quit : pump.running = false)
    (untimed : ∀ held due, top.stage ≠ .working held (.timing due))
    (step : pump.RunStep top rest top.stage answer next) (kept : next.stack = moved :: rest) :
    next.running = false ∧ moved.stage.answersLeft < top.stage.answersLeft ∧
      (moved.stage.loops = true → (∃ held, moved.stage = .working held .immediate) ∧
        top.stage.unchecked = true ∧ moved.stage.unchecked = false) ∧
      (moved.stage.unchecked = true → top.stage.unchecked = true) := by
  generalize top.stage = stage at untimed step ⊢
  cases step
  case close outcome =>
    exact absurd (congrArg List.length kept) (Nat.ne_of_lt (Nat.lt_succ_self _))
  all_goals
    obtain rfl := (List.cons.inj kept).1
    refine ⟨quit, ?_⟩
  case loop held point deadline after step =>
    rw [quit] at step
    rcases step.after_quit (fun due same => untimed held due (same ▸ rfl)) with
      ⟨outcome, rfl⟩ | ⟨unchecked, rfl⟩
    · refine ⟨?_, Bool.noConfusion, Bool.noConfusion⟩
      cases point <;> simp [Stage.answersLeft]
    -- Only the continuation and a poll lead on to immediate work; that is the one call left.
    · refine ⟨?_, fun _ => ⟨⟨held, rfl⟩, unchecked, rfl⟩, fun _ => unchecked⟩
      cases point <;> simp [Stage.answersLeft, Stage.unchecked] at unchecked ⊢
  case release held outcome owned =>
    obtain ⟨left, checked⟩ := Stage.leaving_after_quit top.enclosing outcome
    rw [Stage.leaving_loops, checked]
    exact ⟨Nat.lt_succ_of_lt left, Bool.noConfusion, Bool.noConfusion⟩
  case destroyed | destroyPanicked =>
    obtain ⟨left, checked⟩ := Stage.leaving_after_quit top.enclosing _
    rw [Stage.leaving_loops, checked]
    exact ⟨left, Bool.noConfusion, Bool.noConfusion⟩
  case conflict taken atCell =>
    refine ⟨?_, Bool.noConfusion, Bool.noConfusion⟩
    rcases atCell with rfl | ⟨made, saved, rfl⟩ | ⟨outcome, rfl⟩ <;> simp [Stage.answersLeft]
  case start =>
    exact ⟨Nat.lt_succ_self _, fun _ => ⟨⟨_, rfl⟩, rfl, rfl⟩, fun _ => rfl⟩
  case abort gone outcome next message double =>
    refine ⟨?_, Bool.noConfusion, Bool.noConfusion⟩
    cases next <;> simp [Stage.answersLeft]
  all_goals simp [Stage.answersLeft, Stage.unchecked, Stage.loops]

/-- A move after which the loop of the innermost invocation is in a call. -/
def Move.asksLoop (move : Move) : Bool := move.asks?.any Request.ofLoop

/-- How an invocation that was at the stage `first` when a quit was called gets to its end: it does
not look at the clock, each answer leaves fewer to come, and it may ask for immediate work once, and
for nothing else. -/
structure WindsUp (first : Stage) (since : List Move) (now : Stage) : Prop where
  untimed : ∀ held due, now ≠ .working held (.timing due)
  answers : since.countP Move.isAnswer + now.answersLeft ≤ first.answersLeft
  calls : since.countP Move.asksLoop + now.unchecked.toNat ≤ first.unchecked.toNat
  immediate : ∀ move ∈ since, ∀ request, move.asks? = some request → request.ofLoop = true →
    request = .immediate

theorem Move.isAnswer_unanswered {move : Move} (other : ∀ answer, move.event ≠ .answered answer) :
    move.isAnswer = false := by
  unfold isAnswer
  split
  · next answer answered => exact absurd answered (other answer)
  · rfl

/-- What is not an answer does not count. -/
theorem WindsUp.unanswered {first now : Stage} {since : List Move} {move : Move}
    (winds : WindsUp first since now) (other : ∀ answer, move.event ≠ .answered answer) :
    WindsUp first (move :: since) now where
  untimed := winds.untimed
  answers := by
    rw [List.countP_cons_of_neg (by simp [Move.isAnswer_unanswered other])]
    exact winds.answers
  calls := by
    rw [List.countP_cons_of_neg (by simp [Move.asksLoop, Move.asks?_unanswered other])]
    exact winds.calls
  immediate := by
    refine List.forall_mem_cons.mpr ⟨fun request asks => ?_, winds.immediate⟩
    rw [Move.asks?_unanswered other] at asks
    cases asks

/-- An answer is counted, and so is the call for immediate work that may follow it. -/
theorem WindsUp.answered {first : Stage} {since : List Move} {pump next : Pump}
    {top moved : Invocation} {rest : List Invocation} {answer : Answer}
    (winds : WindsUp first since top.stage) (quit : pump.running = false)
    (stack : pump.stack = top :: rest) (step : pump.RunStep top rest top.stage answer next)
    (kept : next.stack = moved :: rest) :
    WindsUp first ({ before := pump, event := .answered answer, after := next } :: since)
      moved.stage := by
  obtain ⟨-, nearer, loops, unchecked⟩ := step.after_quit quit winds.untimed kept
  have asks : Move.asks? { before := pump, event := .answered answer, after := next } =
      some (moved.stage.request next.slot) := by
    simp only [Move.asks?, kept, stack, List.length_cons, if_true, Pump.request?, List.head?_cons,
      Option.map_some]
  have answers := winds.answers
  have calls := winds.calls
  refine ⟨fun held due timing => ?_, ?_, ?_, List.forall_mem_cons.mpr ⟨?_, winds.immediate⟩⟩
  · rw [timing] at loops
    obtain ⟨⟨_, immediate⟩, -⟩ := loops rfl
    cases immediate
  · rw [List.countP_cons_of_pos rfl]
    omega
  · rw [List.countP_cons]
    simp only [Move.asksLoop, asks, Option.any_some, Stage.request_ofLoop]
    cases looping : moved.stage.loops with
    | true =>
      obtain ⟨-, was, is⟩ := loops looping
      rw [was] at calls
      rw [is]
      exact calls
    | false =>
      cases is : moved.stage.unchecked with
      | true =>
        rw [unchecked is] at calls
        exact calls
      | false => exact Nat.le_trans (Nat.le_add_right _ _) calls
  · intro request asked looping
    obtain rfl := Option.some.inj (asks.symm.trans asked)
    rw [Stage.request_ofLoop] at looping
    obtain ⟨⟨held, immediate⟩, -⟩ := loops looping
    rw [immediate]
    rfl

/-- As long as an invocation that was quit has not left, it stays the innermost one and winds up. -/
theorem Execution.winds_up {since earlier : List Move} {quit : Move} {first : Invocation}
    {rest : List Invocation} {pump : Pump} (execution : Execution (since ++ quit :: earlier) pump)
    (quits : quit.event = .quit) (stack : quit.before.stack = first :: rest)
    (inside : ∀ move ∈ since, rest.length < move.after.stack.length) :
    pump.running = false ∧
      ∃ top, pump.stack = top :: rest ∧ WindsUp first.stage since top.stage := by
  induction since generalizing pump with
  | nil =>
    cases execution with
    | step _ possible =>
      cases quits
      cases Pump.after?_some possible with
      | quit yields =>
        exact ⟨rfl, first, stack, Pump.not_timing yields stack, Nat.le_of_eq (Nat.zero_add _),
          Nat.le_of_eq (Nat.zero_add _), List.forall_mem_nil _⟩
  | cons move since inductionHypothesis =>
    cases execution with
    | step execution possible =>
      obtain ⟨deeper, inside⟩ := List.forall_mem_cons.mp inside
      obtain ⟨flag, top, innermost, winds⟩ := inductionHypothesis execution inside
      have happens := Pump.after?_some possible
      cases happens with
      | @answered latest below _ _ present step =>
        obtain ⟨rfl, rfl⟩ := List.cons.inj (innermost.symm.trans present)
        rcases step.stack_cases with ⟨moved, -, kept⟩ | ⟨-, rfl⟩
        · exact ⟨(step.after_quit flag winds.untimed kept).1, moved, kept,
            winds.answered flag innermost step kept⟩
        · exact absurd deeper (Nat.lt_irrefl _)
      | entered _ _ running => exact absurd (running.symm.trans flag) (by decide)
      | quit =>
        exact ⟨rfl, top, innermost, winds.unanswered fun _ => PumpEvent.noConfusion⟩
      | _ => exact ⟨flag, top, innermost, winds.unanswered fun _ => PumpEvent.noConfusion⟩

/-- The requests after whose return a loop starts over without a look at the flag. -/
def Request.startsOver : Request → Bool
  | .notify | .poll _ _ => true
  | _ => false

theorem Stage.request_startsOver {slot : ContextId} {stage : Stage}
    (starts : (stage.request slot).startsOver = true) :
    ∃ held point, stage = .working held point ∧
      (point = .notifying ∨ ∃ timeout, point = .polling timeout) := by
  cases stage with
  | working held point =>
    cases point with
    | notifying => exact ⟨held, _, rfl, Or.inl rfl⟩
    | polling timeout => exact ⟨held, _, rfl, Or.inr ⟨timeout, rfl⟩⟩
    | _ => cases starts
  | _ => cases starts

/-- The loop asks for immediate work when the continuation or a poll has returned, whether a quit
has been called in it or not. -/
theorem Pump.Happens.starts_over {pump next : Pump} {request : Request}
    (happens : pump.Happens (.answered .done) next) (asked : pump.request? = some request)
    (starts : request.startsOver = true) :
    Move.asks? { before := pump, event := .answered .done, after := next } = some .immediate := by
  cases happens with
  | @answered top rest _ _ stack step =>
    rw [Pump.request?, stack] at asked
    obtain rfl : top.stage.request pump.slot = request := Option.some.inj asked
    obtain ⟨held, point, works, returning⟩ := Stage.request_startsOver starts
    rw [works] at step
    cases step with
    | conflict _ _ atCell => simp at atCell
    | loop _ _ _ deadline stage step =>
      obtain rfl : stage = .working held .immediate := by
        rcases returning with rfl | ⟨timeout, rfl⟩ <;>
          · cases step
            rfl
      simp [Move.asks?, Pump.request?, stack, Stage.request]

/-- After a quit outside all runs there is never a run again. -/
theorem Execution.quit_outside {since earlier : List Move} {quit : Move} {pump : Pump}
    (execution : Execution (since ++ quit :: earlier) pump) (quits : quit.event = .quit)
    (outside : quit.before.stack = []) : pump.running = false ∧ pump.stack = [] := by
  induction since generalizing pump with
  | nil =>
    cases execution with
    | step _ possible =>
      cases quits
      cases Pump.after?_some possible with
      | quit => exact ⟨rfl, outside⟩
  | cons move since inductionHypothesis =>
    cases execution with
    | step execution possible =>
      obtain ⟨flag, empty⟩ := inductionHypothesis execution
      cases Pump.after?_some possible with
      | answered stack => exact absurd (empty.symm.trans stack) (List.cons_ne_nil _ _).symm
      | entered _ _ running => exact absurd (running.symm.trans flag) (by decide)
      | quit => exact ⟨rfl, empty⟩
      | _ => exact ⟨flag, empty⟩

/-! ### What a quit ends -/

/-- A quit is called inside an invocation that has not left since. If the invocation was in one of
the three kinds of work, or already at its end, its loop has made no call since. If it was still
being set up, in the continuation or in a poll, its loop may have asked for immediate work once, and
for nothing else, and it does ask if the continuation or the poll returns. In either case the
invocation is the innermost one, moves on with every answer that fits, and has only a bounded number
of answers left. -/
theorem Execution.quit_ends_loop {since earlier : List Move} {quit : Move} {first : Invocation}
    {rest : List Invocation} {pump : Pump} (execution : Execution (since ++ quit :: earlier) pump)
    (quits : quit.event = .quit) (stack : quit.before.stack = first :: rest)
    (inside : ∀ move ∈ since, rest.length < move.after.stack.length) :
    (first.stage.unchecked = false → ∀ move ∈ since, move.asksLoop = false) ∧
      (since.countP Move.asksLoop ≤ 1 ∧ ∀ move ∈ since, ∀ request, move.asks? = some request →
        request.ofLoop = true → request = .immediate) ∧
      (∀ move ∈ since, ∀ request, move.before.request? = some request →
        request.startsOver = true → move.event = .answered .done →
          move.asks? = some .immediate) ∧
      (∃ top, pump.stack = top :: rest ∧
        since.countP Move.isAnswer + top.stage.answersLeft ≤ first.stage.answersLeft) ∧
      ∀ request answer, pump.request? = some request → request.takes answer = true →
        (pump.advance? answer).isSome = true := by
  obtain ⟨-, top, innermost, winds⟩ := execution.winds_up quits stack inside
  have calls : since.countP Move.asksLoop ≤ first.stage.unchecked.toNat :=
    Nat.le_trans (Nat.le_add_right _ _) winds.calls
  refine ⟨fun checked move member => ?_, ⟨Nat.le_trans calls (Bool.toNat_le _), winds.immediate⟩,
    fun move member request asked starts returns => ?_, ⟨top, innermost, winds.answers⟩,
    fun _ _ asked fits => execution.sound.advances asked fits⟩
  · rw [checked] at calls
    exact Bool.not_eq_true _ ▸ List.countP_eq_zero.mp (Nat.le_zero.mp calls) move member
  · obtain ⟨later, before, rfl⟩ := List.append_of_mem member
    rw [List.append_assoc] at execution
    obtain ⟨pump, event, next⟩ := move
    obtain rfl : event = .answered .done := returns
    exact (Pump.after?_some execution.possible).starts_over asked starts

/-- A quit in the idle work of a nested run, which then leaves. -/
def quitInIdle : List PumpEvent :=
  [.entered, .answered .done, .entered, .answered .created, .answered .done, .answered .done,
    .answered .done, .answered .done, .answered .done, .answered (.worked false),
    .answered (.workedUntil false none), .quit, .answered (.worked true), .answered .done,
    .answered .done, .answered .done, .answered .done]

theorem Execution.quit_ends_loop_quitInIdle :
    ∃ since quit earlier first rest, (replayed quitInIdle).1 = since ++ quit :: earlier ∧
      quit.event = .quit ∧ quit.before.stack = first :: rest ∧ first.depth = 2 ∧
      since.length = 5 ∧ (∀ move ∈ since, rest.length < move.after.stack.length) ∧
      ∀ move ∈ since, move.asksLoop = false := by
  have split : (replayed quitInIdle).1 = (replayed quitInIdle).1.take 5 ++
      (replayed quitInIdle).1.get ⟨5, by decide⟩ :: (replayed quitInIdle).1.drop 6 := rfl
  have execution := Execution.of_replayed quitInIdle
  rw [split] at execution
  have stack : ((replayed quitInIdle).1.get ⟨5, by decide⟩).before.stack = _ :: _ := rfl
  have inside : ∀ move ∈ (replayed quitInIdle).1.take 5, 1 < move.after.stack.length := by decide
  exact ⟨_, _, _, _, _, split, by decide, stack, by decide, by decide, inside,
    (Execution.quit_ends_loop execution (by decide) stack inside).1 (by decide)⟩

/-- A quit in a poll, as a callback of the polled context calls it. -/
def quitInPoll : List PumpEvent :=
  [.entered, .answered .done, .answered (.worked false), .answered (.workedUntil false none),
    .answered (.worked false), .quit, .answered .done]

/-- When the poll returns, the loop asks for immediate work although the quit has been called. -/
theorem Execution.quit_consults_again :
    ¬ ∀ (since earlier : List Move) (quit : Move) (first : Invocation) (rest : List Invocation)
      (pump : Pump), Execution (since ++ quit :: earlier) pump → quit.event = .quit →
        quit.before.stack = first :: rest →
        (∀ move ∈ since, rest.length < move.after.stack.length) →
          ∀ move ∈ since, move.asks? ≠ some .immediate := by
  intro ended
  have split : (replayed quitInPoll).1 = (replayed quitInPoll).1.take 1 ++
      (replayed quitInPoll).1.get ⟨1, by decide⟩ :: (replayed quitInPoll).1.drop 2 := rfl
  have execution := Execution.of_replayed quitInPoll
  rw [split] at execution
  have inside : ∀ move ∈ (replayed quitInPoll).1.take 1, 0 < move.after.stack.length := by decide
  exact ended _ _ _ _ [] _ execution (by decide) rfl inside
    ((replayed quitInPoll).1.get ⟨0, by decide⟩) (by decide) (by decide)

/-! ### What a quit refuses -/

/-- A run is refused exactly while a quit is in force. A quit outside all runs stays in force for
good. One inside an invocation is in force until that has left, and refuses the runs that are
started inside it in the meantime. -/
theorem Execution.run_refused_iff {history : List Move} {pump : Pump}
    (execution : Execution history pump) :
    (pump.enter? = none ↔ QuitInForce pump.stack.length history) ∧
      ∀ since quit earlier, history = since ++ quit :: earlier → quit.event = .quit →
        quit.before.stack = [] → pump.enter? = none := by
  have refused : pump.enter? = none ↔ pump.running = false := by
    unfold Pump.enter?
    cases pump.running <;> simp
  refine ⟨refused.trans execution.running_iff, ?_⟩
  rintro since quit earlier rfl quits outside
  exact refused.mpr (execution.quit_outside quits outside).1

/-- A nested run has been quit and has left, and then the callback that had started it quits as
well. The outer run is still in progress, and another run is refused. -/
def quitTwice : List PumpEvent :=
  [.entered, .answered .done, .entered, .answered .created, .answered .done, .answered .done,
    .answered .done, .answered .done, .answered .done, .quit, .answered (.worked false),
    .answered .done, .answered .done, .answered .done, .answered .done, .answered .done,
    .answered .done, .answered .done, .quit]

theorem Execution.run_refused_iff_quitTwice :
    Execution (replayed quitTwice).1 (replayed quitTwice).2 ∧
      (replayed quitTwice).2.stack.length = 1 ∧ (replayed quitTwice).2.yields = true ∧
      QuitInForce 1 (replayed quitTwice).1 ∧ (replayed quitTwice).2.enter? = none := by
  have execution := Execution.of_replayed quitTwice
  have length : (replayed quitTwice).2.stack.length = 1 := by decide
  have inForce : QuitInForce 1 (replayed quitTwice).1 :=
    ⟨[], _, _, rfl, by decide, by decide, List.forall_mem_nil _⟩
  exact ⟨execution, length, by decide, inForce,
    (Execution.run_refused_iff execution).1.mpr (length ▸ inForce)⟩

/-- A callback of a run quits and then starts a run. -/
def runAfterQuit : List PumpEvent := [.entered, .answered .done, .quit]

/-- A run can be refused although no quit has been called outside all runs. -/
theorem Execution.run_refused_inside :
    ¬ ∀ (history : List Move) (pump : Pump), Execution history pump → pump.yields = true →
      pump.alive = true → pump.enter? = none →
        ∃ quit ∈ history, quit.event = .quit ∧ quit.before.stack = [] := by
  intro outside
  have none : ∀ quit ∈ (replayed runAfterQuit).1,
      ¬ (quit.event = .quit ∧ quit.before.stack = []) := by decide
  obtain ⟨quit, member, quits⟩ := outside _ _ (Execution.of_replayed runAfterQuit)
    (by decide) (by decide) (by decide)
  exact none quit member quits

end MessagePump

/-
This file proves which runs forward a wake as they leave.

A wake that reaches a nested context just before it is unbound has to be passed on, so a nested run
that has given its context up signals the one that is current again. That is the last thing it
does, after its context has been destroyed. However the run ends, its stages lead to this signal,
with two exceptions: a context whose signal cannot be named is never bound and leaves nothing to
forward, and a destruction that panics takes the run past the signal to its end.
-/

import MessagePump.Proofs.WakeUps

namespace MessagePump

/-! ### Moves of one run -/

/-- The invocation at a depth has its private context created. -/
def Move.creates (depth : Nat) (move : Move) : Bool :=
  move.before.stack.length == depth &&
    match move.event with
    | .answered .created => true
    | _ => false

/-- The invocation at a depth fails, by a panic, to name the signal of its context or to destroy
that context. -/
def Move.losesWake (depth : Nat) (move : Move) : Bool :=
  move.before.stack.length == depth &&
    match move.before.request?, move.event with
    | some (.nameSignal _), .answered (.panicked _) | some (.destroy _), .answered (.panicked _) =>
      true
    | _, _ => false

/-- The invocation at a depth signals a context, which is bound to the slot and current. -/
def Move.forwards (depth : Nat) (context : ContextId) (move : Move) : Bool :=
  move.before.stack.length == depth &&
    match move.before.request?, move.event with
    | some (.signal signal), .answered .done =>
      signal == context && move.before.slot == context && move.before.current == context
    | _, _ => false

/-- What a nested run has done at each of its stages: whether it has had its context created,
whether that has failed it, and how many wakes it has forwarded. -/
def Stage.Wakes (made lost : Bool) (sent : Nat) : Stage → Prop
  | .creating => made = false ∧ lost = false ∧ sent = 0
  | .destroying _ _ .leaveNested => lost = true ∧ sent = 0
  | .closing _ => sent = (made && !lost).toNat
  | .conflicted | .aborting => True
  | _ => made = true ∧ lost = false ∧ sent = 0

/-- Only the innermost invocation makes a move. -/
theorem Move.elsewhere {depth : Nat} (context : ContextId) {move : Move}
    (other : ∀ answer, move.event = .answered answer → move.before.stack.length ≠ depth) :
    move.creates depth = false ∧ move.losesWake depth = false ∧
      move.forwards depth context = false := by
  unfold creates losesWake forwards
  cases event : move.event with
  | answered answer =>
    rw [beq_false_of_ne (other answer event)]
    exact ⟨rfl, rfl, rfl⟩
  | _ => cases move.before.request? <;> simp

/-! ### One step -/

/-- What a nested run has done by a step is what its next stage says. -/
theorem Pump.RunStep.wakes {pump next : Pump} {top moved : Invocation} {rest : List Invocation}
    {answer : Answer} {made lost : Bool} {sent : Nat} (sound : pump.Sound)
    (stack : pump.stack = top :: rest) (nested : rest ≠ [])
    (step : pump.RunStep top rest top.stage answer next) (kept : next.stack = moved :: rest)
    (wakes : top.stage.Wakes made lost sent) :
    moved.stage.Wakes
      (Move.creates (rest.length + 1) ⟨pump, .answered answer, next⟩ || made)
      (Move.losesWake (rest.length + 1) ⟨pump, .answered answer, next⟩ || lost)
      (sent + if Move.forwards (rest.length + 1) (home rest) ⟨pump, .answered answer, next⟩ then 1
        else 0) := by
  have after := sound.run_step stack step
  have bound := sound.bound
  have alive := sound.alive (stack ▸ List.cons_ne_nil top rest)
  rw [stack] at bound
  obtain ⟨depth, binds, -⟩ := bound
  have deep : top.depth ≠ 1 := by
    rw [depth]
    exact fun single => nested (List.length_eq_zero_iff.mp (Nat.succ_inj.mp single))
  unfold Invocation.Binds at binds
  simp only [Move.creates, Move.losesWake, Move.forwards, request?, stack, List.length_cons,
    List.head?_cons, Option.map_some, beq_self_eq_true, Bool.true_and]
  generalize top.stage = stage at binds wakes step
  cases step
  case close outcome =>
    exact absurd (congrArg List.length kept) (Nat.ne_of_lt (Nat.lt_succ_self _))
  all_goals obtain rfl := (List.cons.inj kept).1
  case conflict taken atCell => exact after.bound.2.1.elim
  case loop held point deadline stage step =>
    obtain ⟨rfl, rfl, rfl⟩ := wakes
    cases step
    case panicked outside => cases point <;> exact ⟨rfl, rfl, rfl⟩
    all_goals exact ⟨rfl, rfl, rfl⟩
  case create =>
    obtain ⟨rfl, rfl, rfl⟩ := wakes
    exact ⟨rfl, rfl, rfl⟩
  case createFailed | createPanicked =>
    obtain ⟨rfl, rfl, rfl⟩ := wakes
    rfl
  case namePanicked made message =>
    obtain ⟨rfl, rfl, rfl⟩ := wakes
    exact ⟨rfl, rfl⟩
  case release held outcome owned =>
    obtain ⟨rfl, rfl, rfl⟩ := wakes
    rcases binds.2.2.2 with ⟨first, -⟩ | ⟨-, enclosing⟩
    · exact absurd first deep
    · rw [enclosing]
      exact ⟨rfl, rfl, rfl⟩
  case releaseLast held outcome lost =>
    simp [isOwned, alive, binds.1] at lost
  -- Such a context has never been bound: it has no name, and that has been counted as a loss.
  case destroyed | destroyPanicked =>
    obtain ⟨rfl, rfl⟩ := wakes
    rw [binds.2.2.2]
    show 0 = (made && false).toNat
    rw [Bool.and_false]
    rfl
  case abort => trivial
  case destroyPanickedNested =>
    obtain ⟨rfl, rfl, rfl⟩ := wakes
    rfl
  case forward outcome =>
    obtain ⟨rfl, rfl, rfl⟩ := wakes
    simp [Stage.Wakes, Stage.request, binds.1, binds.2.1]
  all_goals
    obtain ⟨rfl, rfl, rfl⟩ := wakes
    exact ⟨rfl, rfl, rfl⟩

/-! ### Whole runs -/

/-- The run above some invocations is at a stage that tells what it has done in the moves `inside`,
which are those since it was entered. -/
def Accounted (below : List Invocation) (inside : List Move) (pump : Pump) : Prop :=
  ∃ top : Invocation, top :: below <:+ pump.stack ∧
    top.stage.Wakes (inside.any (Move.creates (below.length + 1)))
      (inside.any (Move.losesWake (below.length + 1)))
      (inside.countP (Move.forwards (below.length + 1) (home below)))

/-- A move that is not one of the run itself changes nothing of what the run has done. -/
theorem Accounted.elsewhere {below : List Invocation} {inside : List Move} {move : Move}
    (accounted : Accounted below inside move.before)
    (other : ∀ answer, move.event = .answered answer →
      move.before.stack.length ≠ below.length + 1)
    (around : ∀ top : Invocation, top :: below <:+ move.before.stack →
      top :: below <:+ move.after.stack) :
    Accounted below (move :: inside) move.after := by
  obtain ⟨top, present, wakes⟩ := accounted
  obtain ⟨creates, loses, forwards⟩ := Move.elsewhere (home below) other
  refine ⟨top, around top present, ?_⟩
  rw [List.any_cons, List.any_cons, List.countP_cons, creates, loses, forwards]
  exact wakes

/-- Whatever happens inside a nested run is accounted for. -/
theorem Accounted.cons {below : List Invocation} {inside : List Move} {pump next : Pump}
    {event : PumpEvent} (accounted : Accounted below inside pump) (sound : pump.Sound)
    (nested : below ≠ []) (happens : pump.Happens event next)
    (stays : below.length < next.stack.length) :
    Accounted below ({ before := pump, event, after := next } :: inside) next := by
  cases happens with
  | @answered innermost rest answer _ stack step =>
    obtain ⟨top, present, wakes⟩ := accounted
    rw [stack] at present
    rcases List.suffix_cons_iff.mp present with mine | outer
    · obtain ⟨rfl, rfl⟩ := List.cons.inj mine
      rcases step.stack_cases with ⟨moved, -, kept⟩ | ⟨-, rfl⟩
      · refine ⟨moved, kept ▸ List.suffix_refl _, ?_⟩
        simp only [List.any_cons, List.countP_cons]
        exact step.wakes sound stack nested kept wakes
      · exact absurd stays (Nat.lt_irrefl _)
    · have deeper : below.length + 1 < pump.stack.length := by
        rw [stack]
        exact Nat.lt_succ_of_le outer.length_le
      refine Accounted.elsewhere ⟨top, stack ▸ present, wakes⟩
        (fun _ _ => Nat.ne_of_gt deeper) fun inner around => ?_
      exact Pump.Happens.below (.answered stack step) around deeper
  | entered =>
    exact accounted.elsewhere (fun _ => PumpEvent.noConfusion)
      fun _ around => around.trans (List.suffix_cons _ _)
  | _ => exact accounted.elsewhere (fun _ => PumpEvent.noConfusion) fun _ around => around

theorem Execution.accounted_inside {inside earlier : List Move} {entry : Move} {pump : Pump}
    (execution : Execution (inside ++ entry :: earlier) pump) (enters : entry.event = .entered)
    (nested : entry.before.stack ≠ [])
    (deeper : ∀ move ∈ inside, entry.before.stack.length < move.after.stack.length) :
    Accounted entry.before.stack inside pump := by
  induction inside generalizing pump with
  | nil =>
    cases execution with
    | @step _ before _ _ execution possible =>
      cases enters
      cases Pump.after?_some possible with
      | entered yields alive running =>
        have deep : before.level + 1 > 1 := by
          rw [(Execution.sound execution).level]
          exact Nat.succ_lt_succ (List.length_pos_iff.mpr nested)
        refine ⟨_, List.suffix_refl _, ?_⟩
        simp only [if_pos deep]
        exact ⟨rfl, rfl, rfl⟩
  | cons move inside inductionHypothesis =>
    cases execution with
    | step execution possible =>
      obtain ⟨stays, deeper⟩ := List.forall_mem_cons.mp deeper
      exact (inductionHypothesis execution deeper).cons (Execution.sound execution) nested
        (Pump.after?_some possible) stays

/-- A nested run that ends has forwarded one wake, to the context that was current when it was
entered and is current again, if its private context was created and no panic kept it from naming
the signal of that context or from destroying it. Otherwise it has forwarded none. -/
theorem Execution.forwarded_wake {later inside earlier : List Move} {leaving entry : Move}
    {pump : Pump} (execution : Execution (later ++ leaving :: (inside ++ entry :: earlier)) pump)
    (spans : Spans entry inside leaving) (nested : entry.before.stack ≠ []) :
    entry.before.context? = some entry.before.slot ∧
      inside.countP (Move.forwards (entry.before.stack.length + 1) entry.before.slot) =
        (inside.any (Move.creates (entry.before.stack.length + 1)) &&
          !inside.any (Move.losesWake (entry.before.stack.length + 1))).toNat := by
  have ran : Execution (inside ++ entry :: earlier) leaving.before := execution.before
  have yields := (Pump.after?_some (spans.enters ▸ ran.possible)).entering.1
  obtain ⟨slot, current, free⟩ := ran.before.sound.bound.of_yields yields
  obtain ⟨top, present, wakes⟩ := ran.accounted_inside spans.enters nested spans.deeper
  have happens := Pump.after?_some execution.possible
  have shorter : leaving.after.stack.length < leaving.before.stack.length :=
    Nat.lt_of_le_of_lt spans.left (Nat.lt_of_lt_of_le (Nat.lt_succ_self _) present.length_le)
  refine ⟨?_, ?_⟩
  · rw [slot, ← current]
    simp only [Pump.context?, free, Bool.false_eq_true, if_false]
  · rw [slot]
    have left := spans.left
    obtain ⟨answer, answered⟩ := happens.shorter shorter
    rw [answered] at happens
    cases happens with
    | @answered innermost rest _ _ stack step =>
      rw [stack] at present
      rcases step.stack_cases with ⟨moved, -, kept⟩ | ⟨⟨outcome, closing⟩, gone⟩
      · rw [kept, stack] at shorter
        exact absurd shorter (Nat.lt_irrefl _)
      · rcases List.suffix_cons_iff.mp present with mine | outer
        · obtain ⟨rfl, -⟩ := List.cons.inj mine
          rw [closing] at wakes
          exact wakes
        · rw [gone] at left
          exact absurd outer.length_le (Nat.not_le.mpr (Nat.lt_succ_of_le left))

/-- A run that is nested in a nested run is quit, and then a poll of the nested run fails. Both
forward a wake, each to the context around it. -/
def nestedTwice : List PumpEvent :=
  [.entered, .answered .done, .entered, .answered .created, .answered .done, .answered .done,
    .answered .done, .answered .done, .answered .done, .entered, .answered .created,
    .answered .done, .answered .done, .answered .done, .answered .done, .answered .done, .quit,
    .answered (.worked false), .answered .done, .answered .done, .answered .done, .answered .done,
    .answered .done, .answered .done, .answered .done, .answered (.worked false),
    .answered (.workedUntil false none), .answered (.worked false),
    .answered (.failed .notPermitted), .answered .done, .answered .done, .answered .done,
    .answered .done, .answered .done, .answered .done, .answered .done]

theorem Execution.forwarded_wake_nestedTwice :
    ∃ leaving inside entry earlier,
      (replayed nestedTwice).1 = leaving :: (inside ++ entry :: earlier) ∧
        Spans entry inside leaving ∧
        leaving.before.request? = some (.leave (.failed (.poll .notPermitted))) ∧
        inside.any (Move.forwards 3 1) = true ∧ inside.countP (Move.forwards 2 0) = 1 := by
  have split : (replayed nestedTwice).1 =
      [] ++ (replayed nestedTwice).1.get ⟨0, by decide⟩ ::
        ((replayed nestedTwice).1.tail.take 32 ++
          (replayed nestedTwice).1.get ⟨33, by decide⟩ ::
            (replayed nestedTwice).1.drop 34) := rfl
  have spans : Spans ((replayed nestedTwice).1.get ⟨33, by decide⟩)
      ((replayed nestedTwice).1.tail.take 32)
      ((replayed nestedTwice).1.get ⟨0, by decide⟩) := ⟨by decide, by decide, by decide⟩
  have execution := Execution.of_replayed nestedTwice
  rw [split] at execution
  exact ⟨_, _, _, _, split, spans, by decide, by decide,
    (Execution.forwarded_wake execution spans (by decide)).2.trans (by decide)⟩

/-- A nested run is quit, and the destruction of its context panics. -/
def nestedBreakdown : List PumpEvent :=
  [.entered, .answered .done, .entered, .answered .created, .answered .done, .answered .done,
    .answered .done, .answered .done, .answered .done, .quit, .answered (.worked false),
    .answered .done, .answered .done, .answered .done, .answered .done,
    .answered (.panicked "stop"), .answered .done]

/-- A run can leave without a wake although its context was created and the slot was bound to it. -/
theorem Execution.forwarded_wake_skipped :
    ¬ ∀ (leaving entry : Move) (inside earlier : List Move) (pump : Pump),
      Execution (leaving :: (inside ++ entry :: earlier)) pump → Spans entry inside leaving →
        entry.before.stack ≠ [] →
        inside.any (Move.creates (entry.before.stack.length + 1)) = true →
        (∃ move ∈ inside, move.before.slot ≠ entry.before.slot) →
          inside.any (Move.forwards (entry.before.stack.length + 1) entry.before.slot) = true := by
  intro forwarded
  have split : (replayed nestedBreakdown).1 =
      (replayed nestedBreakdown).1.get ⟨0, by decide⟩ ::
        ((replayed nestedBreakdown).1.tail.take 13 ++
          (replayed nestedBreakdown).1.get ⟨14, by decide⟩ ::
            (replayed nestedBreakdown).1.drop 15) := rfl
  have spans : Spans ((replayed nestedBreakdown).1.get ⟨14, by decide⟩)
      ((replayed nestedBreakdown).1.tail.take 13)
      ((replayed nestedBreakdown).1.get ⟨0, by decide⟩) := ⟨by decide, by decide, by decide⟩
  have execution := Execution.of_replayed nestedBreakdown
  rw [split] at execution
  have sent := forwarded _ _ _ _ _ execution spans (by decide) (by decide) (by decide)
  exact absurd sent (by decide)

end MessagePump

/-
This file proves that a run leaves the pump as it found it, however it ends and whatever has been
nested in it.

Two cells of the pump, the wake slot and the current context, are exchanged one after the other
on the way into a nested run and again on the way out, and outside code runs in between. The
invariant says for every stage of the innermost invocation how both stand to the context that was
current when it was entered. That context can be read off the invocations below, because each of
them is suspended in a call to outside code, where slot and context agree. Once an invocation has
left, the stack below it is the one it was entered on, and so are the cells.
-/

import MessagePump.Proofs.Execution

namespace MessagePump

/-! ### The context to come back to -/

/-- The context that is current while an invocation is suspended at a stage: the one that it
polls, or, outside its loop, the one that was current when it was entered. -/
def Stage.home (outer : ContextId) : Stage → ContextId
  | .working held _ | .releasing held _ => held
  | _ => outer

/-- The context that is current while a stack of invocations is suspended in a call to outside
code. Without a run it is the first that was created. -/
def home : List Invocation → ContextId
  | [] => 0
  | top :: rest => top.stage.home (home rest)

/-- What a nested invocation has put aside, if anything: the first invocation works on the context
that was current before, a nested one on a context of its own. -/
def Invocation.Encloses (outer current : ContextId) (invocation : Invocation) : Prop :=
  invocation.depth = 1 ∧ invocation.enclosing = none ∧ current = outer ∨
    1 < invocation.depth ∧
      invocation.enclosing = some { context := outer, signal := outer }

/-- How the wake slot and the current context stand at each stage of an invocation; `outer` is the
context that was current when it was entered. -/
def Invocation.Binds (outer slot current : ContextId) (guarded : Bool) (invocation : Invocation) :
    Prop :=
  match invocation.stage with
  | .creating | .naming _ | .binding _ =>
    slot = outer ∧ current = outer ∧ guarded = false ∧ 1 < invocation.depth ∧
      invocation.enclosing = none
  | .guarding made saved =>
    slot = made ∧ current = outer ∧ guarded = false ∧ saved = outer ∧ 1 < invocation.depth ∧
      invocation.enclosing = none
  | .exchanging made saved =>
    slot = made ∧ current = outer ∧ guarded = true ∧ saved = outer ∧ 1 < invocation.depth ∧
      invocation.enclosing = none
  | .starting => slot = current ∧ guarded = false ∧ invocation.Encloses outer current
  | .working held _ | .releasing held _ =>
    held = current ∧ slot = current ∧ guarded = false ∧ invocation.Encloses outer current
  | .unbinding _ =>
    slot = current ∧ guarded = false ∧ 1 < invocation.depth ∧
      invocation.enclosing = some { context := outer, signal := outer }
  | .regarding _ =>
    slot = outer ∧ guarded = false ∧ 1 < invocation.depth ∧
      invocation.enclosing = some { context := outer, signal := outer }
  | .restoring _ =>
    slot = outer ∧ guarded = true ∧ 1 < invocation.depth ∧
      invocation.enclosing = some { context := outer, signal := outer }
  | .destroying _ _ _ | .forwarding _ | .closing _ | .aborting =>
    slot = outer ∧ current = outer ∧ guarded = false ∧ invocation.enclosing = none
  | .conflicted => False

/-- Every invocation of a stack stands as if it could go on at once. -/
def Suspended : List Invocation → Prop
  | [] => True
  | top :: rest =>
    top.depth = rest.length + 1 ∧
      top.Binds (home rest) (home (top :: rest)) (home (top :: rest)) false ∧ Suspended rest

/-- The innermost invocation of a stack stands as its stage says, and those below are suspended. -/
def Bound (slot current : ContextId) (guarded : Bool) : List Invocation → Prop
  | [] => slot = 0 ∧ current = 0 ∧ guarded = false
  | top :: rest =>
    top.depth = rest.length + 1 ∧ top.Binds (home rest) slot current guarded ∧ Suspended rest

/-- The invariant of a pump. -/
structure Pump.Sound (pump : Pump) : Prop where
  level : pump.level = pump.stack.length
  alive : pump.stack ≠ [] → pump.alive = true
  bound : Bound pump.slot pump.current pump.guarded pump.stack

/-- A stack that is suspended can go on as soon as slot and current context are its own again. -/
theorem Suspended.bound {stack : List Invocation} (suspended : Suspended stack) :
    Bound (home stack) (home stack) false stack := by
  cases stack with
  | nil => exact ⟨rfl, rfl, rfl⟩
  | cons top rest => exact suspended

/-- In a call to outside code the slot and the current context agree. -/
theorem Bound.of_yields {pump : Pump} (bound : Bound pump.slot pump.current pump.guarded pump.stack)
    (yields : pump.yields = true) :
    pump.slot = home pump.stack ∧ pump.current = home pump.stack ∧ pump.guarded = false := by
  unfold Pump.yields Pump.request? at yields
  cases stack : pump.stack with
  | nil =>
    rw [stack] at bound
    exact bound
  | cons top rest =>
    rw [stack] at bound yields
    obtain ⟨-, binds, -⟩ := bound
    simp only [List.head?_cons, Option.map_some, Option.all_some] at yields
    unfold Invocation.Binds at binds
    simp only [home]
    cases stage : top.stage <;> simp only [stage] at binds yields <;>
      simp_all [Stage.request, Request.callsOut, Stage.home]

/-! ### One step -/

/-- A step that only moves the innermost invocation on keeps the invariant if slot and current
context stand afterwards as the new stage says. -/
theorem Pump.Sound.of_top {pump : Pump} {top : Invocation} {rest : List Invocation}
    (stack : pump.stack = top :: rest) (level : pump.level = rest.length + 1)
    (alive : pump.alive = true) (depth : top.depth = rest.length + 1)
    (binds : top.Binds (home rest) pump.slot pump.current pump.guarded)
    (suspended : Suspended rest) : pump.Sound where
  level := by rw [stack, level, List.length_cons]
  alive := fun _ => alive
  bound := by
    rw [stack]
    exact ⟨depth, binds, suspended⟩

/-- Giving up the polled context leads a nested invocation to what it has put aside and any other
to its end. -/
theorem Invocation.Encloses.leaving {outer slot current : ContextId} {invocation : Invocation}
    (encloses : invocation.Encloses outer current) (same : slot = current) (outcome : Outcome) :
    { invocation with stage := .leaving invocation.enclosing outcome }.Binds outer slot current
      false := by
  rcases encloses with ⟨-, first, outermost⟩ | ⟨deep, nested⟩
  · rw [first]
    exact ⟨same.trans outermost, outermost, rfl, rfl⟩
  · rw [nested]
    exact ⟨same, rfl, deep, rfl⟩

/-- A step of the innermost invocation keeps the invariant. -/
theorem Pump.Sound.run_step {pump next : Pump} {top : Invocation} {rest : List Invocation}
    {answer : Answer} (sound : pump.Sound) (stack : pump.stack = top :: rest)
    (step : pump.RunStep top rest top.stage answer next) : next.Sound := by
  obtain ⟨level, alive, bound⟩ := sound
  rw [stack] at level alive bound
  obtain ⟨depth, binds, suspended⟩ := bound
  have alive := alive (List.cons_ne_nil top rest)
  unfold Invocation.Binds at binds
  generalize stageEq : top.stage = stage at binds step
  cases step
  case close outcome =>
    obtain ⟨slot, current, guarded, -⟩ := binds
    refine ⟨?_, fun _ => alive, ?_⟩
    · show top.depth - 1 = rest.length
      rw [depth, Nat.add_sub_cancel]
    · -- Slot and context are those that the invocation below was suspended with.
      show Bound pump.slot pump.current pump.guarded rest
      rw [slot, current, guarded]
      exact suspended.bound
  all_goals refine .of_top rfl level alive depth ?_ suspended
  case create | name => exact binds
  case createFailed | createPanicked | namePanicked =>
    obtain ⟨slot, current, guarded, -, enclosing⟩ := binds
    exact ⟨slot, current, guarded, enclosing⟩
  case bind made =>
    obtain ⟨slot, current, guarded, nested⟩ := binds
    exact ⟨rfl, current, guarded, slot, nested⟩
  case guard made saved free =>
    obtain ⟨slot, current, -, saved, nested⟩ := binds
    exact ⟨slot, current, rfl, saved, nested⟩
  case exchange made saved =>
    obtain ⟨slot, current, -, saved, nested⟩ := binds
    rw [current, saved]
    exact ⟨slot, rfl, Or.inr ⟨nested.1, rfl⟩⟩
  case start free =>
    obtain ⟨slot, guarded, encloses⟩ := binds
    exact ⟨rfl, slot, guarded, encloses⟩
  case conflict taken atCell =>
    -- Whoever is about to look at the cell has the word of its stage that the cell is free.
    rcases atCell with rfl | ⟨made, saved, rfl⟩ | ⟨outcome, rfl⟩
    · exact absurd (taken.symm.trans binds.2.1) (by decide)
    · exact absurd (taken.symm.trans binds.2.2.1) (by decide)
    · exact absurd (taken.symm.trans binds.2.1) (by decide)
  case loop held point deadline stage step =>
    rcases step.stage_cases with ⟨_, rfl⟩ | ⟨_, rfl⟩ <;> exact binds
  case release held outcome owned =>
    obtain ⟨-, slot, guarded, encloses⟩ := binds
    rw [guarded]
    exact encloses.leaving slot outcome
  case releaseLast held outcome lost =>
    obtain ⟨current, -, -, -⟩ := binds
    simp [isOwned, alive, current] at lost
  case destroyed | destroyPanicked =>
    obtain ⟨slot, current, guarded, enclosing⟩ := binds
    rw [enclosing]
    exact ⟨slot, current, guarded, rfl⟩
  case destroyedNested | destroyPanickedNested | forward | abort => exact binds
  case unbind outcome enclosing nested =>
    obtain ⟨-, guarded, deep, saved⟩ := binds
    obtain rfl := Option.some.inj (nested.symm.trans saved)
    exact ⟨rfl, guarded, deep, saved⟩
  case regard =>
    obtain ⟨slot, -, saved⟩ := binds
    exact ⟨slot, rfl, saved⟩
  case restore outcome enclosing nested owned =>
    obtain ⟨slot, -, -, saved⟩ := binds
    obtain rfl := Option.some.inj (nested.symm.trans saved)
    exact ⟨slot, rfl, rfl, rfl⟩
  case restoreLast outcome enclosing nested lost =>
    obtain ⟨slot, -, -, saved⟩ := binds
    obtain rfl := Option.some.inj (nested.symm.trans saved)
    exact ⟨slot, rfl, rfl, rfl⟩

/-! ### A whole execution -/

theorem Bound.suspended {pump : Pump}
    (bound : Bound pump.slot pump.current pump.guarded pump.stack)
    (yields : pump.yields = true) : Suspended pump.stack := by
  obtain ⟨slot, current, guarded⟩ := bound.of_yields yields
  rw [slot, current, guarded] at bound
  cases stack : pump.stack with
  | nil => trivial
  | cons top rest =>
    rw [stack] at bound
    exact bound

/-- Whatever happens to the pump keeps the invariant. -/
theorem Pump.Sound.happens {pump next : Pump} {event : PumpEvent} (sound : pump.Sound)
    (happens : pump.Happens event next) : next.Sound := by
  cases happens with
  | answered stack step => exact sound.run_step stack step
  | entered yields alive running =>
    obtain ⟨slot, current, guarded⟩ := sound.bound.of_yields yields
    refine .of_top rfl (by rw [sound.level]) alive (by rw [sound.level]) ?_
      (sound.bound.suspended yields)
    by_cases nested : pump.level + 1 > 1
    · simp only [nested, if_true]
      exact ⟨slot, current, guarded, nested, rfl⟩
    · have first : pump.level + 1 = 1 := by omega
      simp only [nested, if_false]
      exact ⟨slot.trans current.symm, guarded, Or.inl ⟨first, rfl, current⟩⟩
  | retired stack alive =>
    refine ⟨sound.level, fun busy => absurd stack busy, sound.bound⟩
  | _ => exact ⟨sound.level, sound.alive, sound.bound⟩

theorem Execution.sound {history : List Move} {pump : Pump}
    (execution : Execution history pump) : pump.Sound := by
  induction execution with
  | start name => exact ⟨rfl, fun busy => absurd rfl busy, rfl, rfl, rfl⟩
  | step _ possible inductionHypothesis =>
    exact inductionHypothesis.happens (Pump.after?_some possible)

/-- Inside a run, what was there when it was entered is still there below it. -/
theorem Execution.inside_run {inside earlier : List Move} {entry : Move} {pump : Pump}
    (execution : Execution (inside ++ entry :: earlier) pump) (enters : entry.event = .entered)
    (deeper : ∀ move ∈ inside, entry.before.stack.length < move.after.stack.length) :
    entry.before.stack <:+ pump.stack ∧ entry.before.stack.length < pump.stack.length ∧
      pump.name = entry.before.name ∧ pump.alive = entry.before.alive ∧
        pump.slotShared = entry.before.slotShared := by
  induction inside generalizing pump with
  | nil =>
    cases execution with
    | step _ possible =>
      cases enters
      cases Pump.after?_some possible
      exact ⟨List.suffix_cons _ _, Nat.lt_succ_self _, rfl, rfl, rfl⟩
  | cons move inside inductionHypothesis =>
    cases execution with
    | @step _ before _ _ execution possible =>
      have happens := Pump.after?_some possible
      obtain ⟨around, inner, name, alive, shared⟩ :=
        inductionHypothesis execution fun move member => deeper move (.tail _ member)
      refine ⟨happens.below around inner, deeper _ (.head _), ?_⟩
      have present : before.alive = true := by
        refine (Execution.sound execution).alive fun empty => ?_
        rw [empty] at inner
        exact Nat.not_lt_zero _ inner
      rw [← name, ← alive, ← shared]
      cases happens with
      | answered _ step =>
        exact ⟨step.callers.1, step.callers.2.1, step.callers.2.2.1⟩
      | retired stack =>
        rw [stack] at inner
        exact absurd inner (Nat.not_lt_zero _)
      | slotLeft gone => exact absurd (present.symm.trans gone) (by decide)
      | _ => exact ⟨rfl, rfl, rfl⟩

/-- A run that ends with the last move leaves the pump as it was entered, but for the deadline
that is recorded and for what belongs to the reactor and to code outside the pump. -/
theorem Execution.run_left {inside earlier : List Move} {leaving entry : Move} {pump : Pump}
    (execution : Execution (leaving :: (inside ++ entry :: earlier)) pump)
    (spans : Spans entry inside leaving) :
    leaving.after = { entry.before with
      deadline := leaving.after.deadline
      live := leaving.after.live
      created := leaving.after.created
      outside := leaving.after.outside
      wakers := leaving.after.wakers } := by
  obtain ⟨enters, deeper, left⟩ := spans
  cases execution with
  | @step _ before _ _ execution possible =>
    obtain ⟨around, inner, name, alive, shared⟩ := Execution.inside_run execution enters deeper
    obtain ⟨yields, running⟩ := (Pump.after?_some (enters ▸ execution.possible)).entering
    have entered := Execution.sound execution.before
    obtain ⟨slot, current, guarded⟩ := entered.bound.of_yields yields
    have sound := Execution.sound execution
    cases Pump.after?_some possible with
    | @answered top rest _ _ stack step =>
      rw [stack] at around inner
      rcases step.stack_cases with ⟨invocation, -, kept⟩ | ⟨⟨outcome, closing⟩, rfl⟩
      · rw [kept] at left
        exact absurd left (Nat.not_le.mpr inner)
      · have rest_eq : rest = entry.before.stack := by
          rcases List.suffix_cons_iff.mp around with same | suffix
          · rw [same] at inner
            exact absurd inner (Nat.lt_irrefl _)
          · exact (suffix.eq_of_length_le left).symm
        have bound := sound.bound
        rw [stack, rest_eq] at bound
        obtain ⟨depth, binds, -⟩ := bound
        simp only [Invocation.Binds, closing] at binds
        have level : top.depth - 1 = entry.before.level := by
          rw [depth, Nat.add_sub_cancel, entered.level]
        simp only [Pump.mk.injEq]
        exact ⟨name, running.symm, level, trivial, binds.2.1.trans current.symm,
          binds.2.2.1.trans guarded.symm, binds.1.trans slot.symm, trivial, trivial, trivial,
          trivial, alive, shared, rest_eq⟩
    | entered => exact absurd left (Nat.not_le.mpr (Nat.lt_succ_of_lt inner))
    | _ => exact absurd left (Nat.not_le.mpr inner)

/-- An invocation is never stuck: it moves on with every answer that its request can have. -/
theorem Pump.Sound.advances {pump : Pump} {request : Request} {answer : Answer}
    (sound : pump.Sound) (asked : pump.request? = some request)
    (fits : request.takes answer = true) : (pump.advance? answer).isSome = true := by
  obtain ⟨top, head, rfl⟩ := Option.map_eq_some_iff.mp asked
  obtain ⟨rest, stack⟩ := List.head?_eq_some_iff.mp head
  have bound := sound.bound
  rw [stack] at bound
  obtain ⟨-, binds, -⟩ := bound
  unfold advance?
  simp only [stack]
  unfold Invocation.Binds at binds
  cases stage : top.stage with
  | working held point =>
    rw [stage] at fits
    cases point <;> cases answer <;> first | rfl | cases fits
  | unbinding outcome | restoring outcome =>
    rw [stage] at fits
    simp only [stage] at binds
    cases answer with
    | done => simp only [advanceTop?, binds.2.2.2, Option.map_some, Option.isSome_some]
    | _ => cases fits
  | destroying gone outcome next =>
    rw [stage] at fits
    cases next <;> cases answer <;> first | rfl | cases fits
  | _ =>
    rw [stage] at fits
    cases answer <;> first | rfl | cases fits

/-- The cell of the current context is never borrowed where an invocation looks at it. -/
theorem Pump.Sound.free {pump : Pump} (sound : pump.Sound) : pump.request? ≠ some .conflict := by
  intro asked
  obtain ⟨top, head, conflict⟩ := Option.map_eq_some_iff.mp asked
  obtain ⟨rest, stack⟩ := List.head?_eq_some_iff.mp head
  have bound := sound.bound
  rw [stack] at bound
  obtain ⟨-, binds, -⟩ := bound
  unfold Invocation.Binds at binds
  cases stage : top.stage with
  | conflicted =>
    simp only [stage] at binds
  | working held point =>
    rw [stage] at conflict
    cases point <;> cases conflict
  | _ =>
    rw [stage] at conflict
    cases conflict

/-- Among several pumps on one thread, no run gets stuck, none finds the cell of the current
context borrowed, each finds its own nesting level when it ends, and however a run ends it leaves
its pump as it was entered, but for the recorded deadline and for what is not the pump's own. -/
theorem Ensemble.run_restores {histories : Nat → List Move} {pumps : Nat → Pump}
    (ensemble : Ensemble histories pumps) (pump : Nat) :
    (∀ request answer, (pumps pump).request? = some request → request.takes answer = true →
        ((pumps pump).advance? answer).isSome = true) ∧
      (pumps pump).request? ≠ some .conflict ∧
      (∀ top rest outcome, (pumps pump).stack = top :: rest → top.stage = .closing outcome →
        (pumps pump).level = top.depth) ∧
      ∀ later leaving inside entry earlier,
        histories pump = later ++ leaving :: (inside ++ entry :: earlier) →
        Spans entry inside leaving →
          leaving.after.level = entry.before.level ∧ leaving.after.running = true ∧
            leaving.after.context? = entry.before.context? ∧
            leaving.after.slot = entry.before.slot ∧
            leaving.after = { entry.before with
              deadline := leaving.after.deadline
              live := leaving.after.live
              created := leaving.after.created
              outside := leaving.after.outside
              wakers := leaving.after.wakers } := by
  have execution := ensemble.execution pump
  have sound := execution.sound
  refine ⟨fun _ _ asked fits => sound.advances asked fits, sound.free, ?_, ?_⟩
  · intro top rest outcome stack _
    have bound := sound.bound
    rw [stack] at bound
    rw [sound.level, stack, List.length_cons, bound.1]
  · intro later leaving inside entry earlier history spans
    rw [history] at execution
    have entered : Execution (leaving :: inside ++ entry :: earlier) leaving.after :=
      execution.after
    have running := (Pump.after?_some (spans.enters ▸ entered.possible)).entering.2
    have restored := execution.after.run_left spans
    rw [restored]
    exact ⟨rfl, running, rfl, rfl, rfl⟩

/-- A nested run whose first callback panics: it is entered inside the first callback of a run. -/
def nestedPanic : List PumpEvent :=
  [.entered, .answered .done, .entered, .answered .created, .answered .done, .answered .done,
    .answered .done, .answered .done, .answered .done, .answered (.panicked "stop"),
    .answered .done, .answered .done, .answered .done, .answered .done, .answered .done,
    .answered .done, .answered .done]

theorem Ensemble.run_restores_nestedPanic :
    ∃ histories pumps leaving inside entry earlier,
      Ensemble histories pumps ∧ histories 0 = leaving :: (inside ++ entry :: earlier) ∧
        Spans entry inside leaving ∧ leaving.before.request? = some (.leave (.panicked "stop")) ∧
        leaving.before.created = 2 ∧ leaving.after.slot = entry.before.slot := by
  obtain ⟨histories, pumps, ensemble, history, -⟩ :=
    Ensemble.of_execution (Execution.of_replayed nestedPanic)
  have split : (replayed nestedPanic).1 =
      _ :: ((replayed nestedPanic).1.tail.take 13 ++ _ :: _) := rfl
  rw [split] at history
  have spans : Spans ((replayed nestedPanic).1.get ⟨14, by decide⟩)
      ((replayed nestedPanic).1.tail.take 13)
      ((replayed nestedPanic).1.get ⟨0, by decide⟩) := ⟨by decide, by decide, by decide⟩
  refine ⟨histories, pumps, _, _, _, _, ensemble, history, spans, by decide, by decide, ?_⟩
  exact ((ensemble.run_restores 0).2.2.2 [] _ _ _ _ history spans).2.2.2.1

end MessagePump

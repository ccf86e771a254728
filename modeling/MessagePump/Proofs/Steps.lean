/-
This file lists the steps of a run, one by one. `Pump.advance?` is a function by cases on the
stage of the innermost invocation and on the answer; here its steps are the constructors of a
relation, each with its guard and with the pump as it is afterwards. `Pump.advance?_some` says
that the list is complete, so a property of all steps is proved by cases on the relation, and no
later proof opens `Pump.advance?` again.
-/

import MessagePump.Pump.Advance

namespace MessagePump

/-! ### Steps of the loop -/

/-- A step of the loop at a point that is answered: the deadline that is recorded afterwards and
the stage that follows. `running` is the flag when the answer arrives, `recorded` the deadline
until then. -/
inductive LoopStep (running : Bool) (recorded : Option Instant) (held : ContextId) :
    LoopPoint → Answer → Option Instant → Stage → Prop
  | passImmediate (did : Bool) (going : running = true) :
    LoopStep running recorded held .immediate (.worked did) recorded
      (.working held (.delayed did recorded))
  | quitImmediate (did : Bool) (quit : running = false) :
    LoopStep running recorded held .immediate (.worked did) recorded (.releasing held .finished)
  | workDelayed (before did : Bool) (lent deadline : Option Instant) (going : running = true)
      (worked : (before || did) = true) :
    LoopStep running recorded held (.delayed before lent) (.workedUntil did deadline) deadline
      (.working held .notifying)
  | passDelayed (lent deadline : Option Instant) (going : running = true) :
    LoopStep running recorded held (.delayed false lent) (.workedUntil false deadline) deadline
      (.working held .idle)
  | quitDelayed (before did : Bool) (lent deadline : Option Instant) (quit : running = false) :
    LoopStep running recorded held (.delayed before lent) (.workedUntil did deadline) deadline
      (.releasing held .finished)
  | notified :
    LoopStep running recorded held .notifying .done recorded (.working held .immediate)
  | workIdle (going : running = true) :
    LoopStep running recorded held .idle (.worked true) recorded (.working held .notifying)
  | waitForever (going : running = true) (none : recorded = none) :
    LoopStep running recorded held .idle (.worked false) recorded
      (.working held (.polling Option.none))
  | lookAtClock (deadline : Instant) (going : running = true) (some : recorded = some deadline) :
    LoopStep running recorded held .idle (.worked false) recorded
      (.working held (.timing deadline))
  | quitIdle (did : Bool) (quit : running = false) :
    LoopStep running recorded held .idle (.worked did) recorded (.releasing held .finished)
  | expire (deadline now : Instant) (passed : remaining deadline now = 0) :
    LoopStep running recorded held (.timing deadline) (.time now) none (.working held .immediate)
  | waitUntil (deadline now : Instant) (ahead : remaining deadline now ≠ 0) :
    LoopStep running recorded held (.timing deadline) (.time now) recorded
      (.working held (.polling (some (remaining deadline now))))
  | polled (timeout : Option Duration) :
    LoopStep running recorded held (.polling timeout) .done recorded (.working held .immediate)
  | pollFailed (timeout : Option Duration) (cause : IoError) :
    LoopStep running recorded held (.polling timeout) (.failed cause) recorded
      (.releasing held (.failed (.poll cause)))
  | panicked (point : LoopPoint) (message : String) (outside : point.callsOut = true) :
    LoopStep running recorded held point (.panicked message) recorded
      (.releasing held (.panicked message))

/-- The loop stays a loop on the same context until it gives that context up. -/
theorem LoopStep.stage_cases {running : Bool} {recorded deadline : Option Instant}
    {held : ContextId} {point : LoopPoint} {answer : Answer} {stage : Stage}
    (step : LoopStep running recorded held point answer deadline stage) :
    (∃ next, stage = .working held next) ∨ ∃ outcome, stage = .releasing held outcome := by
  cases step <;> first | exact Or.inl ⟨_, rfl⟩ | exact Or.inr ⟨_, rfl⟩

theorem LoopStep.answer_ne {running : Bool} {recorded deadline : Option Instant}
    {held : ContextId} {point : LoopPoint} {answer : Answer} {stage : Stage}
    (step : LoopStep running recorded held point answer deadline stage) :
    answer ≠ .created := by
  cases step <;> exact Answer.noConfusion

/-- What follows once the polled context has been given up: a nested invocation restores what it
had put aside, any other is at its end. -/
def Stage.leaving (enclosing : Option Enclosing) (outcome : Outcome) : Stage :=
  match enclosing with
  | some _ => .unbinding outcome
  | none => .closing outcome

namespace Pump

theorem goto_cons {pump : Pump} {top : Invocation} {rest : List Invocation}
    (stack : pump.stack = top :: rest) (stage : Stage) :
    pump.goto stage = { pump with stack := { top with stage } :: rest } := by
  simp only [goto, stack]

theorem goto_deadline {pump : Pump} {top : Invocation} {rest : List Invocation}
    (stack : pump.stack = top :: rest) (deadline : Option Instant) (stage : Stage) :
    { pump with deadline }.goto stage =
      { pump with deadline, stack := { top with stage } :: rest } := by
  simp only [goto, stack]

/-- What the loop does on an answer is one of the listed steps. -/
theorem advanceLoop?_some {pump next : Pump} {top : Invocation} {rest : List Invocation}
    {held : ContextId} {point : LoopPoint} {answer : Answer} {said : List Diagnostic}
    (stack : pump.stack = top :: rest)
    (advanced : pump.advanceLoop? held point answer = some (next, said)) :
    ∃ deadline stage, LoopStep pump.running pump.deadline held point answer deadline stage ∧
      next = { pump with deadline, stack := { top with stage } :: rest } := by
  suffices found : ∃ deadline stage,
      LoopStep pump.running pump.deadline held point answer deadline stage ∧
        next = { pump with deadline }.goto stage by
    obtain ⟨deadline, stage, step, rfl⟩ := found
    exact ⟨deadline, stage, step, goto_deadline stack deadline stage⟩
  cases point <;> cases answer <;>
    simp only [advanceLoop?, LoopPoint.callsOut, reduceCtorEq, if_true, if_false,
      Bool.false_eq_true, Option.some.injEq, endLoop, Prod.mk.injEq] at advanced
  case immediate.worked did =>
    split at advanced <;> simp only [Prod.mk.injEq] at advanced
    · next going => exact ⟨_, _, .passImmediate did going, advanced.1.symm⟩
    · next quit =>
      exact ⟨_, _, .quitImmediate did (Bool.not_eq_true _ ▸ quit), advanced.1.symm⟩
  case delayed.workedUntil before lent did deadline =>
    split at advanced
    · next going =>
      simp only [afterWork] at advanced
      split at advanced <;> simp only [Prod.mk.injEq] at advanced
      · next worked =>
        exact ⟨_, _, .workDelayed before did lent deadline going worked, advanced.1.symm⟩
      · next idle =>
        simp only [Bool.or_eq_true, not_or, Bool.not_eq_true] at idle
        obtain ⟨rfl, rfl⟩ := idle
        exact ⟨_, _, .passDelayed lent deadline going, advanced.1.symm⟩
    · next quit =>
      simp only [Prod.mk.injEq] at advanced
      exact ⟨_, _, .quitDelayed before did lent deadline (Bool.not_eq_true _ ▸ quit),
        advanced.1.symm⟩
  case notifying.done => exact ⟨_, _, .notified, advanced.1.symm⟩
  case idle.worked did =>
    split at advanced
    · next going =>
      cases did <;> simp only [if_true, if_false, Bool.false_eq_true, afterWork] at advanced
      · split at advanced <;> simp only [block, Prod.mk.injEq] at advanced
        · next recorded => exact ⟨_, _, .waitForever going recorded, advanced.1.symm⟩
        · next recorded => exact ⟨_, _, .lookAtClock _ going recorded, advanced.1.symm⟩
      · simp only [Prod.mk.injEq] at advanced
        exact ⟨_, _, .workIdle going, advanced.1.symm⟩
    · next quit =>
      simp only [Prod.mk.injEq] at advanced
      exact ⟨_, _, .quitIdle did (Bool.not_eq_true _ ▸ quit), advanced.1.symm⟩
  case timing.time deadline now =>
    split at advanced <;> simp only [block, Prod.mk.injEq] at advanced
    · next passed => exact ⟨_, _, .expire deadline now passed, advanced.1.symm⟩
    · next ahead => exact ⟨_, _, .waitUntil deadline now ahead, advanced.1.symm⟩
  case polling.done timeout => exact ⟨_, _, .polled timeout, advanced.1.symm⟩
  case polling.failed timeout cause => exact ⟨_, _, .pollFailed timeout cause, advanced.1.symm⟩
  all_goals exact ⟨_, _, .panicked _ _ rfl, advanced.1.symm⟩

/-! ### Steps of an invocation -/

theorem leaveNested_fst (pump : Pump) {top : Invocation} {rest : List Invocation}
    (stack : pump.stack = top :: rest) (enclosing : Option Enclosing) (outcome : Outcome) :
    (pump.leaveNested enclosing outcome).1 =
      { pump with stack := { top with stage := .leaving enclosing outcome } :: rest } := by
  cases enclosing <;> exact goto_cons stack _

/-- A step of the innermost invocation `top`, above the invocations `rest`, at a stage that is
answered, and the pump after it. -/
inductive RunStep (pump : Pump) (top : Invocation) (rest : List Invocation) :
    Stage → Answer → Pump → Prop
  | create :
    RunStep pump top rest .creating .created
      { pump with
        live := pump.live ++ [pump.created]
        created := pump.created + 1
        stack := { top with stage := .naming pump.created } :: rest }
  | createFailed (cause : IoError) :
    RunStep pump top rest .creating (.failed cause)
      { pump with stack := { top with stage := .closing (.failed (.createContext cause)) } :: rest }
  | createPanicked (message : String) :
    RunStep pump top rest .creating (.panicked message)
      { pump with stack := { top with stage := .closing (.panicked message) } :: rest }
  | name (made : ContextId) :
    RunStep pump top rest (.naming made) .done
      { pump with stack := { top with stage := .binding made } :: rest }
  | namePanicked (made : ContextId) (message : String) :
    RunStep pump top rest (.naming made) (.panicked message)
      { pump with
        stack := { top with stage := .destroying made (.panicked message) .leaveNested } :: rest }
  | bind (made : ContextId) :
    RunStep pump top rest (.binding made) .done
      { pump with slot := made, stack := { top with stage := .guarding made pump.slot } :: rest }
  | guard (made saved : ContextId) (free : pump.guarded = false) :
    RunStep pump top rest (.guarding made saved) .done
      { pump with
        guarded := true
        stack := { top with stage := .exchanging made saved } :: rest }
  | exchange (made saved : ContextId) :
    RunStep pump top rest (.exchanging made saved) .done
      { pump with
        current := made
        guarded := false
        stack := { top with
          stage := .starting
          enclosing := some { context := pump.current, signal := saved } } :: rest }
  | start (free : pump.guarded = false) :
    RunStep pump top rest .starting .done
      { pump with stack := { top with stage := .working pump.current .immediate } :: rest }
  | conflict (stage : Stage) (taken : pump.guarded = true)
      (at_cell : stage = .starting ∨ (∃ made saved, stage = .guarding made saved) ∨
        ∃ outcome, stage = .regarding outcome) :
    RunStep pump top rest stage .done
      { pump with stack := { top with stage := .conflicted } :: rest }
  | loop (held : ContextId) (point : LoopPoint) (answer : Answer) (deadline : Option Instant)
      (stage : Stage)
      (step : LoopStep pump.running pump.deadline held point answer deadline stage) :
    RunStep pump top rest (.working held point) answer
      { pump with deadline, stack := { top with stage } :: rest }
  | release (held : ContextId) (outcome : Outcome)
      (owned : { pump with
        stack := { top with stage := .leaving top.enclosing outcome } :: rest }.isOwned held
          = true) :
    RunStep pump top rest (.releasing held outcome) .done
      { pump with stack := { top with stage := .leaving top.enclosing outcome } :: rest }
  | releaseLast (held : ContextId) (outcome : Outcome)
      (lost : { pump with
        stack := { top with stage := .leaving top.enclosing outcome } :: rest }.isOwned held
          = false) :
    RunStep pump top rest (.releasing held outcome) .done
      { pump with stack := { top with stage := .destroying held outcome .leaveNested } :: rest }
  | destroyed (gone : ContextId) (outcome : Outcome) :
    RunStep pump top rest (.destroying gone outcome .leaveNested) .done
      { pump with
        live := pump.live.erase gone
        stack := { top with stage := .leaving top.enclosing outcome } :: rest }
  | destroyedNested (gone : ContextId) (outcome : Outcome) :
    RunStep pump top rest (.destroying gone outcome .forwardWake) .done
      { pump with
        live := pump.live.erase gone
        stack := { top with stage := .forwarding outcome } :: rest }
  | destroyPanicked (gone : ContextId) (outcome : Outcome) (message : String)
      (single : outcome.isPanic = false) :
    RunStep pump top rest (.destroying gone outcome .leaveNested) (.panicked message)
      { pump with
        live := pump.live.erase gone
        stack := { top with stage := .leaving top.enclosing (.panicked message) } :: rest }
  | destroyPanickedNested (gone : ContextId) (outcome : Outcome) (message : String)
      (single : outcome.isPanic = false) :
    RunStep pump top rest (.destroying gone outcome .forwardWake) (.panicked message)
      { pump with
        live := pump.live.erase gone
        stack := { top with stage := .closing (.panicked message) } :: rest }
  | abort (gone : ContextId) (outcome : Outcome) (next : AfterDestruction) (message : String)
      (double : outcome.isPanic = true) :
    RunStep pump top rest (.destroying gone outcome next) (.panicked message)
      { pump with
        live := pump.live.erase gone
        stack := { top with stage := .aborting } :: rest }
  | unbind (outcome : Outcome) (enclosing : Enclosing) (nested : top.enclosing = some enclosing) :
    RunStep pump top rest (.unbinding outcome) .done
      { pump with
        slot := enclosing.signal
        stack := { top with stage := .regarding outcome } :: rest }
  | regard (outcome : Outcome) (free : pump.guarded = false) :
    RunStep pump top rest (.regarding outcome) .done
      { pump with guarded := true, stack := { top with stage := .restoring outcome } :: rest }
  | restore (outcome : Outcome) (enclosing : Enclosing) (nested : top.enclosing = some enclosing)
      (owned : { pump with
        current := enclosing.context
        guarded := false
        stack := { top with stage := .forwarding outcome, enclosing := none } :: rest }.isOwned
          pump.current = true) :
    RunStep pump top rest (.restoring outcome) .done
      { pump with
        current := enclosing.context
        guarded := false
        stack := { top with stage := .forwarding outcome, enclosing := none } :: rest }
  | restoreLast (outcome : Outcome) (enclosing : Enclosing)
      (nested : top.enclosing = some enclosing)
      (lost : { pump with
        current := enclosing.context
        guarded := false
        stack := { top with stage := .forwarding outcome, enclosing := none } :: rest }.isOwned
          pump.current = false) :
    RunStep pump top rest (.restoring outcome) .done
      { pump with
        current := enclosing.context
        guarded := false
        stack := { top with
          stage := .destroying pump.current outcome .forwardWake
          enclosing := none } :: rest }
  | forward (outcome : Outcome) :
    RunStep pump top rest (.forwarding outcome) .done
      { pump with stack := { top with stage := .closing outcome } :: rest }
  | close (outcome : Outcome) :
    RunStep pump top rest (.closing outcome) .done
      { pump with running := true, level := top.depth - 1, stack := rest }

/-- A step moves the innermost invocation to another stage, unless it is the last one, which takes
it off the stack. -/
theorem RunStep.stack_cases {pump next : Pump} {top : Invocation} {rest : List Invocation}
    {stage : Stage} {answer : Answer} (step : pump.RunStep top rest stage answer next) :
    (∃ invocation : Invocation, invocation.depth = top.depth ∧ next.stack = invocation :: rest) ∨
      (∃ outcome, stage = .closing outcome) ∧
        next = { pump with running := true, level := top.depth - 1, stack := rest } := by
  cases step
  case close outcome => exact Or.inr ⟨⟨outcome, rfl⟩, rfl⟩
  all_goals exact Or.inl ⟨_, by trivial, rfl⟩

/-- An invocation is at a point of its loop because the loop starts there or by a step of the
loop. -/
theorem RunStep.loop_cases {pump next : Pump} {top moved : Invocation} {rest : List Invocation}
    {stage : Stage} {answer : Answer} {held : ContextId} {point : LoopPoint}
    (step : pump.RunStep top rest stage answer next) (kept : next.stack = moved :: rest)
    (works : moved.stage = .working held point) :
    stage = .starting ∧ point = .immediate ∨
      ∃ before, stage = .working held before ∧
        LoopStep pump.running pump.deadline held before answer next.deadline
          (.working held point) := by
  cases step
  case close outcome =>
    exact absurd (congrArg List.length kept) (Nat.ne_of_lt (Nat.lt_succ_self _))
  all_goals obtain rfl := (List.cons.inj kept).1
  case start free =>
    cases works
    exact Or.inl ⟨rfl, rfl⟩
  case loop before deadline after step =>
    rcases step.stage_cases with ⟨_, rfl⟩ | ⟨_, rfl⟩
    · cases works
      exact Or.inr ⟨_, rfl, step⟩
    · cases works
  case release | destroyed | destroyPanicked =>
    cases enclosing : top.enclosing <;> simp [Stage.leaving, enclosing] at works
  all_goals cases works

/-- No step touches what belongs to the callers of the pump. -/
theorem RunStep.callers {pump next : Pump} {top : Invocation} {rest : List Invocation}
    {stage : Stage} {answer : Answer} (step : pump.RunStep top rest stage answer next) :
    next.name = pump.name ∧ next.alive = pump.alive ∧ next.slotShared = pump.slotShared ∧
      next.outside = pump.outside := by
  cases step <;> exact ⟨rfl, rfl, rfl, rfl⟩

/-- What an invocation does on an answer is one of the listed steps. -/
theorem advance?_some {pump next : Pump} {answer : Answer} {said : List Diagnostic}
    (advanced : pump.advance? answer = some (next, said)) :
    ∃ top rest, pump.stack = top :: rest ∧ RunStep pump top rest top.stage answer next := by
  unfold advance? at advanced
  split at advanced
  · cases advanced
  · next top rest stack =>
    refine ⟨top, rest, stack, ?_⟩
    generalize top.stage = stage at advanced ⊢
    cases stage
    case working held point =>
      obtain ⟨deadline, stage, step, rfl⟩ := advanceLoop?_some stack advanced
      exact .loop held point answer deadline stage step
    case destroying gone outcome next =>
      cases next <;> cases answer <;>
        simp only [advanceTop?, reduceCtorEq, Option.some.injEq] at advanced
      case leaveNested.done =>
        have moved := leaveNested_fst (pump.bury gone) stack top.enclosing outcome
        rw [advanced] at moved
        obtain rfl : next = _ := moved
        exact .destroyed gone outcome
      case forwardWake.done =>
        simp only [goto, bury, stack, Prod.mk.injEq] at advanced
        exact advanced.1 ▸ .destroyedNested gone outcome
      case leaveNested.panicked message =>
        split at advanced
        · next double =>
          simp only [goto, bury, stack, Prod.mk.injEq] at advanced
          exact advanced.1 ▸ .abort gone outcome .leaveNested message double
        · next single =>
          have moved := leaveNested_fst (pump.bury gone) stack top.enclosing (.panicked message)
          rw [advanced] at moved
          obtain rfl : next = _ := moved
          exact .destroyPanicked gone outcome message (Bool.not_eq_true _ ▸ single)
      case forwardWake.panicked message =>
        split at advanced <;> simp only [goto, bury, stack, Pump.close, Prod.mk.injEq] at advanced
        · next double => exact advanced.1 ▸ .abort gone outcome .forwardWake message double
        · next single =>
          exact advanced.1 ▸
            .destroyPanickedNested gone outcome message (Bool.not_eq_true _ ▸ single)
    all_goals cases answer <;>
      simp only [advanceTop?, reduceCtorEq, Option.some.injEq, goto, stack, Prod.mk.injEq,
        Pump.close] at advanced
    case creating.created => exact advanced.1 ▸ .create
    case creating.failed cause => exact advanced.1 ▸ .createFailed cause
    case creating.panicked message => exact advanced.1 ▸ .createPanicked message
    case naming.done made => exact advanced.1 ▸ .name made
    case naming.panicked made message => exact advanced.1 ▸ .namePanicked made message
    case binding.done made => exact advanced.1 ▸ .bind made
    case guarding.done made saved =>
      split at advanced <;> simp only [Prod.mk.injEq] at advanced
      · next taken =>
        exact advanced.1 ▸ .conflict _ taken (Or.inr (Or.inl ⟨made, saved, rfl⟩))
      · next free => exact advanced.1 ▸ .guard made saved (Bool.not_eq_true _ ▸ free)
    case exchanging.done made saved => exact advanced.1 ▸ .exchange made saved
    case starting.done =>
      unfold context? at advanced
      cases taken : pump.guarded <;>
        simp only [taken, if_true, if_false, Bool.false_eq_true, Prod.mk.injEq] at advanced
      · exact advanced.1 ▸ taken ▸ .start taken
      · exact advanced.1 ▸ taken ▸ .conflict _ taken (Or.inl rfl)
    case releasing.done held outcome =>
      rw [leaveNested_fst pump stack] at advanced
      split at advanced <;> simp only [Prod.mk.injEq] at advanced
      · next owned => exact advanced.1 ▸ .release held outcome owned
      · next lost =>
        exact advanced.1 ▸ .releaseLast held outcome (Bool.not_eq_true _ ▸ lost)
    case unbinding.done outcome =>
      obtain ⟨enclosing, nested, moved⟩ := Option.map_eq_some_iff.mp advanced
      exact (Prod.mk.inj moved).1 ▸ .unbind outcome enclosing nested
    case regarding.done outcome =>
      split at advanced <;> simp only [Prod.mk.injEq] at advanced
      · next taken => exact advanced.1 ▸ .conflict _ taken (Or.inr (Or.inr ⟨outcome, rfl⟩))
      · next free => exact advanced.1 ▸ .regard outcome (Bool.not_eq_true _ ▸ free)
    case restoring.done outcome =>
      obtain ⟨enclosing, nested, moved⟩ := Option.map_eq_some_iff.mp advanced
      split at moved <;> simp only [Prod.mk.injEq] at moved
      · next owned => exact moved.1 ▸ .restore outcome enclosing nested owned
      · next lost =>
        exact moved.1 ▸ .restoreLast outcome enclosing nested (Bool.not_eq_true _ ▸ lost)
    case forwarding.done outcome => exact advanced.1 ▸ .forward outcome
    case closing.done outcome => exact advanced.1 ▸ .close outcome

end Pump

end MessagePump

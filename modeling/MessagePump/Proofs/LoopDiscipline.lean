/-
This file proves that the calls of one invocation follow a fixed pattern.

An invocation asks for immediate work, then for delayed work, then, if both were fruitless, for
idle work, and only if that was fruitless too does it wait. `LoopPhase.Takes` is this pattern as a
machine that reads calls and their returns. `ownCalls` keeps for every invocation the calls that it
has made itself, without what runs that are nested in those calls do; these share the quit flag and
the recorded deadline with it, so a call can return with both changed. Whatever they do, the trace
of each invocation is a run of the machine, and what precedes a call can be read off the machine.
-/

import MessagePump.Proofs.OwnContexts

namespace MessagePump

/-! ### The calls of an invocation -/

/-- The requests of a loop. -/
def Request.ofLoop : Request → Bool
  | .immediate | .delayed _ | .idle | .notify | .clock | .poll _ _ => true
  | _ => false

/-- The request of a loop that the innermost invocation is waiting for. -/
def Pump.looping? (pump : Pump) : Option Request := pump.request?.filter Request.ofLoop

/-- A loop makes a call, with the deadline that is recorded at that moment, or a call of it
returns, with the quit flag as it is then. -/
inductive LoopEvent
  | calls (request : Request) (recorded : Option Instant)
  | returns (answer : Answer) (running : Bool)
  deriving DecidableEq

/-- What a move of the innermost invocation adds to its trace, the latest first: a call of its loop
may have returned, and it may make the next one. -/
def Move.loopEvents (move : Move) : List LoopEvent :=
  (move.after.looping?.map fun request => .calls request move.after.deadline).toList ++
    match move.event, move.before.looping? with
    | .answered answer, some _ => [.returns answer move.before.running]
    | _, _ => []

/-- The calls that the loop of each invocation on the stack has made and their returns, the latest
first. -/
def ownCalls : List Move → List (List LoopEvent) :=
  perInvocation (fun _ => []) fun move trace => move.loopEvents ++ trace

/-! ### The reference machine -/

/-- Where the reference machine stands: before a call, in it, or at its end. -/
inductive LoopPhase
  | beforeImmediate
  | inImmediate
  | beforeDelayed (worked : Bool)
  | inDelayed (worked : Bool)
  | beforeNotify
  | inNotify
  | beforeIdle
  | inIdle
  | beforeWait
  | inClock (deadline : Instant)
  | beforePoll (timeout : Option Duration)
  | inPoll
  | stopped (outcome : Outcome)
  deriving DecidableEq

/-- Whether the machine is in a call that can panic. -/
def LoopPhase.callsOut : LoopPhase → Bool
  | .inImmediate | .inDelayed _ | .inNotify | .inIdle | .inPoll => true
  | _ => false

/-- The reference machine of an invocation that works on the context `own`. After each of the three
kinds of work a quit stops it; otherwise a pass that did work is followed by one notification, and
one that did none by one poll, unless the recorded deadline has passed. -/
inductive LoopPhase.Takes (own : Option ContextId) : LoopPhase → LoopEvent → LoopPhase → Prop
  | callImmediate (recorded : Option Instant) :
    Takes own .beforeImmediate (.calls .immediate recorded) .inImmediate
  | ranImmediate (did : Bool) :
    Takes own .inImmediate (.returns (.worked did) true) (.beforeDelayed did)
  | quitImmediate (did : Bool) :
    Takes own .inImmediate (.returns (.worked did) false) (.stopped .finished)
  | callDelayed (worked : Bool) (recorded : Option Instant) :
    Takes own (.beforeDelayed worked) (.calls (.delayed recorded) recorded) (.inDelayed worked)
  | ranDelayed (worked did : Bool) (deadline : Option Instant) :
    Takes own (.inDelayed worked) (.returns (.workedUntil did deadline) true)
      (if worked || did then .beforeNotify else .beforeIdle)
  | quitDelayed (worked did : Bool) (deadline : Option Instant) :
    Takes own (.inDelayed worked) (.returns (.workedUntil did deadline) false) (.stopped .finished)
  | callNotify (recorded : Option Instant) :
    Takes own .beforeNotify (.calls .notify recorded) .inNotify
  | ranNotify (running : Bool) : Takes own .inNotify (.returns .done running) .beforeImmediate
  | callIdle (recorded : Option Instant) : Takes own .beforeIdle (.calls .idle recorded) .inIdle
  | ranIdle (did : Bool) :
    Takes own .inIdle (.returns (.worked did) true) (if did then .beforeNotify else .beforeWait)
  | quitIdle (did : Bool) :
    Takes own .inIdle (.returns (.worked did) false) (.stopped .finished)
  | callClock (deadline : Instant) :
    Takes own .beforeWait (.calls .clock (some deadline)) (.inClock deadline)
  | passed (deadline now : Instant) (running : Bool) (late : remaining deadline now = 0) :
    Takes own (.inClock deadline) (.returns (.time now) running) .beforeImmediate
  | ahead (deadline now : Instant) (running : Bool) (early : remaining deadline now ≠ 0) :
    Takes own (.inClock deadline) (.returns (.time now) running)
      (.beforePoll (some (remaining deadline now)))
  | callPollForever (context : ContextId) (mine : own = some context) :
    Takes own .beforeWait (.calls (.poll context none) none) .inPoll
  | callPoll (context : ContextId) (mine : own = some context) (timeout : Option Duration)
      (recorded : Option Instant) :
    Takes own (.beforePoll timeout) (.calls (.poll context timeout) recorded) .inPoll
  | ranPoll (running : Bool) : Takes own .inPoll (.returns .done running) .beforeImmediate
  | failedPoll (cause : IoError) (running : Bool) :
    Takes own .inPoll (.returns (.failed cause) running) (.stopped (.failed (.poll cause)))
  | panicked (phase : LoopPhase) (outside : phase.callsOut = true) (message : String)
      (running : Bool) :
    Takes own phase (.returns (.panicked message) running) (.stopped (.panicked message))

/-- The runs of the reference machine, the latest event first. -/
inductive LoopRun (own : Option ContextId) : List LoopEvent → LoopPhase → Prop
  | start : LoopRun own [] .beforeImmediate
  | step {trace : List LoopEvent} {before after : LoopPhase} {event : LoopEvent} :
    LoopRun own trace before → before.Takes own event after → LoopRun own (event :: trace) after

/-! ### The machine follows the loop -/

/-- The phase of a loop at a point. -/
def LoopPoint.phase : LoopPoint → LoopPhase
  | .immediate => .inImmediate
  | .delayed worked _ => .inDelayed worked
  | .notifying => .inNotify
  | .idle => .inIdle
  | .timing deadline => .inClock deadline
  | .polling _ => .inPoll

/-- Whether an invocation is in its loop. -/
def Stage.loops : Stage → Bool
  | .working _ _ => true
  | _ => false

/-- How the trace of an invocation stands to its stage: it is empty before the loop, in the loop the
machine is where the loop is, and as the loop ends the machine has stopped with the same outcome. -/
def Stage.Traced (own : Option ContextId) (trace : List LoopEvent) : Stage → Prop
  | .creating | .naming _ | .binding _ | .guarding _ _ | .exchanging _ _ | .starting => trace = []
  | .working _ point => LoopRun own trace point.phase
  | .releasing _ outcome => LoopRun own trace (.stopped outcome)
  | _ => ∃ phase, LoopRun own trace phase

/-- The traces of all invocations on a stack. -/
def Traced : List Invocation → List (Option ContextId) → List (List LoopEvent) → Prop
  | [], [], [] => True
  | top :: rest, own :: others, trace :: traces =>
    top.stage.Traced own trace ∧ Traced rest others traces
  | _, _, _ => False

/-- A step of the loop is a return that the machine takes, and the call that it makes next. -/
theorem LoopStep.traced {running : Bool} {recorded deadline : Option Instant} {held : ContextId}
    {point : LoopPoint} {answer : Answer} {stage : Stage} {own : Option ContextId}
    {trace : List LoopEvent} (slot : ContextId)
    (step : LoopStep running recorded held point answer deadline stage)
    (mine : own = some held) (traced : LoopRun own trace point.phase) :
    stage.Traced own ((if stage.loops then [.calls (stage.request slot) deadline] else []) ++
      .returns answer running :: trace) := by
  cases step
  case passImmediate did going =>
    subst going
    exact .step (.step traced (.ranImmediate did)) (.callDelayed did recorded)
  case quitImmediate did quit =>
    subst quit
    exact .step traced (.quitImmediate did)
  case workDelayed before did lent going worked =>
    subst going
    have ran : LoopPhase.Takes own _ _ _ := .ranDelayed before did deadline
    rw [if_pos worked] at ran
    exact .step (.step traced ran) (.callNotify deadline)
  case passDelayed lent going =>
    subst going
    exact .step (.step traced (.ranDelayed false false deadline)) (.callIdle deadline)
  case quitDelayed before did lent quit =>
    subst quit
    exact .step traced (.quitDelayed before did deadline)
  case notified => exact .step (.step traced (.ranNotify running)) (.callImmediate recorded)
  case workIdle going =>
    subst going
    exact .step (.step traced (.ranIdle true)) (.callNotify recorded)
  case waitForever going none =>
    subst going none
    exact .step (.step traced (.ranIdle false)) (.callPollForever held mine)
  case lookAtClock deadline going some =>
    subst going some
    exact .step (.step traced (.ranIdle false)) (.callClock deadline)
  case quitIdle did quit =>
    subst quit
    exact .step traced (.quitIdle did)
  case expire due now passed =>
    exact .step (.step traced (.passed due now running passed)) (.callImmediate none)
  case waitUntil due now ahead =>
    exact .step (.step traced (.ahead due now running ahead)) (.callPoll held mine _ recorded)
  case polled timeout => exact .step (.step traced (.ranPoll running)) (.callImmediate recorded)
  case pollFailed timeout cause => exact .step traced (.failedPoll cause running)
  case panicked message outside =>
    have callsOut : point.phase.callsOut = true := by
      cases point <;> first | rfl | cases outside
    exact .step traced (.panicked _ callsOut message running)

theorem Stage.request_ofLoop (slot : ContextId) (stage : Stage) :
    (stage.request slot).ofLoop = stage.loops := by
  cases stage with
  | working held point => cases point <;> rfl
  | _ => rfl

theorem Stage.leaving_loops (enclosing : Option Enclosing) (outcome : Outcome) :
    (Stage.leaving enclosing outcome).loops = false := by
  cases enclosing <;> rfl

theorem Stage.leaving_traced {own : Option ContextId} {trace : List LoopEvent} {phase : LoopPhase}
    (run : LoopRun own trace phase) (enclosing : Option Enclosing) (outcome : Outcome) :
    (Stage.leaving enclosing outcome).Traced own trace := by
  cases enclosing <;> exact ⟨phase, run⟩

theorem Pump.looping?_cons {pump : Pump} {top : Invocation} {rest : List Invocation}
    (stack : pump.stack = top :: rest) :
    pump.looping? = if top.stage.loops then some (top.stage.request pump.slot) else none := by
  rw [looping?, request?, stack, List.head?_cons, Option.map_some, Option.filter_some,
    Stage.request_ofLoop]

/-- What a step adds to a trace, told by the stages before and after it. -/
theorem Move.loopEvents_cons {pump next : Pump} {top moved : Invocation} {rest : List Invocation}
    {answer : Answer} (stack : pump.stack = top :: rest) (kept : next.stack = moved :: rest) :
    Move.loopEvents { before := pump, event := .answered answer, after := next } =
      (if moved.stage.loops then [.calls (moved.stage.request next.slot) next.deadline] else []) ++
        if top.stage.loops then [.returns answer pump.running] else [] := by
  unfold loopEvents
  rw [Pump.looping?_cons stack, Pump.looping?_cons kept]
  cases top.stage.loops <;> cases moved.stage.loops <;> rfl

/-- A step of the innermost invocation extends its trace by what the machine takes. -/
theorem Pump.RunStep.traced {pump next : Pump} {top moved : Invocation} {rest : List Invocation}
    {answer : Answer} {own : Option ContextId} {trace : List LoopEvent}
    (stack : pump.stack = top :: rest) (kept : next.stack = moved :: rest)
    (step : pump.RunStep top rest top.stage answer next)
    (works : top.stage.WorksOn pump.current own) (traced : top.stage.Traced own trace) :
    moved.stage.Traced (if answer = .created then some pump.created else own)
      (Move.loopEvents { before := pump, event := .answered answer, after := next } ++ trace) := by
  rw [Move.loopEvents_cons stack kept]
  generalize top.stage = stage at traced works step ⊢
  cases step
  case close outcome =>
    exact absurd (congrArg List.length kept) (Nat.ne_of_lt (Nat.lt_succ_self _))
  all_goals obtain rfl := (List.cons.inj kept).1
  case start free =>
    obtain rfl : trace = [] := traced
    exact .step .start (.callImmediate pump.deadline)
  case loop held point deadline stage step =>
    have traced := step.traced pump.slot works traced
    rw [if_neg step.answer_ne, List.append_assoc]
    exact traced
  case release held outcome owned =>
    rw [Stage.leaving_loops]
    exact Stage.leaving_traced traced top.enclosing outcome
  case releaseLast held outcome lost => exact ⟨_, traced⟩
  case destroyed | destroyPanicked =>
    obtain ⟨phase, run⟩ := traced
    rw [Stage.leaving_loops]
    exact Stage.leaving_traced run top.enclosing _
  case conflict taken atCell =>
    rcases atCell with rfl | ⟨made, saved, rfl⟩ | ⟨outcome, rfl⟩
    · obtain rfl : trace = [] := traced
      exact ⟨_, .start⟩
    · obtain rfl : trace = [] := traced
      exact ⟨_, .start⟩
    · exact traced
  case createFailed | createPanicked | namePanicked =>
    obtain rfl : trace = [] := traced
    exact ⟨_, .start⟩
  all_goals exact traced

/-- Along every execution the trace of each invocation is what its stage says. -/
theorem Execution.traced {history : List Move} {pump : Pump} (execution : Execution history pump) :
    Traced pump.stack (ownContexts history) (ownCalls history) := by
  induction execution with
  | start name => trivial
  | @step history pump event next execution possible inductionHypothesis =>
    have happens := Pump.after?_some possible
    cases happens with
    | @answered top rest answer _ stack step =>
      obtain ⟨own, others, contexts, -, works, -⟩ := Execution.recorded_cons execution stack
      rw [stack, contexts] at inductionHypothesis
      unfold ownCalls at inductionHypothesis ⊢
      cases calls : perInvocation _ _ history with
      | nil =>
        rw [calls] at inductionHypothesis
        exact inductionHypothesis.elim
      | cons trace traces =>
        rw [calls] at inductionHypothesis
        obtain ⟨traced, theirs⟩ := inductionHypothesis
        unfold ownContexts at contexts ⊢
        rcases step.stack_cases with ⟨moved, -, kept⟩ | ⟨-, left⟩
        · have same : next.stack.length = pump.stack.length := by
            rw [kept, stack, List.length_cons, List.length_cons]
          rw [perInvocation_answered same, perInvocation_answered same, contexts, calls, kept]
          simp only [List.modifyHead_cons, PumpEvent.answered.injEq]
          exact ⟨step.traced stack kept works traced, theirs⟩
        · subst left
          have shorter : rest.length < pump.stack.length := stack ▸ Nat.lt_succ_self _
          rw [perInvocation_left (.step execution possible) shorter,
            perInvocation_left (.step execution possible) shorter, contexts, calls]
          exact theirs
    | entered yields alive running =>
      refine ⟨?_, inductionHypothesis⟩
      split <;> rfl
    | _ => exact inductionHypothesis

/-! ### What precedes a call -/

/-- The last that happened is a call for immediate work and one for delayed work, with what they
said to have done, and no quit since. -/
def Asked (immediate delayed : Bool) (trace : List LoopEvent) : Prop :=
  ∃ recorded lent deadline earlier,
    trace = .returns (.workedUntil delayed deadline) true :: .calls (.delayed lent) lent ::
      .returns (.worked immediate) true :: .calls .immediate recorded :: earlier

/-- The last that happened is a call for idle work, after immediate and delayed work had been asked
for in vain, and no quit since. -/
def AskedIdle (idle : Bool) (trace : List LoopEvent) : Prop :=
  ∃ recorded earlier, trace = .returns (.worked idle) true :: .calls .idle recorded :: earlier ∧
    Asked false false earlier

/-- The last that happened is a pass that did work. -/
def Worked (trace : List LoopEvent) : Prop :=
  (∃ immediate delayed, (immediate || delayed) = true ∧ Asked immediate delayed trace) ∨
    AskedIdle true trace

/-- The last that happened is a pass in which all three kinds of work were asked for in vain, and
possibly a look at the clock that found the recorded deadline ahead. -/
def Fruitless (trace : List LoopEvent) : Prop :=
  AskedIdle false trace ∨
    ∃ now running deadline earlier,
      trace = .returns (.time now) running :: .calls .clock (some deadline) :: earlier ∧
        remaining deadline now ≠ 0 ∧ AskedIdle false earlier

/-- What must have happened last for the machine to be in a phase. -/
def LoopPhase.Explained (trace : List LoopEvent) : LoopPhase → Prop
  | .inImmediate => ∃ recorded earlier, trace = .calls .immediate recorded :: earlier
  | .beforeDelayed worked => ∃ recorded earlier,
    trace = .returns (.worked worked) true :: .calls .immediate recorded :: earlier
  | .inDelayed worked => ∃ lent recorded earlier,
    trace = .calls (.delayed lent) lent :: .returns (.worked worked) true ::
      .calls .immediate recorded :: earlier
  | .beforeIdle => Asked false false trace
  | .inIdle => ∃ recorded earlier, trace = .calls .idle recorded :: earlier ∧
    Asked false false earlier
  | .beforeWait => AskedIdle false trace
  | .inClock deadline => ∃ earlier, trace = .calls .clock (some deadline) :: earlier ∧
    AskedIdle false earlier
  | .beforePoll _ => Fruitless trace
  | .beforeNotify => Worked trace
  | .inNotify => ∃ recorded earlier, trace = .calls .notify recorded :: earlier ∧ Worked earlier
  | .beforeImmediate | .inPoll | .stopped _ => True

/-- The machine gets to each phase in one way only. -/
theorem LoopRun.explained {own : Option ContextId} {trace : List LoopEvent} {phase : LoopPhase}
    (run : LoopRun own trace phase) : phase.Explained trace := by
  induction run with
  | start => trivial
  | step _ takes inductionHypothesis =>
    cases takes with
    | callImmediate recorded => exact ⟨recorded, _, rfl⟩
    | ranImmediate did =>
      obtain ⟨recorded, earlier, rfl⟩ := inductionHypothesis
      exact ⟨recorded, earlier, rfl⟩
    | callDelayed worked lent =>
      obtain ⟨recorded, earlier, rfl⟩ := inductionHypothesis
      exact ⟨lent, recorded, earlier, rfl⟩
    | ranDelayed worked did deadline =>
      obtain ⟨lent, recorded, earlier, rfl⟩ := inductionHypothesis
      split
      · next fruitful =>
        exact Or.inl ⟨worked, did, fruitful, recorded, lent, deadline, earlier, rfl⟩
      · next vain =>
        rw [Bool.or_eq_true, not_or, Bool.not_eq_true, Bool.not_eq_true] at vain
        obtain ⟨rfl, rfl⟩ := vain
        exact ⟨recorded, lent, deadline, earlier, rfl⟩
    | callIdle recorded => exact ⟨recorded, _, rfl, inductionHypothesis⟩
    | ranIdle did =>
      obtain ⟨recorded, earlier, rfl, asked⟩ := inductionHypothesis
      cases did with
      | true => exact Or.inr ⟨recorded, earlier, rfl, asked⟩
      | false => exact ⟨recorded, earlier, rfl, asked⟩
    | callClock deadline => exact ⟨_, rfl, inductionHypothesis⟩
    | ahead deadline now running early =>
      obtain ⟨earlier, rfl, asked⟩ := inductionHypothesis
      exact Or.inr ⟨now, running, deadline, earlier, rfl, early, asked⟩
    | callNotify recorded => exact ⟨recorded, _, rfl, inductionHypothesis⟩
    | _ => trivial

/-- Each event of a run is one that the machine takes where it stands by then. -/
theorem LoopRun.takes {own : Option ContextId} {later earlier : List LoopEvent}
    {event : LoopEvent} {phase : LoopPhase} (run : LoopRun own (later ++ event :: earlier) phase) :
    ∃ before after, LoopRun own earlier before ∧ before.Takes own event after := by
  induction later generalizing phase with
  | nil =>
    cases run with
    | step run takes => exact ⟨_, _, run, takes⟩
  | cons _ _ inductionHypothesis =>
    cases run with
    | step run _ => exact inductionHypothesis run

/-- After a pass that did work the machine is about to notify. -/
theorem LoopRun.worked {own : Option ContextId} {trace : List LoopEvent} {phase : LoopPhase}
    (run : LoopRun own trace phase) (worked : Worked trace) : phase = .beforeNotify := by
  rcases worked with ⟨immediate, delayed, fruitful, recorded, lent, deadline, earlier, rfl⟩ |
    ⟨recorded, earlier, rfl, -⟩
  · cases run with
    | step run takes =>
      cases takes with
      | ranDelayed worked =>
        obtain ⟨_, _, _, same⟩ := run.explained
        cases same
        rw [if_pos fruitful]
  · cases run with
    | step run takes =>
      cases takes with
      | ranImmediate =>
        obtain ⟨_, _, same⟩ := run.explained
        cases same
      | ranIdle => rfl

/-- After a notification the machine starts over. -/
theorem LoopRun.notified {own : Option ContextId} {recorded : Option Instant} {running : Bool}
    {earlier : List LoopEvent} {phase : LoopPhase}
    (run : LoopRun own (.returns .done running :: .calls .notify recorded :: earlier) phase) :
    phase = .beforeImmediate := by
  cases run with
  | step run takes =>
    cases takes with
    | ranNotify => rfl
    | ranPoll => rfl

/-! ### The discipline -/

theorem Stage.Traced.run {own : Option ContextId} {trace : List LoopEvent} {stage : Stage}
    (traced : stage.Traced own trace) : ∃ phase, LoopRun own trace phase := by
  cases stage with
  | creating | naming | binding | guarding | exchanging | starting =>
    obtain rfl : trace = [] := traced
    exact ⟨_, .start⟩
  | working held point => exact ⟨point.phase, traced⟩
  | releasing held outcome => exact ⟨.stopped outcome, traced⟩
  | _ => exact traced

theorem Traced.get {stack : List Invocation} {contexts : List (Option ContextId)}
    {traces : List (List LoopEvent)} (traced : Traced stack contexts traces) {index : Nat}
    {own : Option ContextId} {trace : List LoopEvent} (context : contexts[index]? = some own)
    (calls : traces[index]? = some trace) :
    ∃ invocation, stack[index]? = some invocation ∧ invocation.stage.Traced own trace := by
  induction stack generalizing contexts traces index with
  | nil =>
    cases contexts with
    | nil => cases context
    | cons => exact traced.elim
  | cons top rest inductionHypothesis =>
    match contexts, traces with
    | own :: others, trace :: traces =>
      cases index with
      | zero =>
        cases context
        cases calls
        exact ⟨top, rfl, traced.1⟩
      | succ index => exact inductionHypothesis traced.2 context calls
    | [], _ => exact traced.elim
    | _ :: _, [] => exact traced.elim

theorem Traced.length {stack : List Invocation} {contexts : List (Option ContextId)}
    {traces : List (List LoopEvent)} (traced : Traced stack contexts traces) :
    traces.length = stack.length := by
  induction stack generalizing contexts traces with
  | nil =>
    match contexts, traces with
    | [], [] => rfl
    | [], _ :: _ => exact traced.elim
    | _ :: _, _ => exact traced.elim
  | cons top rest inductionHypothesis =>
    match contexts, traces with
    | own :: others, trace :: traces =>
      rw [List.length_cons, List.length_cons, inductionHypothesis traced.2]
    | [], _ => exact traced.elim
    | _ :: _, [] => exact traced.elim

/-- The calls of each invocation on the stack, whatever is nested in them, are a run of the
reference machine, which stands and stops where the loop does. Hence idle work is asked for only
after immediate and delayed work were asked for in vain, a poll follows only a pass in which all
three were, and a notification follows every pass that did work, once, and no other. -/
theorem Execution.loop_discipline {history : List Move} {pump : Pump}
    (execution : Execution history pump) :
    (ownCalls history).length = pump.stack.length ∧
      ∀ (index : Nat) own trace, (ownContexts history)[index]? = some own →
        (ownCalls history)[index]? = some trace →
        (∃ invocation, pump.stack[index]? = some invocation ∧
            invocation.stage.Traced own trace) ∧
          (∃ phase, LoopRun own trace phase) ∧
          (∀ later earlier recorded, trace = later ++ .calls .idle recorded :: earlier →
            Asked false false earlier) ∧
          (∀ later earlier recorded context timeout,
            trace = later ++ .calls (.poll context timeout) recorded :: earlier →
            own = some context ∧ Fruitless earlier) ∧
          (∀ later earlier recorded, trace = later ++ .calls .notify recorded :: earlier →
            Worked earlier) ∧
          (∀ later event earlier, trace = later ++ event :: earlier → Worked earlier →
            ∃ recorded, event = .calls .notify recorded) ∧
          ∀ later event running recorded earlier,
            trace = later ++ event :: .returns .done running :: .calls .notify recorded :: earlier →
            ∃ deadline, event = .calls .immediate deadline := by
  refine ⟨execution.traced.length, fun index own trace context calls => ?_⟩
  obtain ⟨invocation, present, traced⟩ := execution.traced.get context calls
  obtain ⟨phase, run⟩ := traced.run
  refine ⟨⟨invocation, present, traced⟩, ⟨phase, run⟩, ?_, ?_, ?_, ?_, ?_⟩
  · rintro later earlier recorded rfl
    obtain ⟨before, after, reached, takes⟩ := run.takes
    cases takes
    exact reached.explained
  · rintro later earlier recorded polled timeout rfl
    obtain ⟨before, after, reached, takes⟩ := run.takes
    cases takes with
    | callPollForever _ mine => exact ⟨mine, Or.inl reached.explained⟩
    | callPoll _ mine => exact ⟨mine, reached.explained⟩
  · rintro later earlier recorded rfl
    obtain ⟨before, after, reached, takes⟩ := run.takes
    cases takes
    exact reached.explained
  · rintro later event earlier rfl worked
    obtain ⟨before, after, reached, takes⟩ := run.takes
    obtain rfl := reached.worked worked
    cases takes with
    | callNotify recorded => exact ⟨recorded, rfl⟩
    | panicked _ outside => cases outside
  · rintro later event running recorded earlier rfl
    obtain ⟨before, after, reached, takes⟩ := run.takes
    obtain rfl := reached.notified
    cases takes with
    | callImmediate deadline => exact ⟨deadline, rfl⟩
    | panicked _ outside => cases outside

/-- A run is quit inside the first callback of another, which then finds nothing to do. -/
def quietPass : List PumpEvent :=
  [.entered, .answered .done, .entered, .answered .created, .answered .done, .answered .done,
    .answered .done, .answered .done, .answered .done, .quit, .answered (.worked true),
    .answered .done, .answered .done, .answered .done, .answered .done, .answered .done,
    .answered .done, .answered .done, .answered (.worked false),
    .answered (.workedUntil false none), .answered (.worked false)]

theorem Execution.loop_discipline_quietPass :
    ∃ trace, (ownContexts (replayed quietPass).1)[0]? = some (some 0) ∧
      (ownCalls (replayed quietPass).1)[0]? = some (.calls (.poll 0 none) none :: trace) ∧
      Fruitless trace := by
  have execution := Execution.of_replayed quietPass
  have context : (ownContexts (replayed quietPass).1)[0]? = some (some 0) := by decide
  have calls : (ownCalls (replayed quietPass).1)[0]? =
      some (.calls (.poll 0 none) none :: _) := rfl
  have discipline := (Execution.loop_discipline execution).2 0 _ _ context calls
  exact ⟨_, context, calls, (discipline.2.2.2.1 [] _ none 0 none rfl).2⟩

end MessagePump

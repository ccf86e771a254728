/-
This file follows each poll of a context from its call to its result.

A poll waits once. The events that are reported to it and do not belong to the wake signal get
their turn one by one, in their order, and whether a turn starts a callback is decided by the table
as it is then: the watch has to be there, and its callback must not be running. What other
operations do in between, polls of the same context among them, changes the table but never the
list of turns.

A callback that panics is not put back. Its watch stays in the table and is never called again;
apart from this every watch has its callback whenever that is not running.
-/

import MessagePump.Proofs.Unwatching

namespace MessagePump

/-! ### What a poll is told and does -/

/-- The events of watches among those that a wait has reported, as callbacks are told of them. -/
def natives (events : List Event) : List (Token × Readiness) :=
  (events.filter fun event => event.token ≠ wakeToken).map fun event =>
    (event.token, .ofFlags event.flags)

/-- The events that a wait has reported. -/
def ContextAnswer.reported : ContextAnswer → List Event
  | .events reported => reported
  | _ => []

namespace ContextStage

/-- The answer to a wait. -/
def waits? : ContextStage → ContextAnswer → Option ContextAnswer
  | .waiting _, answer => some answer
  | _, _ => none

/-- The failure of an attempt to drain the wake signal. -/
def drainFails? : ContextStage → ContextAnswer → Option IoError
  | .collecting (_ :: _) _, .failed cause => some cause
  | _, _ => none

/-- The result with which an operation returns. -/
def results? : ContextStage → Option ContextResult
  | .ended result => some result
  | _ => none

/-- The events that are still to get their turn. -/
def pending? : ContextStage → Option (List (Token × Readiness))
  | .dispatching ready | .calling _ _ _ ready | .replacing _ _ ready
  | .discarding _ (.dispatch ready) => some ready
  | _ => none

/-- A poll comes back to its next event, or ends, after so many steps at most. -/
def credit : ContextStage → Nat
  | .calling .. => 3
  | .replacing .. => 2
  | .discarding .. => 1
  | _ => 0

/-- Whether a panic goes through a poll. -/
def unwinds : ContextStage → Bool
  | .discarding _ (.finish (.panicked _)) | .ended (.panicked _) | .aborting => true
  | _ => false

end ContextStage

namespace ContextTransition

/-- The event that gets its turn. -/
def turn? (transition : ContextTransition) : Option (Token × Readiness) :=
  Context.machine.told? (fun stage _ => stage.turn?) transition

/-- The event that gets its turn, if its watch is in the table and the callback is not running. -/
def due? (transition : ContextTransition) : Option (Token × Readiness) :=
  transition.turn?.filter fun entry =>
    (transition.before.interest? entry.1).isSome && !transition.before.executing entry.1

/-- Whether a callback panics, or a destructor of what a callback owns. -/
def panics (transition : ContextTransition) : Bool :=
  match transition.event with
  | .answered (.panicked _) => true
  | _ => false

/-- The result with which an operation returns. -/
def result? (transition : ContextTransition) : Option ContextResult :=
  Context.machine.told? (fun stage _ => stage.results?) transition

end ContextTransition

/-- The event that has led to the start of a callback. -/
def Activation.entry (activation : Activation) : Token × Readiness :=
  (activation.token, activation.readiness)

namespace ContextCourse

/-- The answers that the operation has got to its waits. -/
def waits (course : ContextCourse) : List ContextAnswer :=
  course.own.filterMap (Context.machine.told? ContextStage.waits?)

/-- The events that have been reported to the operation. -/
def reported (course : ContextCourse) : List Event := course.waits.flatMap ContextAnswer.reported

/-- How the operation has failed to drain the wake signal. -/
def drainFailures (course : ContextCourse) : List IoError :=
  course.own.filterMap (Context.machine.told? ContextStage.drainFails?)

/-- The events that have got their turn, the earliest first. -/
def turns (course : ContextCourse) : List (Token × Readiness) :=
  course.own.reverse.filterMap ContextTransition.turn?

/-- The turns in which the watch was in the table and the callback was not running, the earliest
first. -/
def due (course : ContextCourse) : List (Token × Readiness) :=
  course.own.reverse.filterMap ContextTransition.due?

/-- The callbacks that the operation has started, the earliest first. -/
def starts (course : ContextCourse) : List Activation :=
  course.own.reverse.filterMap ContextTransition.starts?

/-- The table and the next token are as they were when the operation was called. -/
structure Unmoved (course : ContextCourse) (context : Context) : Prop where
  table : context.table = course.start.table
  nextToken : context.nextToken = course.start.nextToken

/-- The course of an operation after one more transition of its own. -/
def move (course : ContextCourse) (transition : ContextTransition) : ContextCourse :=
  { course with own := transition :: course.own }

variable (course : ContextCourse) {context : Context} {stage : ContextStage}
  {rest : List ContextStage} (next : Context)

theorem waits_move (tasks : context.tasks = stage :: rest) (answer : ContextAnswer) :
    (course.move ⟨context, .answered answer, next⟩).waits =
      (stage.waits? answer).toList ++ course.waits :=
  Machine.filterMap_told? tasks _ answer next course.own

theorem drainFailures_move (tasks : context.tasks = stage :: rest) (answer : ContextAnswer) :
    (course.move ⟨context, .answered answer, next⟩).drainFailures =
      (stage.drainFails? answer).toList ++ course.drainFailures :=
  Machine.filterMap_told? tasks _ answer next course.own

theorem turns_move (tasks : context.tasks = stage :: rest) (answer : ContextAnswer) :
    (course.move ⟨context, .answered answer, next⟩).turns = course.turns ++ stage.turn?.toList := by
  rw [turns, move, List.reverse_cons, List.filterMap_append]
  refine congrArg _ ?_
  exact (Machine.filterMap_told? tasks _ answer next []).trans (List.append_nil _)

/-- A transition that is no wait, no turn and no failure. -/
theorem quiet_move (tasks : context.tasks = stage :: rest) {answer : ContextAnswer}
    (waits : stage.waits? answer = none) (drains : stage.drainFails? answer = none)
    (turn : stage.turn? = none) :
    (course.move ⟨context, .answered answer, next⟩).waits = course.waits ∧
      (course.move ⟨context, .answered answer, next⟩).drainFailures = course.drainFailures ∧
      (course.move ⟨context, .answered answer, next⟩).turns = course.turns := by
  rw [waits_move course next tasks, drainFailures_move course next tasks,
    turns_move course next tasks, waits, drains, turn]
  exact ⟨rfl, rfl, List.append_nil _⟩

end ContextCourse

theorem natives_append (before after : List Event) :
    natives (before ++ after) = natives before ++ natives after := by
  rw [natives, List.filter_append, List.map_append, natives, natives]

theorem natives_length (events : List Event) : (natives events).length ≤ events.length := by
  rw [natives, List.length_map]
  exact List.length_filter_le _ _

theorem natives_wake {event : Event} (wake : event.token = wakeToken) (seen : List Event) :
    natives (seen ++ [event]) = natives seen := by
  have none : natives [event] = [] := by
    rw [natives, List.filter_cons_of_neg (by simpa using wake), List.filter_nil, List.map_nil]
  rw [natives_append, none, List.append_nil]

theorem natives_native {event : Event} (native : event.token ≠ wakeToken) (seen : List Event) :
    natives (seen ++ [event]) = natives seen ++ [(event.token, .ofFlags event.flags)] := by
  have one : natives [event] = [(event.token, .ofFlags event.flags)] := by
    rw [natives, List.filter_cons_of_pos (by simpa using native), List.filter_nil,
      List.map_singleton]
  rw [natives_append, one]

/-! ### Polls, stage by stage -/

/-- A wait that has not failed: it has been interrupted, or it has reported events. -/
def ContextAnswer.completes : ContextAnswer → Bool
  | .interrupted | .events _ => true
  | _ => false

/-- What is known of a poll at each of its stages. -/
inductive Polls (context : Context) (course : ContextCourse) : ContextStage → Prop
  | preparing (timeout : Option Duration) (own : course.own = [])
      (unmoved : course.Unmoved context) :
    Polls context course (.preparing timeout)
  | waiting (timeout : Option Duration) (waits : course.waits = [])
      (drains : course.drainFailures = []) (turns : course.turns = [])
      (length : course.own.length = 1) (unmoved : course.Unmoved context) :
    Polls context course (.waiting timeout)
  | collecting (seen events : List Event) (ready : List (Token × Readiness))
      (gathered : ready = natives seen) (answer : ContextAnswer) (waits : course.waits = [answer])
      (completes : answer.completes = true) (split : answer.reported = seen ++ events)
      (drains : course.drainFailures = []) (turns : course.turns = [])
      (length : course.own.length = seen.length + 2) (unmoved : course.Unmoved context) :
    Polls context course (.collecting events ready)
  | visiting (stage : ContextStage) (ready : List (Token × Readiness))
      (pending : stage.pending? = some ready) (answer : ContextAnswer)
      (waits : course.waits = [answer]) (completes : answer.completes = true)
      (drains : course.drainFailures = []) (split : natives answer.reported = course.turns ++ ready)
      (length : course.own.length + 4 * ready.length + stage.credit ≤
        5 * answer.reported.length + 3) : Polls context course stage
  | polled (answer : ContextAnswer) (waits : course.waits = [answer])
      (completes : answer.completes = true) (drains : course.drainFailures = [])
      (turns : course.turns = natives answer.reported)
      (length : course.own.length ≤ 5 * answer.reported.length + 4) :
    Polls context course (.ended .polled)
  | failed (cause : IoError) (answer : ContextAnswer) (waits : course.waits = [answer])
      (reason : answer = .failed cause ∧ course.drainFailures = [] ∨
        ∃ events, answer = .events events ∧ course.drainFailures = [cause])
      (turns : course.turns = [])
      (length : course.own.length ≤ 5 * answer.reported.length + 4)
      (unmoved : course.Unmoved context) : Polls context course (.ended (.failed cause))
  | panicked (stage : ContextStage) (unwinds : stage.unwinds = true) (answer : ContextAnswer)
      (waits : course.waits = [answer]) (completes : answer.completes = true)
      (drains : course.drainFailures = []) (ready : List (Token × Readiness))
      (split : natives answer.reported = course.turns ++ ready)
      (panic : ∃ transition ∈ course.own, ContextTransition.panics transition = true)
      (length : course.own.length + stage.credit ≤ 5 * answer.reported.length + 4) :
    Polls context course stage

namespace Polls

variable {context next : Context} {course : ContextCourse} {stage moved : ContextStage}
  {rest : List ContextStage} {answer : ContextAnswer}

/-- While a poll waits for code outside, or for an operation called from there, the context is of no
concern for what is known of the poll. -/
theorem outside (polls : Polls context course stage) (callsOut : stage.callsOut = true) :
    Polls next course stage := by
  cases polls with
  | visiting stage ready pending answer waits completes drains split length =>
    exact .visiting stage ready pending answer waits completes drains split length
  | panicked stage unwinds answer waits completes drains ready split panic length =>
    exact .panicked stage unwinds answer waits completes drains ready split panic length
  | preparing | waiting | collecting | polled | failed => cases callsOut

theorem fresh (timeout : Option Duration) (past : List ContextTransition) (context : Context) :
    Polls (context.begin (.poll timeout))
      { call := .poll timeout, past, start := context, own := [] } (.preparing timeout) :=
  .preparing timeout rfl ⟨rfl, rfl⟩

variable (tasks : context.tasks = stage :: rest) (after : next.tasks = moved :: rest)
include tasks after

/-- A poll starts with borrowing the buffer. -/
theorem step_preparing {timeout : Option Duration} (own : course.own = [])
    (unmoved : course.Unmoved context) (prepares : stage = .preparing timeout)
    (step : context.Step rest stage answer next) (sound : next.tasks.head? ≠ some .conflicted) :
    Polls next (course.move ⟨context, .answered answer, next⟩) moved := by
  subst prepares
  obtain ⟨waits, drains, turns⟩ : course.waits = [] ∧ course.drainFailures = [] ∧
      course.turns = [] := by
    rw [ContextCourse.waits, ContextCourse.drainFailures, ContextCourse.turns, own]
    exact ⟨rfl, rfl, rfl⟩
  cases step with
  | prepare =>
    cases after
    obtain ⟨waits', drains', turns'⟩ := ContextCourse.quiet_move course _ tasks rfl rfl rfl
    exact .waiting timeout (waits'.trans waits) (drains'.trans drains) (turns'.trans turns)
      (congrArg (·.length + 1) own) ⟨unmoved.table, unmoved.nextToken⟩
  | conflict => exact absurd rfl sound

/-- A poll waits once. -/
theorem step_waiting {timeout : Option Duration} (waits : course.waits = [])
    (drains : course.drainFailures = []) (turns : course.turns = [])
    (length : course.own.length = 1) (unmoved : course.Unmoved context)
    (awaits : stage = .waiting timeout) (step : context.Step rest stage answer next)
    (sound : next.tasks.head? ≠ some .conflicted) :
    Polls next (course.move ⟨context, .answered answer, next⟩) moved := by
  subst awaits
  have waits : (course.move ⟨context, .answered answer, next⟩).waits = [answer] := by
    rw [ContextCourse.waits_move course next tasks, waits]
    rfl
  have drains : (course.move ⟨context, .answered answer, next⟩).drainFailures = [] := by
    rw [ContextCourse.drainFailures_move course next tasks, drains]
    rfl
  have turns : (course.move ⟨context, .answered answer, next⟩).turns = [] := by
    rw [ContextCourse.turns_move course next tasks, turns]
    rfl
  have length : (course.move ⟨context, .answered answer, next⟩).own.length = 2 :=
    congrArg (· + 1) length
  cases step with
  | interrupt =>
    cases after
    exact .collecting [] [] [] rfl .interrupted waits rfl rfl drains turns length
      ⟨unmoved.table, unmoved.nextToken⟩
  | report _ events =>
    cases after
    exact .collecting [] events [] rfl (.events events) waits rfl rfl drains turns length
      ⟨unmoved.table, unmoved.nextToken⟩
  | waitFailed _ cause =>
    cases after
    exact .failed cause (.failed cause) waits (Or.inl ⟨rfl, drains⟩) turns
      (length ▸ Nat.le_add_left 2 _) ⟨unmoved.table, unmoved.nextToken⟩
  | conflict => exact absurd rfl sound

/-- A poll goes through what has been reported. -/
theorem step_collecting {seen events : List Event} {ready : List (Token × Readiness)}
    {reply : ContextAnswer} (gathered : ready = natives seen) (waits : course.waits = [reply])
    (completes : reply.completes = true)
    (split : reply.reported = seen ++ events) (drains : course.drainFailures = [])
    (turns : course.turns = []) (length : course.own.length = seen.length + 2)
    (unmoved : course.Unmoved context) (collects : stage = .collecting events ready)
    (step : context.Step rest stage answer next) (sound : next.tasks.head? ≠ some .conflicted) :
    Polls next (course.move ⟨context, .answered answer, next⟩) moved := by
  subst collects
  have waits : (course.move ⟨context, .answered answer, next⟩).waits = [reply] := by
    rw [ContextCourse.waits_move course next tasks, waits]
    rfl
  have turns : (course.move ⟨context, .answered answer, next⟩).turns = [] := by
    rw [ContextCourse.turns_move course next tasks, turns]
    rfl
  have drained := ContextCourse.drainFailures_move course next tasks answer
  have length : (course.move ⟨context, .answered answer, next⟩).own.length = seen.length + 3 :=
    congrArg (· + 1) length
  cases step with
  | drain event events _ wake =>
    cases after
    refine .collecting (seen ++ [event]) events _ (gathered.trans (natives_wake wake seen).symm)
      reply waits completes ?_ (drained.trans drains) turns ?_ ⟨unmoved.table, unmoved.nextToken⟩
    · rw [split, List.append_assoc, List.singleton_append]
    · rw [length, List.length_append, List.length_singleton]
  | gather event events _ native =>
    cases after
    have gathered : ready ++ [(event.token, .ofFlags event.flags)] = natives (seen ++ [event]) := by
      rw [gathered, natives_native native]
    refine .collecting (seen ++ [event]) events _ gathered reply waits completes ?_
      (drained.trans drains) turns ?_ ⟨unmoved.table, unmoved.nextToken⟩
    · rw [split, List.append_assoc, List.singleton_append]
    · rw [length, List.length_append, List.length_singleton]
  | drainFailed event events _ cause wake =>
    cases after
    have drains : (course.move ⟨context, .answered _, _⟩).drainFailures = [cause] :=
      drained.trans (congrArg (cause :: ·) drains)
    have bound := congrArg List.length split
    rw [List.length_append, List.length_cons] at bound
    cases reply with
    | events reported =>
      refine .failed cause (.events reported) waits (Or.inr ⟨reported, rfl, drains⟩) turns ?_
        ⟨unmoved.table, unmoved.nextToken⟩
      omega
    | interrupted => exact absurd split.symm (List.append_ne_nil_of_right_ne_nil seen nofun)
    | _ => cases completes
  | collect =>
    cases after
    rw [List.append_nil] at split
    refine .visiting _ ready rfl reply waits completes (drained.trans drains) ?_ ?_
    · rw [split, turns, gathered, List.nil_append]
    · have fewer := natives_length seen
      rw [length, split, gathered]
      change _ + 0 ≤ _
      omega
  | conflict => exact absurd rfl sound

/-- The events get their turn one after the other. -/
theorem step_visiting {ready : List (Token × Readiness)} {reply : ContextAnswer}
    (pending : stage.pending? = some ready) (waits : course.waits = [reply])
    (completes : reply.completes = true) (drains : course.drainFailures = [])
    (split : natives reply.reported = course.turns ++ ready)
    (length : course.own.length + 4 * ready.length + stage.credit ≤ 5 * reply.reported.length + 3)
    (step : context.Step rest stage answer next) (sound : next.tasks.head? ≠ some .conflicted) :
    Polls next (course.move ⟨context, .answered answer, next⟩) moved := by
  have grows : (course.move ⟨context, .answered answer, next⟩).own.length =
      course.own.length + 1 := rfl
  have waits : (course.move ⟨context, .answered answer, next⟩).waits = [reply] := by
    rw [ContextCourse.waits_move course next tasks, waits]
    cases stage with
    | waiting => cases pending
    | _ => rfl
  have drains : (course.move ⟨context, .answered answer, next⟩).drainFailures = [] := by
    rw [ContextCourse.drainFailures_move course next tasks, drains]
    cases stage with
    | collecting => cases pending
    | _ => rfl
  have turns := ContextCourse.turns_move course next tasks answer
  -- Between two turns nothing is done but to call, to put back and to destroy.
  have same : stage.turn? = none → moved.pending? = some ready → moved.credit < stage.credit →
      Polls next (course.move ⟨context, .answered answer, next⟩) moved := by
    intro turn pending' less
    refine .visiting moved ready pending' reply waits completes drains ?_ ?_
    · rw [turns, turn, Option.toList_none, List.append_nil, split]
    · omega
  cases step with
  | take token readiness ready callback =>
    cases pending
    cases after
    refine .visiting _ ready rfl reply waits completes drains ?_ ?_
    · rw [turns, split, List.append_assoc]
      rfl
    · rw [List.length_cons] at length
      change _ + 3 ≤ _
      omega
  | skip token readiness ready =>
    cases pending
    cases after
    refine .visiting _ ready rfl reply waits completes drains ?_ ?_
    · rw [turns, split, List.append_assoc]
      rfl
    · rw [List.length_cons] at length
      change _ + 0 ≤ _
      omega
  | dispatched =>
    cases pending
    cases after
    refine .polled reply waits completes drains ?_ ?_
    · rw [turns, split]
      rfl
    · omega
  | callReturned | replace | replaceNone | discardNext =>
    cases pending
    cases after
    exact same rfl rfl (by simp [ContextStage.credit])
  | callPanicked token readiness callback ready message =>
    cases pending
    cases after
    refine .panicked _ rfl reply waits completes drains ready ?_
      ⟨_, List.mem_cons_self, rfl⟩ ?_
    · rw [turns, split, List.append_assoc]
      rfl
    · change _ + 3 ≤ _ at length
      change _ + 1 ≤ _
      omega
  | discardPanicked callback discarded message =>
    cases after
    refine .panicked _ rfl reply waits completes drains ready ?_
      ⟨_, List.mem_cons_self, rfl⟩ ?_
    · rw [turns, split, List.append_assoc]
      rfl
    · change _ + 1 ≤ _ at length
      change _ + 0 ≤ _
      omega
  | conflict => exact absurd rfl sound
  | _ => cases pending

/-- A panic goes through a poll without another turn. -/
theorem step_panicked {ready : List (Token × Readiness)} {reply : ContextAnswer}
    (unwinds : stage.unwinds = true) (waits : course.waits = [reply])
    (completes : reply.completes = true) (drains : course.drainFailures = [])
    (split : natives reply.reported = course.turns ++ ready)
    (panic : ∃ transition ∈ course.own, ContextTransition.panics transition = true)
    (length : course.own.length + stage.credit ≤ 5 * reply.reported.length + 4)
    (step : context.Step rest stage answer next) (sound : next.tasks.head? ≠ some .conflicted) :
    Polls next (course.move ⟨context, .answered answer, next⟩) moved := by
  have quiet : stage.waits? answer = none ∧ stage.drainFails? answer = none ∧
      stage.turn? = none := by
    cases stage with
    | waiting | collecting | dispatching => cases unwinds
    | _ => exact ⟨rfl, rfl, rfl⟩
  obtain ⟨waits', drains', turns'⟩ :=
    ContextCourse.quiet_move course next tasks quiet.1 quiet.2.1 quiet.2.2
  have on : moved.unwinds = true → moved.credit < stage.credit →
      Polls next (course.move ⟨context, .answered answer, next⟩) moved := by
    intro unwinds less
    refine .panicked moved unwinds reply (waits'.trans waits) completes (drains'.trans drains) ready
      (turns'.symm ▸ split) ?_ ?_
    · obtain ⟨transition, member, panic⟩ := panic
      exact ⟨transition, List.mem_cons_of_mem _ member, panic⟩
    · change course.own.length + 1 + _ ≤ _
      omega
  cases step with
  | discard callback result =>
    cases after
    cases result with
    | panicked => exact on rfl (by simp [ContextStage.credit])
    | _ => cases unwinds
  | discardPanicked | abort =>
    cases after
    exact on rfl (by simp [ContextStage.credit])
  | finish => exact absurd (congrArg List.length after) (Nat.ne_of_lt (Nat.lt_succ_self _))
  | conflict => exact absurd rfl sound
  | _ => cases unwinds

omit after in
/-- A poll that no panic goes through is never stuck. -/
theorem possible (polls : Polls context course stage)
    (calm : ¬∃ transition ∈ course.own, ContextTransition.panics transition = true) :
    ∃ answer next, Context.machine.advance? context answer = some next := by
  have goes : ∀ answer, (∃ advanced, context.advanceTop? rest stage answer = some advanced) →
      ∃ answer next, Context.machine.advance? context answer = some next := by
    rintro answer ⟨⟨next, said⟩, advanced⟩
    refine ⟨answer, next, ?_⟩
    change (context.advance? answer).map Prod.fst = some next
    simp only [Context.advance?, tasks, advanced, Option.map_some]
  cases polls with
  | waiting timeout => exact goes .interrupted ⟨_, rfl⟩
  | collecting seen events => cases events <;> exact goes .done ⟨_, rfl⟩
  | visiting stage ready pending =>
    refine goes .done ?_
    cases stage with
    | dispatching ready => cases ready <;> exact ⟨_, rfl⟩
    | discarding callback after =>
      cases after with
      | dispatch ready => exact ⟨_, rfl⟩
      | finish => cases pending
    | calling | replacing => exact ⟨_, rfl⟩
    | _ => cases pending
  | panicked _ _ _ _ _ _ _ _ panic => exact absurd panic calm
  | preparing | polled | failed => exact goes .done ⟨_, rfl⟩

omit tasks after

theorem length_le (polls : Polls context course stage) :
    course.own.length ≤ 5 * course.reported.length + 4 := by
  have waited : ∀ answer, course.waits = [answer] → course.reported = answer.reported := by
    intro answer waits
    rw [ContextCourse.reported, waits, List.flatMap_singleton]
  cases polls with
  | preparing _ own => exact own ▸ Nat.zero_le _
  | waiting _ _ _ _ length => exact length ▸ Nat.le_add_left 1 _
  | collecting seen events _ _ answer waits _ split _ _ length =>
    rw [waited answer waits, length, split, List.length_append]
    omega
  | visiting _ _ _ answer waits _ _ _ length =>
    rw [waited answer waits]
    omega
  | polled answer waits _ _ _ length | failed _ answer waits _ _ length =>
    rw [waited answer waits]
    exact length
  | panicked _ _ answer waits _ _ _ _ _ length =>
    rw [waited answer waits]
    omega

end Polls

namespace Context

variable {capacity : Nat} {past : List ContextTransition} {context next : Context}

/-- Each poll of a history is followed from its call on. -/
theorem polls_followed (capacity : Nat) : machine.Followed { capacity }
    fun context course stage =>
      ∀ timeout, course.call = .poll timeout → Polls context course stage where
  idle := rfl
  fresh := by
    rintro past context _ next first history begun tasks timeout rfl
    obtain ⟨-, rfl⟩ := machine_called begun
    cases tasks
    exact .fresh timeout past context
  own := by
    intro past context answer next stage moved rest course history advanced tasks after _ polls
      timeout call
    obtain ⟨stage, rest, tasks', step⟩ := machine_answered advanced
    cases tasks.symm.trans tasks'
    have sound := ((History.orderly history).step tasks step).sound
    cases polls timeout call with
    | preparing timeout own unmoved =>
      exact Polls.step_preparing tasks after own unmoved rfl step sound
    | waiting timeout waits drains turns length unmoved =>
      exact Polls.step_waiting tasks after waits drains turns length unmoved rfl step sound
    | collecting seen events ready gathered reply waits completes split drains turns length
        unmoved =>
      exact Polls.step_collecting tasks after gathered waits completes split drains turns length
        unmoved rfl step sound
    | visiting stage ready pending reply waits completes drains split length =>
      exact Polls.step_visiting tasks after pending waits completes drains split length step sound
    | polled | failed =>
      cases step with
      | finish => exact absurd (congrArg List.length after) (Nat.ne_of_lt (Nat.lt_succ_self _))
      | conflict => exact absurd rfl sound
    | panicked stage unwinds reply waits completes drains ready split panic length =>
      exact Polls.step_panicked tasks after unwinds waits completes drains split panic length step
        sound
  aside := by
    intro past context event next stage course history accepted aside polls timeout call
    refine (polls timeout call).outside ?_
    rcases aside with member | member
    · exact (History.orderly history).below stage member
    · exact (History.orderly (history.step accepted)).below stage member

end Context

end MessagePump

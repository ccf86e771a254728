/-
This file proves that code of others never finds a cell borrowed, however the calls on one thread
are nested.

Pumps, contexts and hook slots call out to delegates, callbacks, hooks and destructors, and these
can call back into any of them. The single machines take for granted that they are called only where
they let go of their thread. Here that is derived. A thread keeps its calls in progress, the
innermost first; outside code has the thread if there is none or if the innermost one is calling
out, and then it may start any operation on anything, whether that is in the middle of an operation
or not. Only the innermost call goes on. The invariant is `Thread.Ordered`: whatever is not being
worked on by the innermost call has let go of the thread, and so it has given its cells back.
-/

import MessagePump.Proofs.Callbacks
import MessagePump.Proofs.HookSteps
import MessagePump.Proofs.Nesting
import Mathlib.Logic.Function.Basic

namespace MessagePump

/-! ### The end of an operation -/

theorem Stage.request_callsOut (slot other : ContextId) (stage : Stage) :
    (stage.request slot).callsOut = (stage.request other).callsOut := by
  cases stage with
  | working held point => cases point <;> rfl
  | _ => rfl

/-- The runs around the innermost one are calling out. -/
theorem Execution.outer_callsOut {history : List Move} {pump : Pump}
    (execution : Execution history pump) :
    ∀ invocation ∈ pump.stack.tail, ∀ slot, (invocation.stage.request slot).callsOut = true := by
  induction execution with
  | start name => nofun
  | @step _ pump _ next _ possible inductionHypothesis =>
    cases Pump.after?_some possible with
    | answered stack step =>
      rw [stack, List.tail_cons] at inductionHypothesis
      rcases step.stack_cases with ⟨moved, -, kept⟩ | ⟨-, rfl⟩
      · rwa [kept, List.tail_cons]
      · exact fun invocation member =>
          inductionHypothesis invocation (List.mem_of_mem_tail member)
    | entered yields =>
      intro invocation member slot
      change invocation ∈ pump.stack at member
      cases stack : pump.stack with
      | nil =>
        rw [stack] at member
        cases member
      | cons top rest =>
        rw [stack] at member inductionHypothesis
        rcases List.mem_cons.mp member with rfl | member
        · rw [Pump.yields, Pump.request?, stack] at yields
          exact (Stage.request_callsOut slot pump.slot _).trans yields
        · exact inductionHypothesis invocation member slot
    | _ => exact inductionHypothesis

/-- Outside code has the thread of a pump when a run has left. -/
theorem Execution.yields_left {history : List Move} {pump next : Pump} {answer : Answer}
    (execution : Execution history pump) (advanced : pump.after? (.answered answer) = some next)
    (shorter : next.stack.length < pump.stack.length) : next.yields = true := by
  have outer := execution.outer_callsOut
  cases Pump.after?_some advanced with
  | @answered top rest _ _ stack step =>
    rw [stack, List.tail_cons] at outer
    rw [stack] at shorter
    rcases step.stack_cases with ⟨moved, -, kept⟩ | ⟨-, rfl⟩
    · rw [kept] at shorter
      exact absurd shorter (Nat.lt_irrefl _)
    · cases rest with
      | nil => rfl
      | cons first others => exact outer first List.mem_cons_self _

/-- An operation that ends leaves those that were around it. -/
theorem Machine.around_ended {State Call Answer Stage : Type}
    {machine : Machine State Call Answer Stage} {state next : State} {answer : Answer}
    (advanced : machine.advance? state answer = some next)
    (shorter : (machine.tasks next).length < (machine.tasks state).length) :
    ∃ stage, machine.tasks state = stage :: machine.tasks next := by
  obtain ⟨stage, rest, tasks, after | ⟨moved, after⟩⟩ := machine.advances advanced
  · exact ⟨stage, after.symm ▸ tasks⟩
  · rw [tasks, after] at shorter
    exact absurd shorter (Nat.lt_irrefl _)

theorem head?_all_of_forall {Item : Type} {holds : Item → Bool} {items : List Item}
    (every : ∀ item ∈ items, holds item = true) : items.head?.all holds = true := by
  cases items with
  | nil => rfl
  | cons first others => exact every first List.mem_cons_self

/-- Outside code has the thread of a context when an operation has ended. -/
theorem Context.Orderly.yields_ended {context next : Context} {answer : ContextAnswer}
    (orderly : context.Orderly) (advanced : machine.advance? context answer = some next)
    (shorter : next.tasks.length < context.tasks.length) : next.yields = true := by
  obtain ⟨stage, tasks⟩ := Machine.around_ended advanced shorter
  exact head?_all_of_forall (orderly.callsOut_rest tasks)

/-- Outside code has the thread of a slot when an operation has ended. -/
theorem HookSlot.Orderly.yields_ended {slot next : HookSlot} {answer : HookAnswer}
    (orderly : slot.Orderly) (advanced : machine.advance? slot answer = some next)
    (shorter : next.tasks.length < slot.tasks.length) : next.yields = true := by
  obtain ⟨stage, tasks⟩ := Machine.around_ended advanced shorter
  exact head?_all_of_forall (orderly.callsOut_rest tasks)

/-- The events of a pump by which runs are entered, go on, and leave. -/
def PumpEvent.ofRun : PumpEvent → Bool
  | .answered _ | .entered => true
  | _ => false

/-- All other events leave the runs where they are. -/
theorem Pump.Happens.yields {pump next : Pump} {event : PumpEvent}
    (happens : pump.Happens event next) (other : event.ofRun = false) :
    next.yields = pump.yields := by
  cases happens with
  | answered | entered => cases other
  | _ => rfl

/-! ### Inside a borrow -/

theorem Context.Orderly.unconflicted {context : Context} (orderly : context.Orderly) :
    context.request? ≠ some .conflict := by
  intro asked
  obtain ⟨stage, top, conflict⟩ := Option.map_eq_some_iff.mp asked
  refine orderly.sound (top.trans (congrArg some ?_))
  cases stage with
  | conflicted => rfl
  | collecting reported ready =>
    cases reported with
    | nil => cases conflict
    | cons event events =>
      change (if event.token = wakeToken then ContextRequest.drain else .proceed) = _ at conflict
      split at conflict <;> cases conflict
  | _ => cases conflict

theorem HookSlot.Orderly.unconflicted {slot : HookSlot} (orderly : slot.Orderly) :
    slot.request? ≠ some .conflict := by
  intro asked
  obtain ⟨stage, top, conflict⟩ := Option.map_eq_some_iff.mp asked
  refine orderly.sound (top.trans (congrArg some ?_))
  cases stage with
  | conflicted => rfl
  | _ => cases conflict

section

variable {capacity : Nat} {past : List ContextTransition} {context : Context} {token : Token}
  {callback : CallbackId}

/-- A watch enters the table under a token that is not in use, so no other one gives way to it. -/
theorem Context.History.recording_vacant (history : Context.History capacity past context)
    {descriptor : Descriptor} {interest : Interest}
    (records : context.tasks.head? = some (.recording token descriptor interest callback)) :
    context.table.find? token = none := by
  obtain ⟨rest, tasks⟩ := List.head?_eq_some_iff.mp records
  refine Option.eq_none_iff_forall_ne_some.mpr fun watch present => ?_
  have below := (Context.History.numbered history).table token (WatchTable.token_mem present)
  rw [Context.bound_recording tasks] at below
  exact Nat.lt_irrefl _ below

/-- A callback is put back where none is, so no other one gives way to it. -/
theorem Context.History.replacing_vacant (history : Context.History capacity past context)
    {ready : List (Token × Readiness)}
    (replaces : context.tasks.head? = some (.replacing token callback ready)) :
    (context.table.find? token).bind Watch.callback = none := by
  obtain ⟨rest, tasks⟩ := List.head?_eq_some_iff.mp replaces
  cases present : context.table.find? token with
  | none => rfl
  | some watch => exact empty_of_carries tasks (Context.History.staffed history) rfl present

end

/-! ### A thread -/

/-- What can be called: a run of a pump, an operation on a context, or one on a slot. -/
inductive Callee
  | pump (index : Nat)
  | context (index : Nat)
  | slot (index : Nat)
  deriving DecidableEq

/-- All pumps, contexts and slots of one thread, and its calls in progress, the innermost first. -/
structure Thread where
  pumps : Nat → Pump
  contexts : Nat → Context
  slots : Nat → HookSlot
  calls : List Callee

/-- What can happen on a thread. Outside code starts a run of a pump or an operation, the innermost
call is answered, or something else happens to a pump, which can be a quit or a look at its current
context. -/
inductive ThreadEvent
  | runs (index : Nat)
  | operates (index : Nat) (call : ContextCall)
  | hooks (index : Nat) (call : HookCall)
  | runAnswered (answer : Answer)
  | operationAnswered (answer : ContextAnswer)
  | hookAnswered (answer : HookAnswer)
  | touches (index : Nat) (event : PumpEvent)

namespace Thread

/-- Whether a callee has let go of the thread: nothing is in progress there, or what is in progress
is calling out. -/
def lets (thread : Thread) : Callee → Bool
  | .pump index => (thread.pumps index).yields
  | .context index => (thread.contexts index).yields
  | .slot index => (thread.slots index).yields

/-- Whether outside code has the thread: no call is in progress, or the innermost one is calling
out. -/
def yields (thread : Thread) : Bool := thread.calls.head?.all thread.lets

def setPump (thread : Thread) (index : Nat) (pump : Pump) : Thread :=
  { thread with pumps := Function.update thread.pumps index pump }

def setContext (thread : Thread) (index : Nat) (context : Context) : Thread :=
  { thread with contexts := Function.update thread.contexts index context }

def setSlot (thread : Thread) (index : Nat) (slot : HookSlot) : Thread :=
  { thread with slots := Function.update thread.slots index slot }

/-- One more call is in progress. -/
def enter (thread : Thread) (callee : Callee) : Thread :=
  { thread with calls := callee :: thread.calls }

/-- The innermost call is over, if it is said to have ended. -/
def leaveIf (thread : Thread) (ended : Bool) : Thread :=
  { thread with calls := if ended then thread.calls.tail else thread.calls }

/-- A thread after an event, if the event is possible. Calls are made wherever outside code has the
thread; nobody looks at what the callee is doing. What else happens to a pump can come from another
thread, so it does not ask who has this one. -/
def after? (thread : Thread) : ThreadEvent → Option Thread
  | .runs index =>
    if thread.yields && (thread.pumps index).alive then
      (thread.pumps index).enter?.map fun entered =>
        (thread.setPump index entered.1).enter (.pump index)
    else none
  | .operates index call =>
    if thread.yields then
      some ((thread.setContext index ((thread.contexts index).begin call)).enter (.context index))
    else none
  | .hooks index call =>
    if thread.yields then
      some ((thread.setSlot index ((thread.slots index).begin call)).enter (.slot index))
    else none
  | .runAnswered answer =>
    match thread.calls with
    | .pump index :: _ => ((thread.pumps index).advance? answer).map fun moved =>
      (thread.setPump index moved.1).leaveIf
        (decide (moved.1.stack.length < (thread.pumps index).stack.length))
    | _ => none
  | .operationAnswered answer =>
    match thread.calls with
    | .context index :: _ => ((thread.contexts index).advance? answer).map fun moved =>
      (thread.setContext index moved.1).leaveIf
        (decide (moved.1.tasks.length < (thread.contexts index).tasks.length))
    | _ => none
  | .hookAnswered answer =>
    match thread.calls with
    | .slot index :: _ => ((thread.slots index).advance? answer).map fun moved =>
      (thread.setSlot index moved.1).leaveIf
        (decide (moved.1.tasks.length < (thread.slots index).tasks.length))
    | _ => none
  | .touches index event =>
    if event.ofRun then none
    else ((thread.pumps index).after? event).map (thread.setPump index)

/-- A thread on which nothing has happened. -/
def new (names : Nat → String) (capacities : Nat → Nat) : Thread where
  pumps := fun index => { name := names index }
  contexts := fun index => { capacity := capacities index }
  slots := fun _ => {}
  calls := []

/-- The runs of a thread: what has happened, the latest occurrence first, and the thread as it is
now. In the beginning everything is new and nothing is in progress. -/
abbrev Run : List (Occurrence Thread ThreadEvent) → Thread → Prop :=
  Chronicle (Function.uncurry new) after?

/-! ### The invariant -/

/-- Every pump, context and slot is as its own events have made it, and all but the one that the
innermost call works on have let go of the thread. -/
structure Ordered (thread : Thread) : Prop where
  pumps : ∀ index, ∃ history, Execution history (thread.pumps index)
  contexts : ∀ index, ∃ capacity past, Context.History capacity past (thread.contexts index)
  slots : ∀ index, ∃ past, HookSlot.History past (thread.slots index)
  waiting : ∀ callee, thread.calls.head? ≠ some callee → thread.lets callee = true

variable {thread next : Thread}

/-- Where outside code has the thread, everything has let go of it. -/
theorem Ordered.lets (ordered : thread.Ordered) (yields : thread.yields = true) (callee : Callee) :
    thread.lets callee = true := by
  by_cases innermost : thread.calls.head? = some callee
  · rw [Thread.yields, innermost] at yields
    exact yields
  · exact ordered.waiting callee innermost

/-- If only one callee is moved, it is enough to know of that one that it has let go of the thread,
unless the innermost call works on it. -/
theorem waiting_of_moved {moved : Callee}
    (others : ∀ callee, callee ≠ moved → next.lets callee = thread.lets callee)
    (quiet : ∀ callee, callee ≠ moved → next.calls.head? ≠ some callee →
      thread.lets callee = true)
    (ready : next.calls.head? ≠ some moved → next.lets moved = true) :
    ∀ callee, next.calls.head? ≠ some callee → next.lets callee = true := by
  intro callee aside
  by_cases same : callee = moved
  · subst same
    exact ready aside
  · rw [others callee same]
    exact quiet callee same aside

/-- While the innermost call goes on, everything that it does not work on waits. -/
theorem Ordered.quiet (ordered : thread.Ordered) {innermost : Callee} {others : List Callee}
    (calls : thread.calls = innermost :: others) (callee : Callee) (other : callee ≠ innermost) :
    thread.lets callee = true := by
  refine ordered.waiting callee fun same => other ?_
  rw [calls] at same
  exact (Option.some.inj same).symm

theorem Ordered.setPump (ordered : thread.Ordered) {index : Nat} {pump : Pump}
    {calls : List Callee} (reached : ∃ history, Execution history pump)
    (quiet : ∀ callee, callee ≠ .pump index → calls.head? ≠ some callee →
      thread.lets callee = true)
    (ready : calls.head? ≠ some (.pump index) → pump.yields = true) :
    Ordered { thread.setPump index pump with calls } where
  pumps := (Function.forall_update_iff thread.pumps fun _ pump =>
    ∃ history, Execution history pump).mpr ⟨reached, fun other _ => ordered.pumps other⟩
  contexts := ordered.contexts
  slots := ordered.slots
  waiting := by
    refine waiting_of_moved (fun callee other => ?_) quiet fun aside => ?_
    · cases callee with
      | pump moved =>
        exact congrArg Pump.yields (Function.update_of_ne (fun same => other (congrArg _ same)) _ _)
      | context | slot => rfl
    · exact (congrArg Pump.yields (Function.update_self _ _ _)).trans (ready aside)

theorem Ordered.setContext (ordered : thread.Ordered) {index : Nat} {context : Context}
    {calls : List Callee} (reached : ∃ capacity past, Context.History capacity past context)
    (quiet : ∀ callee, callee ≠ .context index → calls.head? ≠ some callee →
      thread.lets callee = true)
    (ready : calls.head? ≠ some (.context index) → context.yields = true) :
    Ordered { thread.setContext index context with calls } where
  pumps := ordered.pumps
  contexts := (Function.forall_update_iff thread.contexts fun _ context =>
    ∃ capacity past, Context.History capacity past context).mpr
      ⟨reached, fun other _ => ordered.contexts other⟩
  slots := ordered.slots
  waiting := by
    refine waiting_of_moved (fun callee other => ?_) quiet fun aside => ?_
    · cases callee with
      | context moved =>
        exact congrArg Context.yields
          (Function.update_of_ne (fun same => other (congrArg _ same)) _ _)
      | pump | slot => rfl
    · exact (congrArg Context.yields (Function.update_self _ _ _)).trans (ready aside)

theorem Ordered.setSlot (ordered : thread.Ordered) {index : Nat} {slot : HookSlot}
    {calls : List Callee} (reached : ∃ past, HookSlot.History past slot)
    (quiet : ∀ callee, callee ≠ .slot index → calls.head? ≠ some callee →
      thread.lets callee = true)
    (ready : calls.head? ≠ some (.slot index) → slot.yields = true) :
    Ordered { thread.setSlot index slot with calls } where
  pumps := ordered.pumps
  contexts := ordered.contexts
  slots := (Function.forall_update_iff thread.slots fun _ slot =>
    ∃ past, HookSlot.History past slot).mpr ⟨reached, fun other _ => ordered.slots other⟩
  waiting := by
    refine waiting_of_moved (fun callee other => ?_) quiet fun aside => ?_
    · cases callee with
      | slot moved =>
        exact congrArg HookSlot.yields
          (Function.update_of_ne (fun same => other (congrArg _ same)) _ _)
      | pump | context => rfl
    · exact (congrArg HookSlot.yields (Function.update_self _ _ _)).trans (ready aside)

/-- The innermost call works on a callee until it ends. -/
theorem ended_of_aside {innermost : Callee} {others : List Callee}
    (calls : thread.calls = innermost :: others) {ended : Prop} [Decidable ended]
    (aside : (if decide ended then thread.calls.tail else thread.calls).head? ≠ some innermost) :
    ended := by
  by_contra going
  rw [decide_eq_false going, calls] at aside
  exact aside rfl

/-- Whatever happens on a thread keeps the invariant. -/
theorem Ordered.after {event : ThreadEvent} (ordered : thread.Ordered)
    (possible : thread.after? event = some next) : next.Ordered := by
  cases event with
  | runs index =>
    obtain ⟨guard, starts⟩ := Option.ite_none_right_eq_some.mp possible
    obtain ⟨yields, alive⟩ := (Bool.and_eq_true _ _).mp guard
    obtain ⟨⟨pump, said⟩, entered, rfl⟩ := Option.map_eq_some_iff.mp starts
    have ready : (thread.pumps index).yields = true := ordered.lets yields (.pump index)
    have entering : (thread.pumps index).after? .entered = some pump := by
      simp only [Pump.after?, ready, alive, Bool.and_self, if_true, entered, Option.map_some]
    obtain ⟨history, execution⟩ := ordered.pumps index
    exact ordered.setPump ⟨_, .step execution entering⟩
      (fun callee _ _ => ordered.lets yields callee) (absurd rfl)
  | operates index call =>
    obtain ⟨yields, same⟩ := Option.ite_none_right_eq_some.mp possible
    obtain rfl := Option.some.inj same
    obtain ⟨capacity, past, history⟩ := ordered.contexts index
    have begun : Context.machine.after? (thread.contexts index) (.called call) = some _ :=
      if_pos (ordered.lets yields (.context index))
    exact ordered.setContext ⟨capacity, _, .step history begun⟩
      (fun callee _ _ => ordered.lets yields callee) (absurd rfl)
  | hooks index call =>
    obtain ⟨yields, same⟩ := Option.ite_none_right_eq_some.mp possible
    obtain rfl := Option.some.inj same
    obtain ⟨past, history⟩ := ordered.slots index
    have begun : HookSlot.machine.after? (thread.slots index) (.called call) = some _ :=
      if_pos (ordered.lets yields (.slot index))
    exact ordered.setSlot ⟨_, .step history begun⟩
      (fun callee _ _ => ordered.lets yields callee) (absurd rfl)
  | runAnswered answer =>
    simp only [after?] at possible
    split at possible
    · next index others calls =>
      obtain ⟨⟨pump, said⟩, advanced, rfl⟩ := Option.map_eq_some_iff.mp possible
      obtain ⟨history, execution⟩ := ordered.pumps index
      have answered : (thread.pumps index).after? (.answered answer) = some pump :=
        congrArg (Option.map Prod.fst) advanced
      exact ordered.setPump ⟨_, .step execution answered⟩
        (fun callee other _ => ordered.quiet calls callee other)
        fun aside => execution.yields_left answered (ended_of_aside calls aside)
    · cases possible
  | operationAnswered answer =>
    simp only [after?] at possible
    split at possible
    · next index others calls =>
      obtain ⟨⟨context, said⟩, advanced, rfl⟩ := Option.map_eq_some_iff.mp possible
      obtain ⟨capacity, past, history⟩ := ordered.contexts index
      have answered : Context.machine.after? (thread.contexts index) (.answered answer) =
          some context := congrArg (Option.map Prod.fst) advanced
      exact ordered.setContext ⟨capacity, _, .step history answered⟩
        (fun callee other _ => ordered.quiet calls callee other)
        fun aside => (Context.History.orderly history).yields_ended answered
          (ended_of_aside calls aside)
    · cases possible
  | hookAnswered answer =>
    simp only [after?] at possible
    split at possible
    · next index others calls =>
      obtain ⟨⟨slot, said⟩, advanced, rfl⟩ := Option.map_eq_some_iff.mp possible
      obtain ⟨past, history⟩ := ordered.slots index
      have answered : HookSlot.machine.after? (thread.slots index) (.answered answer) =
          some slot := congrArg (Option.map Prod.fst) advanced
      exact ordered.setSlot ⟨_, .step history answered⟩
        (fun callee other _ => ordered.quiet calls callee other)
        fun aside => (HookSlot.History.orderly history).yields_ended answered
          (ended_of_aside calls aside)
    · cases possible
  | touches index event =>
    obtain ⟨other, touched⟩ := Option.ite_none_left_eq_some.mp possible
    obtain ⟨pump, happened, rfl⟩ := Option.map_eq_some_iff.mp touched
    obtain ⟨history, execution⟩ := ordered.pumps index
    have same := (Pump.after?_some happened).yields (Bool.not_eq_true _ ▸ other)
    exact ordered.setPump ⟨_, .step execution happened⟩
      (fun callee _ aside => ordered.waiting callee aside)
      fun aside => same.trans (ordered.waiting (.pump index) aside)

theorem Run.ordered {past : List (Occurrence Thread ThreadEvent)} (run : Run past thread) :
    thread.Ordered := by
  induction run with
  | start given =>
    obtain ⟨names, capacities⟩ := given
    exact ⟨fun index => ⟨[], .start (names index)⟩, fun index => ⟨capacities index, [], .start ()⟩,
      fun index => ⟨[], .start ()⟩, fun callee _ => by cases callee <;> rfl⟩
  | step _ possible inductionHypothesis => exact inductionHypothesis.after possible

/-- Wherever outside code has the thread, no cell of any pump, context or slot is borrowed, each of
them can be called, and each pump shows its current context. No run and no operation ever finds a
cell borrowed that it needs. Nor is any code of others run by a step that has borrowed the table of
a context: what such a step overwrites holds no callback. -/
theorem Run.nothing_borrowed {past : List (Occurrence Thread ThreadEvent)}
    (run : Run past thread) :
    (thread.yields = true → ∀ index,
      ((thread.pumps index).yields = true ∧ (thread.pumps index).guarded = false ∧
        (thread.pumps index).context? = some (thread.pumps index).current) ∧
      ((thread.contexts index).yields = true ∧ (thread.contexts index).tableGuarded = false ∧
        (thread.contexts index).bufferGuarded = false) ∧
      (thread.slots index).yields = true ∧ (thread.slots index).guarded = false) ∧
    (∀ index, (thread.pumps index).request? ≠ some .conflict ∧
      (thread.contexts index).request? ≠ some .conflict ∧
      (thread.slots index).request? ≠ some .conflict) ∧
    ∀ index token callback,
      (∀ descriptor interest, (thread.contexts index).tasks.head? =
          some (.recording token descriptor interest callback) →
        (thread.contexts index).table.find? token = none) ∧
      ∀ ready, (thread.contexts index).tasks.head? = some (.replacing token callback ready) →
        ((thread.contexts index).table.find? token).bind Watch.callback = none := by
  have ordered := run.ordered
  refine ⟨fun yields index => ⟨?_, ?_, ?_⟩, fun index => ⟨?_, ?_, ?_⟩,
    fun index token callback => ?_⟩
  · obtain ⟨history, execution⟩ := ordered.pumps index
    have ready : (thread.pumps index).yields = true := ordered.lets yields (.pump index)
    have free := (execution.sound.bound.of_yields ready).2.2
    exact ⟨ready, free, if_neg (Bool.eq_false_iff.mp free)⟩
  · obtain ⟨capacity, past, history⟩ := ordered.contexts index
    have ready : (thread.contexts index).yields = true := ordered.lets yields (.context index)
    exact ⟨ready, (Context.History.orderly history).free ready⟩
  · obtain ⟨past, history⟩ := ordered.slots index
    have ready : (thread.slots index).yields = true := ordered.lets yields (.slot index)
    exact ⟨ready, (HookSlot.History.orderly history).free ready⟩
  · obtain ⟨history, execution⟩ := ordered.pumps index
    exact execution.sound.free
  · obtain ⟨capacity, past, history⟩ := ordered.contexts index
    exact (Context.History.orderly history).unconflicted
  · obtain ⟨past, history⟩ := ordered.slots index
    exact (HookSlot.History.orderly history).unconflicted
  · obtain ⟨capacity, past, history⟩ := ordered.contexts index
    exact ⟨fun _ _ => Context.History.recording_vacant history,
      fun _ => Context.History.replacing_vacant history⟩

/-! ### Running events -/

/-- A new thread after some events, the earliest first, if they are possible. -/
def played (events : List ThreadEvent) : Thread :=
  (Chronicle.replayed after? (new (fun _ => "pump") fun _ => 4) events).2

theorem Run.of_played (events : List ThreadEvent) : ∃ past, Run past (played events) :=
  ⟨_, Chronicle.of_replayed (fun _ => "pump", fun _ => 4) events⟩

/-- A callback is called in a poll, removes its own watch, sets a hook, and starts a nested run,
whose context is being created when the hook is run. -/
def hookInside : List ThreadEvent :=
  [.runs 0, .runAnswered .done,
    .operates 0 (.watch 5 .readable 10), .operationAnswered .done, .operationAnswered .done,
    .operationAnswered .done,
    .runAnswered (.worked false), .runAnswered (.workedUntil false none),
    .runAnswered (.worked false),
    .operates 0 (.poll none), .operationAnswered .done,
    .operationAnswered (.events [⟨0, .onlyInput⟩]), .operationAnswered .done,
    .operationAnswered .done, .operationAnswered .done,
    .operates 0 (.unwatch 0), .operationAnswered .done, .operationAnswered .done,
    .operationAnswered .done,
    .hooks 0 (.set 1), .hookAnswered .done, .hookAnswered .done,
    .runs 0, .hooks 0 .notify, .hookAnswered .done]

theorem Run.nothing_borrowed_hookInside :
    (∃ past, Run past (played hookInside)) ∧
      (played hookInside).calls = [.slot 0, .pump 0, .context 0, .pump 0] ∧
      ((played hookInside).slots 0).tasks = [.running 1] ∧
      ((played hookInside).contexts 0).tasks = [.calling 0 { readable := true } 10 []] ∧
      (played hookInside).yields = true ∧ ((played hookInside).pumps 0).guarded = false ∧
      ((played hookInside).contexts 0).tableGuarded = false ∧
      ((played hookInside).slots 0).guarded = false := by
  obtain ⟨past, run⟩ := Run.of_played hookInside
  have yields : (played hookInside).yields = true := by decide
  obtain ⟨⟨-, pump, -⟩, ⟨-, table, -⟩, -, slot⟩ := (Run.nothing_borrowed run).1 yields 0
  exact ⟨⟨past, run⟩, by decide, by decide, by decide, yields, pump, table, slot⟩

end Thread

end MessagePump

/-
This file holds the executions of a pump: everything that can happen to it, in any order.

The innermost invocation of a pump moves on when its request is answered. While the request is a
call to code outside the pump, and while no run is active, that code can do to the pump whatever
the thread of the pump can do, starting further runs included. Other threads can schedule work
and pass wakers around at any time. No assumption is made on who does what: an execution is any
sequence of such events from a new pump on, so what holds of all executions holds for every
delegate, every reactor and every order of steps.

The reactor enters only through its answers and through the latches of its wake signals. That a
poll takes notice of a wake is an event of its own, `PumpEvent.noticed`; it can happen only inside a
poll that the pump has issued.
-/

import MessagePump.Proofs.Histories
import MessagePump.Proofs.Steps

namespace MessagePump

/-! ### Calls to code outside the pump -/

/-- The requests that are calls to code outside the pump on its thread. The clock is read, and the
slot is signalled, without handing over the thread. -/
def Request.callsOut : Request → Bool
  | .createContext | .nameSignal _ | .immediate | .delayed _ | .idle | .notify | .poll _ _
  | .destroy _ => true
  | .proceed | .clock | .signal _ | .leave _ | .conflict | .abort => false

/-- The answers that a request can have. A conflict on the cell of the current context, and an
abort, have none. -/
def Request.takes : Request → Answer → Bool
  | .createContext, .created | .createContext, .failed _ | .createContext, .panicked _
  | .nameSignal _, .done | .nameSignal _, .panicked _
  | .immediate, .worked _ | .immediate, .panicked _
  | .delayed _, .workedUntil _ _ | .delayed _, .panicked _
  | .idle, .worked _ | .idle, .panicked _
  | .notify, .done | .notify, .panicked _
  | .poll _ _, .done | .poll _ _, .failed _ | .poll _ _, .panicked _
  | .destroy _, .done | .destroy _, .panicked _
  | .clock, .time _
  | .proceed, .done | .signal _, .done | .leave _, .done => true
  | _, _ => false

/-- Whether code outside the pump has its thread: no run is active, or the innermost one is
calling out. -/
def Pump.yields (pump : Pump) : Bool := pump.request?.all Request.callsOut

/-- The context that the innermost invocation is polling. -/
def Pump.polled? (pump : Pump) : Option ContextId :=
  match pump.request? with
  | some (.poll context _) => some context
  | _ => none

/-- Only a loop polls, and it polls the context that it holds. -/
theorem Stage.request_poll {slot context : ContextId} {stage : Stage} {timeout : Option Duration}
    (polls : stage.request slot = .poll context timeout) :
    stage = .working context (.polling timeout) := by
  cases stage with
  | working held point =>
    cases point <;> cases polls
    rfl
  | _ => cases polls

/-- Only a loop asks for delayed work. -/
theorem Stage.request_delayed {slot : ContextId} {stage : Stage} {lent : Option Instant}
    (asks : stage.request slot = .delayed lent) :
    ∃ held worked, stage = .working held (.delayed worked lent) := by
  cases stage with
  | working held point =>
    cases point <;> cases asks
    exact ⟨held, _, rfl⟩
  | _ => cases asks

/-- A poll is waited for by a loop on the polled context. -/
theorem Pump.polled?_some {pump : Pump} {context : ContextId}
    (polled : pump.polled? = some context) :
    ∃ top rest timeout, pump.stack = top :: rest ∧
      top.stage = .working context (.polling timeout) := by
  unfold polled? at polled
  split at polled
  · next held timeout asked =>
    cases polled
    obtain ⟨top, head, polls⟩ := Option.map_eq_some_iff.mp asked
    obtain ⟨rest, stack⟩ := List.head?_eq_some_iff.mp head
    exact ⟨top, rest, timeout, stack, Stage.request_poll polls⟩
  · cases polled

/-! ### Events -/

/-- What can happen to a pump. `scheduled` is a request for work through the wake slot, from any
thread; `signalled` is a wake sent to a context directly. -/
inductive PumpEvent
  | answered (answer : Answer)
  | entered
  | quit
  | deadlineSet (deadline : Instant)
  | scheduled
  | signalled (context : ContextId)
  | noticed
  | acquired (context : ContextId)
  | released (context : ContextId)
  | buried (context : ContextId)
  | wakerAdded
  | wakerDropped
  | retired
  | slotLeft
  deriving DecidableEq

namespace Pump

/-- A pump after an event, if the event is possible. Code outside can become an owner of a context
that it owns already or that is current. -/
def after? (pump : Pump) : PumpEvent → Option Pump
  | .answered answer => (pump.advance? answer).map Prod.fst
  | .entered => if pump.yields && pump.alive then pump.enter?.map Prod.fst else none
  | .quit => if pump.yields && pump.alive then some pump.quit.1 else none
  | .deadlineSet deadline =>
    if pump.yields && pump.alive then some (pump.scheduleDelayed deadline) else none
  | .scheduled | .signalled _ => some pump
  | .noticed => if pump.polled?.isSome then some pump else none
  | .acquired context =>
    if pump.yields && (pump.outside.contains context ||
        pump.alive && pump.context? == some context) then
      some (pump.acquire context)
    else none
  | .released context =>
    if pump.yields && pump.outside.contains context then some (pump.release context).1 else none
  | .buried context =>
    if pump.yields && !pump.isOwned context then some (pump.bury context) else none
  | .wakerAdded => some pump.addWaker
  | .wakerDropped => some pump.dropWaker
  | .retired => if pump.stack.isEmpty && pump.alive then some pump.retire.1 else none
  | .slotLeft => if pump.alive then none else some pump.leaveSlot

end Pump

/-- The possible events, one by one, each with its guard and with the pump after it. -/
inductive Pump.Happens (pump : Pump) : PumpEvent → Pump → Prop
  | answered {top : Invocation} {rest : List Invocation} {answer : Answer} {next : Pump}
      (stack : pump.stack = top :: rest) (step : pump.RunStep top rest top.stage answer next) :
    Happens pump (.answered answer) next
  | entered (yields : pump.yields = true) (alive : pump.alive = true)
      (running : pump.running = true) :
    Happens pump .entered
      { pump with
        level := pump.level + 1
        stack := {
          depth := pump.level + 1
          stage := if pump.level + 1 > 1 then .creating else .starting } :: pump.stack }
  | quit (yields : pump.yields = true) : Happens pump .quit { pump with running := false }
  | deadlineSet (yields : pump.yields = true) (deadline : Instant) :
    Happens pump (.deadlineSet deadline) { pump with deadline := some deadline }
  | scheduled : Happens pump .scheduled pump
  | signalled (context : ContextId) : Happens pump (.signalled context) pump
  | noticed {context : ContextId} (polled : pump.polled? = some context) :
    Happens pump .noticed pump
  | acquired (yields : pump.yields = true) (context : ContextId)
      (owned : context ∈ pump.outside ∨ pump.alive = true ∧ pump.current = context) :
    Happens pump (.acquired context) { pump with outside := context :: pump.outside }
  | released (yields : pump.yields = true) (context : ContextId)
      (owned : context ∈ pump.outside) :
    Happens pump (.released context) { pump with outside := pump.outside.erase context }
  | buried (yields : pump.yields = true) (context : ContextId)
      (lost : pump.isOwned context = false) :
    Happens pump (.buried context) { pump with live := pump.live.erase context }
  | wakerAdded : Happens pump .wakerAdded { pump with wakers := pump.wakers + 1 }
  | wakerDropped : Happens pump .wakerDropped { pump with wakers := pump.wakers - 1 }
  | retired (stack : pump.stack = []) (alive : pump.alive = true) :
    Happens pump .retired { pump with alive := false }
  | slotLeft (gone : pump.alive = false) :
    Happens pump .slotLeft { pump with slotShared := false }

/-- What an event makes of a pump is one of the listed cases. -/
theorem Pump.after?_some {pump next : Pump} {event : PumpEvent}
    (possible : pump.after? event = some next) : pump.Happens event next := by
  cases event <;>
    simp only [after?, Option.ite_none_right_eq_some, Option.ite_none_left_eq_some,
      Option.some.injEq, Option.map_eq_some_iff, Prod.exists, exists_and_right, exists_eq_right,
      Bool.and_eq_true, Bool.or_eq_true, Bool.not_eq_true'] at possible
  case answered answer =>
    obtain ⟨said, advanced⟩ := possible
    obtain ⟨top, rest, stack, step⟩ := advance?_some advanced
    exact .answered stack step
  case entered =>
    obtain ⟨⟨yields, alive⟩, said, entered⟩ := possible
    unfold enter? at entered
    split at entered
    · next running =>
      simp only [Option.some.injEq, Prod.mk.injEq] at entered
      exact entered.1 ▸ .entered yields alive running
    · cases entered
  case noticed =>
    obtain ⟨polled, rfl⟩ := possible
    obtain ⟨context, polled⟩ := Option.isSome_iff_exists.mp polled
    exact .noticed polled
  case quit =>
    obtain ⟨⟨yields, -⟩, rfl⟩ := possible
    exact .quit yields
  case deadlineSet deadline =>
    obtain ⟨⟨yields, -⟩, rfl⟩ := possible
    exact .deadlineSet yields deadline
  case scheduled | signalled =>
    subst possible
    constructor
  case acquired context =>
    obtain ⟨⟨yields, owned⟩, rfl⟩ := possible
    refine .acquired yields context (owned.imp List.contains_iff_mem.mp ?_)
    rintro ⟨alive, current⟩
    refine ⟨alive, ?_⟩
    unfold context? at current
    split at current
    · cases current
    · exact Option.some.inj (eq_of_beq current)
  case released context =>
    obtain ⟨⟨yields, owned⟩, rfl⟩ := possible
    exact .released yields context (List.contains_iff_mem.mp owned)
  case buried context =>
    obtain ⟨⟨yields, lost⟩, rfl⟩ := possible
    exact .buried yields context lost
  case wakerAdded | wakerDropped =>
    subst possible
    constructor
  case retired =>
    obtain ⟨⟨stack, alive⟩, rfl⟩ := possible
    exact .retired (List.isEmpty_iff.mp stack) alive
  case slotLeft =>
    obtain ⟨gone, rfl⟩ := possible
    exact .slotLeft (Bool.not_eq_true _ ▸ gone)

/-- A run can be entered only where outside code has the thread and no quit is in force. -/
theorem Pump.Happens.entering {pump next : Pump} (happens : pump.Happens .entered next) :
    pump.yields = true ∧ pump.running = true := by
  cases happens with
  | entered yields _ running => exact ⟨yields, running⟩

/-- While a run is in progress the invocations around it stay on the stack, as they are. -/
theorem Pump.Happens.below {pump next : Pump} {event : PumpEvent} {below : List Invocation}
    (happens : pump.Happens event next) (around : below <:+ pump.stack)
    (deeper : below.length < pump.stack.length) : below <:+ next.stack := by
  cases happens with
  | @answered top rest _ _ stack step =>
    rw [stack] at around deeper
    have around : below <:+ rest := by
      rcases List.suffix_cons_iff.mp around with rfl | around
      · exact absurd deeper (Nat.lt_irrefl _)
      · exact around
    rcases step.stack_cases with ⟨invocation, -, stack⟩ | ⟨-, rfl⟩
    · rw [stack]
      exact around.trans (List.suffix_cons invocation rest)
    · exact around
  | entered => exact around.trans (List.suffix_cons _ _)
  | _ => exact around

/-- Only the last step of an invocation takes it off the stack. -/
theorem Pump.Happens.shorter {pump next : Pump} {event : PumpEvent}
    (happens : pump.Happens event next) (shorter : next.stack.length < pump.stack.length) :
    ∃ answer, event = .answered answer := by
  cases happens with
  | @answered _ _ answer => exact ⟨answer, rfl⟩
  | entered => exact absurd shorter (Nat.not_lt.mpr (Nat.le_succ _))
  | _ => exact absurd shorter (Nat.lt_irrefl _)

/-- An event with the pump before and after it. -/
abbrev Move := Occurrence Pump PumpEvent

/-- What the innermost invocation asks for next, if the move is an answer to it after which it is
still there. -/
def Move.asks? (move : Move) : Option Request :=
  match move.event with
  | .answered _ =>
    if move.after.stack.length = move.before.stack.length then move.after.request? else none
  | _ => none

theorem Move.asks?_unanswered {move : Move} (other : ∀ answer, move.event ≠ .answered answer) :
    move.asks? = none := by
  unfold asks?
  split
  · next answer answered => exact absurd answered (other answer)
  · rfl

/-- The executions of a pump: what has happened to it so far, the latest move first, and the pump
as it is now. -/
abbrev Execution : List Move → Pump → Prop :=
  Chronicle (fun name : String => ({ name } : Pump)) Pump.after?

/-- The executions of several pumps on one thread. They share nothing, so an event of one of them
leaves the others as they are. -/
inductive Ensemble : (Nat → List Move) → (Nat → Pump) → Prop
  | start (names : Nat → String) : Ensemble (fun _ => []) fun pump => { name := names pump }
  | step {histories : Nat → List Move} {pumps : Nat → Pump} {pump : Nat} {event : PumpEvent}
      {next : Pump} :
    Ensemble histories pumps → (pumps pump).after? event = some next →
      Ensemble
        (fun other => if other = pump
          then { before := pumps pump, event, after := next } :: histories pump
          else histories other)
        fun other => if other = pump then next else pumps other

/-- What happens to one pump alone is a part of what happens to all. -/
theorem Ensemble.of_execution {history : List Move} {pump : Pump}
    (execution : Execution history pump) :
    ∃ histories pumps, Ensemble histories pumps ∧ histories 0 = history ∧ pumps 0 = pump := by
  induction execution with
  | start name => exact ⟨_, _, .start fun _ => name, rfl, rfl⟩
  | step _ possible inductionHypothesis =>
    obtain ⟨histories, pumps, ensemble, rfl, rfl⟩ := inductionHypothesis
    exact ⟨_, _, .step ensemble possible, if_pos rfl, if_pos rfl⟩

theorem Ensemble.execution {histories : Nat → List Move} {pumps : Nat → Pump}
    (ensemble : Ensemble histories pumps) (pump : Nat) :
    Execution (histories pump) (pumps pump) := by
  induction ensemble with
  | start names => exact .start (names pump)
  | @step _ _ moved _ _ _ possible inductionHypothesis =>
    by_cases same : pump = moved
    · subst same
      simp only [if_true]
      exact .step inductionHypothesis possible
    · simp only [if_neg same]
      exact inductionHypothesis

namespace Execution

variable {history : List Move} {pump : Pump}

theorem before {later earlier : List Move} {move : Move}
    (execution : Execution (later ++ move :: earlier) pump) : Execution earlier move.before :=
  Chronicle.before execution

theorem after {later earlier : List Move} {move : Move}
    (execution : Execution (later ++ move :: earlier) pump) :
    Execution (move :: earlier) move.after :=
  Chronicle.after execution

/-- What an invocation asks for next it asks for because of the step that it has taken. -/
theorem asked {earlier : List Move} {move : Move} {request : Request}
    (execution : Execution (move :: earlier) pump) (asks : move.asks? = some request) :
    ∃ answer top moved rest, move.event = .answered answer ∧ move.before.stack = top :: rest ∧
      move.before.RunStep top rest top.stage answer move.after ∧
      move.after.stack = moved :: rest ∧ moved.stage.request move.after.slot = request := by
  cases execution with
  | step _ possible =>
    cases Pump.after?_some possible with
    | @answered top rest answer _ stack step =>
      simp only [Move.asks?, Option.ite_none_right_eq_some] at asks
      obtain ⟨same, asked⟩ := asks
      rcases step.stack_cases with ⟨moved, -, kept⟩ | ⟨-, rfl⟩
      · refine ⟨answer, top, moved, rest, rfl, stack, step, kept, ?_⟩
        rw [Pump.request?, kept] at asked
        exact Option.some.inj asked
      · rw [stack] at same
        exact absurd same (Nat.ne_of_lt (Nat.lt_succ_self _))
    | _ => cases asks

end Execution

/-! ### What an invocation has to itself -/

/-- Something that is kept for each invocation on the stack, the innermost first: `fresh` when it
is entered, and changed by `own` when one of its requests is answered. -/
def perInvocation {γ : Type} (fresh : Move → γ) (own : Move → γ → γ) : List Move → List γ
  | [] => []
  | move :: earlier =>
    let kept := perInvocation fresh own earlier
    match move.event with
    | .entered => fresh move :: kept
    | .answered _ =>
      if move.after.stack.length < move.before.stack.length then kept.tail
      else kept.modifyHead (own move)
    | _ => kept

/-- An answer changes what is kept for the innermost invocation. -/
theorem perInvocation_answered {γ : Type} {fresh : Move → γ} {own : Move → γ → γ}
    {earlier : List Move} {before after : Pump} {answer : Answer}
    (kept : after.stack.length = before.stack.length) :
    perInvocation fresh own ({ before, event := .answered answer, after } :: earlier) =
      (perInvocation fresh own earlier).modifyHead
        (own { before, event := .answered answer, after }) := by
  simp only [perInvocation, kept, Nat.lt_irrefl, if_false]

/-- An invocation that has left takes what was kept for it along. -/
theorem perInvocation_left {γ : Type} {fresh : Move → γ} {own : Move → γ → γ}
    {earlier : List Move} {leaving : Move} {pump : Pump}
    (execution : Execution (leaving :: earlier) pump)
    (shorter : leaving.after.stack.length < leaving.before.stack.length) :
    perInvocation fresh own (leaving :: earlier) =
      (perInvocation fresh own earlier).tail := by
  cases execution with
  | step _ possible =>
    obtain ⟨answer, rfl⟩ := (Pump.after?_some possible).shorter shorter
    simp only [perInvocation, if_pos shorter]

/-! ### Whole runs -/

/-- A run is entered with the one move and left with the other; the moves in between, the latest
first, happen inside it. -/
structure Spans (entry : Move) (inside : List Move) (leaving : Move) : Prop where
  enters : entry.event = .entered
  deeper : ∀ move ∈ inside, entry.before.stack.length < move.after.stack.length
  left : leaving.after.stack.length ≤ entry.before.stack.length

/-! ### Replaying events -/

/-- The history of a new pump to which some events happen, as far as they are possible. -/
def replayed (events : List PumpEvent) : List Move × Pump :=
  Chronicle.replayed Pump.after? { name := "pump" } events

theorem Execution.of_replayed (events : List PumpEvent) :
    Execution (replayed events).1 (replayed events).2 :=
  Chronicle.of_replayed "pump" events

end MessagePump

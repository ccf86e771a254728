/-
This file holds the sessions of a context: everything that can happen to it and to the poller it
works on, in any order.

Outside code that has the thread can call any operation, also from within a callback or from what is
destroyed with one. The innermost operation moves on by itself, by the answers of the system, or
when the code that it has called returns or panics. Meanwhile anybody can send the wake signal and
do with files and descriptors what the system offers, and other pollers come, change and go. The
system goes through the sources that may be ready in an order of its own, so the ready list can be
put into any order at any time. No assumption is made on who does what, or when: what holds of all
sessions holds for every sequence of calls, every callback and every readiness of descriptors.

An operation is followed from its call on by what is kept for it in `operations`, and once it has
returned by its place in `outcomes`.
-/

import MessagePump.Proofs.ContextSteps
import MessagePump.Proofs.Histories
import MessagePump.Proofs.SystemCalls

namespace MessagePump

/-- Whether a request is one to the system. -/
def ContextRequest.asksSystem : ContextRequest → Bool
  | .add .. | .modify .. | .delete _ | .wait .. | .drain => true
  | _ => false

/-! ### Events -/

/-- A context with the system that its poller belongs to. -/
structure Wired where
  context : Context
  kernel : Kernel
  deriving DecidableEq

/-- What can happen. `served` is the answer of the system to the innermost operation; a wait that
finds nothing goes on after it, until it finds something or is `interrupted` or `timedOut`. The rest
is done to the poller by others. -/
inductive SessionEvent
  | called (call : ContextCall)
  | answered (answer : ContextAnswer)
  | served
  | interrupted
  | timedOut
  | signalled
  | changed (call : SystemCall)
  | reordered (ready : List Source)
  | elsewhere (pollers : List Poller)
  | broken
  deriving DecidableEq

/-- Whether an event is a turn of the innermost operation. -/
def SessionEvent.isOwn : SessionEvent → Bool
  | .answered _ | .served | .interrupted | .timedOut => true
  | _ => false

namespace Kernel

/-- The sources that may be ready, in another order. -/
def reorder (kernel : Kernel) (id : PollerId) (ready : List Source) : Kernel :=
  kernel.withList id { (kernel.poller id).list with ready }

/-- The pollers besides the one with a number are replaced. -/
def withOthers (kernel : Kernel) (id : PollerId) (pollers : List Poller) : Kernel :=
  kernel.withPollers (pollers.set id (kernel.poller id))

theorem poller_withOthers {kernel : Kernel} {id : PollerId} {pollers : List Poller}
    (inside : id < pollers.length) :
    (kernel.withOthers id pollers).poller id = kernel.poller id := by
  simp [withOthers, withPollers, Kernel.poller, List.getD_eq_getElem?_getD, inside]

end Kernel

namespace Wired

/-- The number of signals that have not been drained. -/
def pending (poller : PollerId) (wired : Wired) : Nat := (wired.kernel.poller poller).wake.count

/-- The innermost operation is answered. -/
def answer? (wired : Wired) (answer : ContextAnswer) : Option Wired :=
  (wired.context.advance? answer).map fun advanced => { wired with context := advanced.1 }

/-- The innermost operation waits and nothing is there. -/
def idle? (poller : PollerId) (wired : Wired) : Option Wired := do
  match ← wired.kernel.respond? poller (← wired.context.request?) with
  | (.events [], kernel) => some { wired with kernel }
  | _ => none

/-- Whether the wait of the innermost operation has a bound. -/
def bounded (wired : Wired) : Bool :=
  match wired.context.request? with
  | some (.wait _ millis) => decide (0 ≤ millis)
  | _ => false

/-- What an event makes of a context and its poller, if the event is possible. -/
def after? (poller : PollerId) (wired : Wired) : SessionEvent → Option Wired
  | .called call =>
    if wired.context.yields then some { wired with context := wired.context.begin call } else none
  | .answered answer =>
    if wired.context.request?.any ContextRequest.asksSystem then none else wired.answer? answer
  | .served => do
    match ← wired.kernel.respond? poller (← wired.context.request?) with
    | (.events [], kernel) => some { wired with kernel }
    | (answer, kernel) => answer? { wired with kernel } answer
  | .interrupted => (wired.idle? poller).bind fun idle => idle.answer? .interrupted
  | .timedOut =>
    if wired.bounded then (wired.idle? poller).bind fun idle => idle.answer? (.events []) else none
  | .signalled => some { wired with kernel := (wired.kernel.signal poller).1 }
  | .changed call => some { wired with kernel := wired.kernel.perform call }
  | .reordered ready =>
    if ready.isPerm (wired.kernel.poller poller).list.ready then
      some { wired with kernel := wired.kernel.reorder poller ready }
    else none
  | .elsewhere pollers =>
    if poller < pollers.length then
      some { wired with kernel := wired.kernel.withOthers poller pollers }
    else none
  | .broken => some { wired with kernel := wired.kernel.breakPoller poller }

/-- The possible events, one by one, each with its guard and with what it makes of the context and
the system. -/
inductive Happens (poller : PollerId) (wired : Wired) : SessionEvent → Wired → Prop
  | called (call : ContextCall) (yields : wired.context.yields = true) :
    Happens poller wired (.called call) { wired with context := wired.context.begin call }
  | answered {stage : ContextStage} {rest : List ContextStage} {answer : ContextAnswer}
      {context : Context} (tasks : wired.context.tasks = stage :: rest)
      (own : (wired.context.stageRequest stage).asksSystem = false)
      (step : wired.context.Step rest stage answer context) :
    Happens poller wired (.answered answer) { wired with context }
  | served {stage : ContextStage} {rest : List ContextStage} {answer : ContextAnswer}
      {context : Context} {kernel : Kernel} (tasks : wired.context.tasks = stage :: rest)
      (responds : wired.kernel.respond? poller (wired.context.stageRequest stage) =
        some (answer, kernel))
      (found : answer ≠ .events []) (step : wired.context.Step rest stage answer context) :
    Happens poller wired .served { context, kernel }
  | waits {timeout : Option Duration} {rest : List ContextStage} {kernel : Kernel}
      (tasks : wired.context.tasks = .waiting timeout :: rest)
      (responds : wired.kernel.respond? poller
        (.wait wired.context.maxEvents (waitMillis timeout)) = some (.events [], kernel)) :
    Happens poller wired .served { wired with kernel }
  | interrupted {timeout : Option Duration} {rest : List ContextStage} {kernel : Kernel}
      (tasks : wired.context.tasks = .waiting timeout :: rest)
      (responds : wired.kernel.respond? poller
        (.wait wired.context.maxEvents (waitMillis timeout)) = some (.events [], kernel)) :
    Happens poller wired .interrupted
      { context := { wired.context with tasks := .collecting [] [] :: rest }, kernel }
  | timedOut {timeout : Option Duration} {rest : List ContextStage} {kernel : Kernel}
      (tasks : wired.context.tasks = .waiting timeout :: rest)
      (bounded : 0 ≤ waitMillis timeout)
      (responds : wired.kernel.respond? poller
        (.wait wired.context.maxEvents (waitMillis timeout)) = some (.events [], kernel)) :
    Happens poller wired .timedOut
      { context := { wired.context with tasks := .collecting [] [] :: rest }, kernel }
  | signalled :
    Happens poller wired .signalled { wired with kernel := (wired.kernel.signal poller).1 }
  | changed (call : SystemCall) :
    Happens poller wired (.changed call) { wired with kernel := wired.kernel.perform call }
  | reordered (ready : List Source)
      (same : ready.Perm (wired.kernel.poller poller).list.ready) :
    Happens poller wired (.reordered ready)
      { wired with kernel := wired.kernel.reorder poller ready }
  | elsewhere (pollers : List Poller) (inside : poller < pollers.length) :
    Happens poller wired (.elsewhere pollers)
      { wired with kernel := wired.kernel.withOthers poller pollers }
  | broken :
    Happens poller wired .broken { wired with kernel := wired.kernel.breakPoller poller }

theorem answer?_some {wired next : Wired} {answer : ContextAnswer}
    (answered : wired.answer? answer = some next) :
    ∃ stage rest context, wired.context.tasks = stage :: rest ∧
      wired.context.Step rest stage answer context ∧ next = { wired with context } := by
  obtain ⟨⟨context, said⟩, advanced, rfl⟩ := Option.map_eq_some_iff.mp answered
  obtain ⟨stage, rest, tasks, step⟩ := Context.advance?_some advanced
  exact ⟨stage, rest, context, tasks, step, rfl⟩

theorem request?_cons {context : Context} {stage : ContextStage} {rest : List ContextStage}
    (tasks : context.tasks = stage :: rest) :
    context.request? = some (context.stageRequest stage) := by
  simp only [Context.request?, tasks, List.head?_cons, Option.map_some]

/-- Only a wait can find nothing. -/
theorem waiting_of_responds {poller : PollerId} {context : Context} {stage : ContextStage}
    {kernel after : Kernel} (responds : kernel.respond? poller (context.stageRequest stage) =
      some (.events [], after)) : ∃ timeout, stage = .waiting timeout := by
  have change : ∀ result : Except IoError Kernel, kernel.answerChange result ≠
      (.events [], after) := fun result => by cases result <;> exact nofun
  cases stage with
  | waiting timeout => exact ⟨timeout, rfl⟩
  | adding | modifying | deleting => exact absurd (Option.some.inj responds) (change _)
  | collecting events ready =>
    cases events with
    | nil => cases responds
    | cons event events =>
      simp only [Context.stageRequest] at responds
      split at responds
      · exact absurd (Option.some.inj responds) (change _)
      · cases responds
  | _ => cases responds

theorem idle?_some {poller : PollerId} {wired idle : Wired}
    (nothing : wired.idle? poller = some idle) :
    ∃ timeout rest kernel, wired.context.tasks = .waiting timeout :: rest ∧
      wired.kernel.respond? poller (.wait wired.context.maxEvents (waitMillis timeout)) =
        some (.events [], kernel) ∧ idle = { wired with kernel } := by
  obtain ⟨request, asked, answered⟩ := Option.bind_eq_some_iff.mp nothing
  obtain ⟨stage, top, rfl⟩ := Option.map_eq_some_iff.mp asked
  obtain ⟨found, responds, empty⟩ := Option.bind_eq_some_iff.mp answered
  obtain ⟨rest, tasks⟩ := List.head?_eq_some_iff.mp top
  split at empty
  · next kernel =>
    obtain ⟨timeout, rfl⟩ := waiting_of_responds responds
    exact ⟨timeout, rest, kernel, tasks, responds, (Option.some.inj empty).symm⟩
  · cases empty

/-- What an event makes of a context and its poller is one of the listed cases. -/
theorem after?_some {poller : PollerId} {wired next : Wired} {event : SessionEvent}
    (possible : wired.after? poller event = some next) : wired.Happens poller event next := by
  cases event with
  | called call =>
    obtain ⟨yields, same⟩ := Option.ite_none_right_eq_some.mp possible
    exact Option.some.inj same ▸ .called call yields
  | answered answer =>
    obtain ⟨own, answered⟩ := Option.ite_none_left_eq_some.mp possible
    obtain ⟨stage, rest, context, tasks, step, rfl⟩ := answer?_some answered
    rw [request?_cons tasks, Option.any_some, Bool.not_eq_true] at own
    exact .answered tasks own step
  | served =>
    obtain ⟨request, asked, served⟩ := Option.bind_eq_some_iff.mp possible
    obtain ⟨stage, top, rfl⟩ := Option.map_eq_some_iff.mp asked
    obtain ⟨found, responds, moved⟩ := Option.bind_eq_some_iff.mp served
    obtain ⟨rest, tasks⟩ := List.head?_eq_some_iff.mp top
    split at moved
    · obtain ⟨timeout, rfl⟩ := waiting_of_responds responds
      exact Option.some.inj moved ▸ .waits tasks responds
    · next answer kernel found =>
      obtain ⟨top, below, context, same, step, rfl⟩ := answer?_some moved
      obtain ⟨rfl, rfl⟩ := List.cons.inj (tasks.symm.trans same)
      exact .served tasks responds (fun nothing => found nothing) step
  | interrupted =>
    obtain ⟨idle, nothing, answered⟩ := Option.bind_eq_some_iff.mp possible
    obtain ⟨timeout, rest, kernel, tasks, responds, rfl⟩ := idle?_some nothing
    obtain ⟨top, below, context, same, step, rfl⟩ := answer?_some answered
    obtain ⟨rfl, rfl⟩ := List.cons.inj (tasks.symm.trans same)
    cases step with
    | interrupt => exact .interrupted tasks responds
  | timedOut =>
    obtain ⟨bounded, possible⟩ := Option.ite_none_right_eq_some.mp possible
    obtain ⟨idle, nothing, answered⟩ := Option.bind_eq_some_iff.mp possible
    obtain ⟨timeout, rest, kernel, tasks, responds, rfl⟩ := idle?_some nothing
    obtain ⟨top, below, context, same, step, rfl⟩ := answer?_some answered
    obtain ⟨rfl, rfl⟩ := List.cons.inj (tasks.symm.trans same)
    simp only [Wired.bounded, request?_cons tasks, Context.stageRequest, decide_eq_true_eq]
      at bounded
    cases step with
    | report => exact .timedOut tasks bounded responds
  | reordered ready =>
    obtain ⟨same, possible⟩ := Option.ite_none_right_eq_some.mp possible
    exact Option.some.inj possible ▸ .reordered ready (List.isPerm_iff.mp same)
  | elsewhere pollers =>
    obtain ⟨inside, possible⟩ := Option.ite_none_right_eq_some.mp possible
    exact Option.some.inj possible ▸ .elsewhere pollers inside
  | signalled | changed | broken =>
    cases possible
    constructor

/-- An answer of the system moves the innermost operation on. -/
theorem after?_served {poller : PollerId} {wired : Wired} {stage : ContextStage}
    {rest : List ContextStage} {answer : ContextAnswer} {kernel : Kernel} {context : Context}
    {said : List Diagnostic} (tasks : wired.context.tasks = stage :: rest)
    (responds : wired.kernel.respond? poller (wired.context.stageRequest stage) =
      some (answer, kernel))
    (found : answer ≠ .events [])
    (advanced : wired.context.advanceTop? rest stage answer = some (context, said)) :
    wired.after? poller .served = some { context, kernel } := by
  have moved : answer? { wired with kernel } answer = some { context, kernel } := by
    simp only [answer?, Context.advance?, tasks, advanced, Option.map_some]
  simp only [after?, request?_cons tasks, Option.bind_eq_bind, Option.bind_some, responds]
  cases answer with
  | events reported =>
    cases reported with
    | nil => exact absurd rfl found
    | cons => exact moved
  | _ => exact moved

/-- A wait that finds nothing goes on. -/
theorem after?_waits {poller : PollerId} {wired : Wired} {stage : ContextStage}
    {rest : List ContextStage} {kernel : Kernel} (tasks : wired.context.tasks = stage :: rest)
    (responds : wired.kernel.respond? poller (wired.context.stageRequest stage) =
      some (.events [], kernel)) :
    wired.after? poller .served = some { wired with kernel } := by
  simp only [after?, request?_cons tasks, Option.bind_eq_bind, Option.bind_some, responds]

end Wired

/-! ### Sessions -/

/-- An event with the context and its poller before and after it. -/
abbrev Turn := Occurrence Wired SessionEvent

/-- A new context and its poller, which has just been created. Others may have made calls to the
system before, and have pollers of their own. -/
structure Connection (poller : PollerId) where
  calls : List SystemCall
  others : List Poller
  capacity : Nat
  kernel : Kernel
  created : (calls.foldl Kernel.perform { pollers := others }).createPoller = .ok (poller, kernel)

def Connection.wired {poller : PollerId} (connection : Connection poller) : Wired where
  context := { capacity := connection.capacity }
  kernel := connection.kernel

/-- The sessions of a context on a poller: what has happened so far, the latest turn first, and how
things are now. In the beginning the context is new, its poller has just been created, and the
system is in any state that calls to it lead to. -/
abbrev Session (poller : PollerId) : List Turn → Wired → Prop :=
  Chronicle (@Connection.wired poller) (Wired.after? poller)

namespace Session

variable {poller : PollerId} {history : List Turn} {wired : Wired}

theorem before {later earlier : List Turn} {turn : Turn}
    (session : Session poller (later ++ turn :: earlier) wired) :
    Session poller earlier turn.before :=
  Chronicle.before session

/-- The operations of a session never get in each other's way. -/
theorem orderly (session : Session poller history wired) : wired.context.Orderly := by
  induction session with
  | start => exact .fresh _
  | step _ possible inductionHypothesis =>
    cases Wired.after?_some possible with
    | called call yields => exact inductionHypothesis.begin yields call
    | answered tasks _ step | served tasks _ _ step => exact inductionHypothesis.step tasks step
    | interrupted tasks =>
      exact inductionHypothesis.step tasks (.interrupt _)
    | timedOut tasks =>
      exact inductionHypothesis.step tasks (.report _ [])
    | _ => exact inductionHypothesis

end Session

/-! ### Operations and their outcomes -/

/-- An operation: what was called, how things were then, and the turns that it has taken as the
innermost operation, the latest first. -/
structure Operation where
  call : ContextCall
  start : Wired
  own : List Turn

/-- The operations in progress, the innermost first. -/
def operations : List Turn → List Operation
  | [] => []
  | turn :: earlier =>
    match turn.event with
    | .called call => { call, start := turn.before, own := [] } :: operations earlier
    | .answered _ | .served | .interrupted | .timedOut =>
      if turn.after.context.tasks.length < turn.before.context.tasks.length then
        (operations earlier).tail
      else
        (operations earlier).modifyHead fun operation =>
          { operation with own := turn :: operation.own }
    | _ => operations earlier

/-- The operations that have returned, the latest first, with their results. -/
def outcomes : List Turn → List (Operation × ContextResult)
  | [] => []
  | turn :: earlier =>
    match turn.event, turn.before.context.request?, operations earlier with
    | .answered _, some (.finish result), operation :: _ =>
      (operation, result) :: outcomes earlier
    | _, _, _ => outcomes earlier

/-- A turn of the innermost operation moves it to another stage, or it was the last one. -/
theorem Wired.Happens.own_cases {poller : PollerId} {wired next : Wired} {event : SessionEvent}
    (happens : wired.Happens poller event next) (own : event.isOwn = true) :
    ∃ stage rest, wired.context.tasks = stage :: rest ∧
      ((∃ moved, next.context.tasks = moved :: rest) ∨
        ∃ result, stage = .ended result ∧ event = .answered .done ∧
          next = { wired with context := { wired.context with tasks := rest } }) := by
  cases happens with
  | @answered stage rest answer context tasks asks step =>
    refine ⟨stage, rest, tasks, step.tasks_cases.imp id ?_⟩
    rintro ⟨⟨result, ended⟩, rfl, rfl⟩
    exact ⟨result, ended, rfl, rfl⟩
  | @served stage rest answer context kernel tasks responds found step =>
    refine ⟨stage, rest, tasks, Or.inl ?_⟩
    rcases step.tasks_cases with moved | ⟨⟨result, rfl⟩, -, -⟩
    · exact moved
    · cases responds
  | waits tasks => exact ⟨_, _, tasks, Or.inl ⟨_, tasks⟩⟩
  | interrupted tasks | timedOut tasks => exact ⟨_, _, tasks, Or.inl ⟨_, rfl⟩⟩
  | _ => cases own

/-- An event that is no turn of an operation calls one or leaves the context as it is. -/
theorem Wired.Happens.other_cases {poller : PollerId} {wired next : Wired} {event : SessionEvent}
    (happens : wired.Happens poller event next) (other : event.isOwn = false) :
    (∃ call, event = .called call ∧ wired.context.yields = true ∧
      next = { wired with context := wired.context.begin call }) ∨
      (∀ call, event ≠ .called call) ∧ next.context = wired.context := by
  cases happens with
  | called call yields => exact Or.inl ⟨call, rfl, yields, rfl⟩
  | answered | served | waits | interrupted | timedOut => cases other
  | _ => exact Or.inr ⟨nofun, rfl⟩

theorem operations_called {earlier : List Turn} {before after : Wired} {call : ContextCall} :
    operations ({ before, event := .called call, after } :: earlier) =
      { call, start := before, own := [] } :: operations earlier :=
  rfl

/-- A turn is taken by the innermost operation. -/
theorem operations_own {earlier : List Turn} {before after : Wired} {event : SessionEvent}
    {operation : Operation} {others : List Operation} (own : event.isOwn = true)
    (progress : operations earlier = operation :: others)
    (kept : after.context.tasks.length = before.context.tasks.length) :
    operations ({ before, event, after } :: earlier) =
      { operation with own := { before, event, after } :: operation.own } :: others := by
  cases event with
  | answered | served | interrupted | timedOut =>
    simp only [operations, kept, Nat.lt_irrefl, if_false, progress, List.modifyHead_cons]
  | _ => cases own

/-- With its last turn an operation is not in progress any more. -/
theorem operations_ended {earlier : List Turn} {before after : Wired} {event : SessionEvent}
    (own : event.isOwn = true)
    (shorter : after.context.tasks.length < before.context.tasks.length) :
    operations ({ before, event, after } :: earlier) = (operations earlier).tail := by
  cases event with
  | answered | served | interrupted | timedOut => simp only [operations, if_pos shorter]
  | _ => cases own

theorem operations_other {earlier : List Turn} {turn : Turn} (other : turn.event.isOwn = false)
    (silent : ∀ call, turn.event ≠ .called call) :
    operations (turn :: earlier) = operations earlier := by
  obtain ⟨before, event, after⟩ := turn
  cases event with
  | called call => exact absurd rfl (silent call)
  | answered | served | interrupted | timedOut => cases other
  | _ => rfl

/-- One operation is kept for each task of the context. -/
theorem Session.operations_length {poller : PollerId} {history : List Turn} {wired : Wired}
    (session : Session poller history wired) :
    (operations history).length = wired.context.tasks.length := by
  induction session with
  | start => rfl
  | @step earlier before event next _ possible inductionHypothesis =>
    have happens := Wired.after?_some possible
    cases own : event.isOwn with
    | true =>
      obtain ⟨stage, rest, tasks, ⟨moved, after⟩ | ⟨result, -, -, rfl⟩⟩ := happens.own_cases own
      · have progress : (operations earlier).length = rest.length + 1 := by
          rw [inductionHypothesis, tasks, List.length_cons]
        obtain ⟨operation, others, progress'⟩ := List.exists_cons_of_length_eq_add_one progress
        rw [operations_own own progress' (by rw [after, tasks]; rfl), after]
        rw [progress'] at progress
        exact progress
      · rw [operations_ended own (by rw [tasks]; exact Nat.lt_succ_self _), List.length_tail,
          inductionHypothesis, tasks]
        rfl
    | false =>
      obtain ⟨call, rfl, yields, rfl⟩ | ⟨silent, same⟩ := happens.other_cases own
      · rw [operations_called, List.length_cons, inductionHypothesis, Context.begin_eq]
        rfl
      · rw [operations_other own silent, inductionHypothesis, same]

/-- What can be shown of every operation in progress and its stage, turn by turn: when it is called,
with each turn that it takes, and while it is calling out or others are at the poller. `allowed`
is what is known of every turn of the session. -/
structure Followed (poller : PollerId) (allowed : Turn → Prop)
    (fits : Wired → Operation → ContextStage → Prop) : Prop where
  fresh : ∀ {history wired} (call : ContextCall), Session poller history wired →
    (∀ turn ∈ history, allowed turn) → wired.context.yields = true →
    fits { wired with context := wired.context.begin call } { call, start := wired, own := [] }
      (call.first wired.context.nextToken)
  own : ∀ {history wired operation stage rest event next moved}, Session poller history wired →
    (∀ turn ∈ history, allowed turn) → allowed { before := wired, event, after := next } →
    wired.context.tasks = stage :: rest → fits wired operation stage →
    wired.Happens poller event next → event.isOwn = true →
    next.context.tasks = moved :: rest →
    fits next { operation with
      own := { before := wired, event, after := next } :: operation.own } moved
  aside : ∀ {history wired operation stage event next}, Session poller history wired →
    (∀ turn ∈ history, allowed turn) → allowed { before := wired, event, after := next } →
    wired.Happens poller event next →
    stage.callsOut = true ∨ event.isOwn = false ∧ next.context = wired.context →
    fits wired operation stage → fits next operation stage

theorem Session.follow {poller : PollerId} {allowed : Turn → Prop}
    {fits : Wired → Operation → ContextStage → Prop} (followed : Followed poller allowed fits)
    {history : List Turn} {wired : Wired} (session : Session poller history wired)
    (all : ∀ turn ∈ history, allowed turn) :
    ∀ pair ∈ (operations history).zip wired.context.tasks, fits wired pair.1 pair.2 := by
  induction session with
  | start => exact fun _ member => absurd member List.not_mem_nil
  | @step earlier before event next session possible inductionHypothesis =>
    have happens := Wired.after?_some possible
    have past : ∀ turn ∈ earlier, allowed turn :=
      fun turn member => all turn (List.mem_cons_of_mem _ member)
    have now := all _ List.mem_cons_self
    have kept := inductionHypothesis past
    have length := Session.operations_length session
    cases own : event.isOwn with
    | true =>
      obtain ⟨stage, rest, tasks, after⟩ := happens.own_cases own
      have below := (Session.orderly session).below
      rw [tasks] at kept length below
      obtain ⟨operation, others, progress⟩ := List.exists_cons_of_length_eq_add_one length
      rw [progress, List.zip_cons_cons] at kept
      have aside : ∀ pair ∈ others.zip rest, fits next pair.1 pair.2 := fun pair member =>
        followed.aside session past now happens (Or.inl (below pair.2 (List.of_mem_zip member).2))
          (kept pair (List.mem_cons_of_mem _ member))
      obtain ⟨moved, after⟩ | ⟨result, -, -, rfl⟩ := after
      · rw [operations_own own progress (by rw [after, tasks]; rfl), after, List.zip_cons_cons]
        intro pair member
        rcases List.mem_cons.mp member with rfl | member
        · exact followed.own session past now tasks (kept _ List.mem_cons_self) happens own after
        · exact aside pair member
      · rw [operations_ended own (by rw [tasks]; exact Nat.lt_succ_self _), progress]
        exact aside
    | false =>
      obtain ⟨call, rfl, yields, rfl⟩ | ⟨silent, same⟩ := happens.other_cases own
      · have aside : ∀ pair ∈ (operations earlier).zip before.context.tasks,
            fits { before with context := before.context.begin call } pair.1 pair.2 :=
          fun pair member => followed.aside session past now happens
            (Or.inl ((Session.orderly session).callsOut yields pair.2 (List.of_mem_zip member).2))
            (kept pair member)
        have fresh := followed.fresh call session past yields
        rw [Context.begin_eq] at aside fresh ⊢
        rw [operations_called, List.zip_cons_cons]
        intro pair member
        rcases List.mem_cons.mp member with rfl | member
        · exact fresh
        · exact aside pair member
      · rw [operations_other own silent, same]
        intro pair member
        exact followed.aside session past now happens (Or.inr ⟨own, same⟩) (kept pair member)

theorem Session.follow_mem {poller : PollerId} {allowed : Turn → Prop}
    {fits : Wired → Operation → ContextStage → Prop} (followed : Followed poller allowed fits)
    {history : List Turn} {wired : Wired} (session : Session poller history wired)
    (all : ∀ turn ∈ history, allowed turn) :
    ∀ operation ∈ operations history, ∃ stage ∈ wired.context.tasks,
      fits wired operation stage := by
  intro operation member
  rw [← List.map_fst_zip (Nat.le_of_eq session.operations_length)] at member
  obtain ⟨pair, zipped, rfl⟩ := List.mem_map.mp member
  exact ⟨pair.2, (List.of_mem_zip zipped).2, session.follow followed all pair zipped⟩

theorem Session.follow_top {poller : PollerId} {allowed : Turn → Prop}
    {fits : Wired → Operation → ContextStage → Prop} (followed : Followed poller allowed fits)
    {history : List Turn} {wired : Wired} (session : Session poller history wired)
    (all : ∀ turn ∈ history, allowed turn) {stage : ContextStage} {rest : List ContextStage}
    (tasks : wired.context.tasks = stage :: rest) :
    ∃ operation others, operations history = operation :: others ∧
      fits wired operation stage := by
  have length := session.operations_length
  have kept := session.follow followed all
  rw [tasks] at length kept
  obtain ⟨operation, others, progress⟩ := List.exists_cons_of_length_eq_add_one length
  rw [progress] at kept
  exact ⟨operation, others, progress, kept (operation, stage) List.mem_cons_self⟩

/-- Only an operation that has ended returns. -/
theorem Context.stageRequest_finish {context : Context} {stage : ContextStage}
    {result : ContextResult} (finishes : context.stageRequest stage = .finish result) :
    stage = .ended result := by
  cases stage with
  | ended => exact congrArg ContextStage.ended (ContextRequest.finish.inj finishes)
  | collecting events ready =>
    cases events with
    | nil => cases finishes
    | cons event events =>
      simp only [stageRequest] at finishes
      split at finishes <;> cases finishes
  | _ => cases finishes

/-- An operation that returns has ended with the result that it returns. -/
theorem mem_outcomes {history : List Turn} {entry : Operation × ContextResult}
    (member : entry ∈ outcomes history) :
    ∃ later turn earlier others rest, history = later ++ turn :: earlier ∧
      operations earlier = entry.1 :: others ∧
      turn.before.context.tasks = .ended entry.2 :: rest := by
  induction history with
  | nil => exact absurd member List.not_mem_nil
  | cons turn earlier inductionHypothesis =>
    by_cases old : entry ∈ outcomes earlier
    · obtain ⟨later, returned, before, others, rest, rfl, facts⟩ := inductionHypothesis old
      exact ⟨turn :: later, returned, before, others, rest, rfl, facts⟩
    · unfold outcomes at member
      split at member
      · next asked progress =>
        rcases List.mem_cons.mp member with rfl | member
        · obtain ⟨stage, top, finishes⟩ := Option.map_eq_some_iff.mp asked
          obtain ⟨rest, tasks⟩ := List.head?_eq_some_iff.mp top
          obtain rfl := Context.stageRequest_finish finishes
          exact ⟨[], turn, earlier, _, rest, rfl, progress, tasks⟩
        · exact absurd member old
      · exact absurd member old

/-- What is shown of the operations in progress holds of those that have returned. -/
theorem Session.follow_outcomes {poller : PollerId} {allowed : Turn → Prop}
    {fits : Wired → Operation → ContextStage → Prop} (followed : Followed poller allowed fits)
    {history : List Turn} {wired : Wired} (session : Session poller history wired)
    (all : ∀ turn ∈ history, allowed turn) :
    ∀ entry ∈ outcomes history, ∃ wired, fits wired entry.1 (.ended entry.2) := by
  intro entry member
  obtain ⟨later, turn, earlier, others, rest, rfl, progress, tasks⟩ := mem_outcomes member
  refine ⟨turn.before, session.before.follow followed (fun turn member =>
    all turn (List.mem_append_right later (List.mem_cons_of_mem _ member))) (entry.1, _) ?_⟩
  rw [progress, tasks]
  exact List.mem_cons_self

/-- What is known of every turn is known of the turns that an operation has taken. -/
theorem Operation.own_followed (poller : PollerId) (allowed : Turn → Prop) :
    Followed poller allowed fun _ operation _ => ∀ turn ∈ operation.own, allowed turn where
  fresh _ _ _ _ := fun _ member => absurd member List.not_mem_nil
  own _ _ now _ earlier _ _ _ := List.forall_mem_cons.mpr ⟨now, earlier⟩
  aside _ _ _ _ _ own := own

/-! ### Running events -/

/-- What becomes of a context and its poller when some events happen one after another, if they are
possible: the turns, the earliest first, and how things are in the end. -/
def Wired.run? (poller : PollerId) (wired : Wired) (events : List SessionEvent) :
    Option (List Turn × Wired) :=
  Chronicle.run? (Wired.after? poller) wired events

/-- A new context on the first poller of a system to which some calls have been made. -/
def connected (calls : List SystemCall) (capacity : Nat) : Wired where
  context := { capacity }
  kernel := { calls.foldl Kernel.perform {} with
    pollers := [{ list := { registrations := [Kernel.wakeRegistration] } }] }

/-- The history of such a context to which some events happen, as far as they are possible. -/
def played (calls : List SystemCall) (capacity : Nat) (events : List SessionEvent) :
    List Turn × Wired :=
  Chronicle.replayed (Wired.after? 0) (connected calls capacity) events

theorem Session.of_played (calls : List SystemCall) (capacity : Nat) (events : List SessionEvent)
    (alone : (calls.foldl Kernel.perform {}).pollers = [])
    (unlimited : (calls.foldl Kernel.perform {}).spare = none) :
    Session 0 (played calls capacity events).1 (played calls capacity events).2 := by
  let connection : Connection 0 := {
    calls, others := [], capacity, kernel := (connected calls capacity).kernel
    created := by simp [Kernel.createPoller, unlimited, alone, connected] }
  exact Chronicle.of_replayed connection events

end MessagePump

/-
This file lists the steps of the operations on a context, one by one, as `MessagePump.Proofs.Steps`
does for the runs of a pump. `Context.advance?_some` says that the list is complete.

The operations of a context nest: a callback, or what is destroyed with one, can start further
operations. An operation that is not the innermost one therefore waits for such a call to end, and
it has given up the table and the buffer before the call. So the innermost operation never finds
either of them borrowed, and no operation ends in a conflict; the invariant is `Context.Orderly`.
-/

import MessagePump.Context.Advance

namespace MessagePump

/-! ### Stages -/

namespace ContextStage

/-- Whether code outside the context has the thread: a callback runs or is destroyed. -/
def callsOut : ContextStage → Bool
  | .calling .. | .discarding .. => true
  | _ => false

/-- Whether the step from this stage borrows the table. -/
def takesTable : ContextStage → Bool
  | .recording .. | .finding .. | .removing _ | .dispatching (_ :: _) | .replacing .. => true
  | _ => false

/-- Whether the table is borrowed at this stage. -/
def holdsTable : ContextStage → Bool
  | .modifying .. => true
  | _ => false

/-- Whether the step from this stage borrows the buffer. -/
def takesBuffer : ContextStage → Bool
  | .preparing _ => true
  | _ => false

/-- Whether the buffer is borrowed at this stage. -/
def holdsBuffer : ContextStage → Bool
  | .waiting _ | .collecting .. => true
  | _ => false

/-- What follows when the system has been asked to forget the descriptor of a removed watch. -/
abbrev afterDelete : Watch → ContextResult → ContextStage := Context.advanceUnwatch?.afterDelete

end ContextStage

namespace Context

/-! ### Steps -/

/-- A step of the innermost operation, above the operations `rest`, at a stage that is answered, and
the context after it. -/
inductive Step (context : Context) (rest : List ContextStage) :
    ContextStage → ContextAnswer → Context → Prop
  | add (token : Token) (descriptor : Descriptor) (interest : Interest) (callback : CallbackId) :
    Step context rest (.adding token descriptor interest callback) .done
      { context with
        nextToken := token + 1
        tasks := .recording token descriptor interest callback :: rest }
  | addFailed (token : Token) (descriptor : Descriptor) (interest : Interest)
      (callback : CallbackId) (cause : IoError) :
    Step context rest (.adding token descriptor interest callback) (.failed cause)
      { context with tasks := .discarding callback (.finish (.failed cause)) :: rest }
  | record (token : Token) (descriptor : Descriptor) (interest : Interest)
      (callback : CallbackId) (free : context.tableGuarded = false) :
    Step context rest (.recording token descriptor interest callback) .done
      { context with
        table := context.table.insert token { descriptor, interest, callback := some callback }
        tasks := .ended (.watched token) :: rest }
  | find (token : Token) (interest : Interest) (watch : Watch)
      (free : context.tableGuarded = false) (present : context.table.find? token = some watch) :
    Step context rest (.finding token interest) .done
      { context with
        tableGuarded := true
        tasks := .modifying token watch.descriptor interest :: rest }
  | findNone (token : Token) (interest : Interest) (free : context.tableGuarded = false)
      (absent : context.table.find? token = none) :
    Step context rest (.finding token interest) .done
      { context with tasks := .ended (.failed unknownToken) :: rest }
  | modify (token : Token) (descriptor : Descriptor) (interest : Interest) :
    Step context rest (.modifying token descriptor interest) .done
      { context with
        table := context.table.update token fun watch => { watch with interest }
        tableGuarded := false
        tasks := .ended .changed :: rest }
  | modifyFailed (token : Token) (descriptor : Descriptor) (interest : Interest)
      (cause : IoError) :
    Step context rest (.modifying token descriptor interest) (.failed cause)
      { context with tableGuarded := false, tasks := .ended (.failed cause) :: rest }
  | remove (token : Token) (watch : Watch) (free : context.tableGuarded = false)
      (present : context.table.find? token = some watch) :
    Step context rest (.removing token) .done
      { context with
        table := context.table.remove token
        tasks := .deleting watch :: rest }
  | removeNone (token : Token) (free : context.tableGuarded = false)
      (absent : context.table.find? token = none) :
    Step context rest (.removing token) .done
      { context with tasks := .ended (.failed unknownToken) :: rest }
  | delete (watch : Watch) :
    Step context rest (.deleting watch) .done
      { context with tasks := .afterDelete watch .removed :: rest }
  | deleteFailed (watch : Watch) (cause : IoError) :
    Step context rest (.deleting watch) (.failed cause)
      { context with tasks := .afterDelete watch (.failed cause) :: rest }
  | prepare (timeout : Option Duration) (free : context.bufferGuarded = false) :
    Step context rest (.preparing timeout) .done
      { context with bufferGuarded := true, tasks := .waiting timeout :: rest }
  | interrupt (timeout : Option Duration) :
    Step context rest (.waiting timeout) .interrupted
      { context with tasks := .collecting [] [] :: rest }
  | report (timeout : Option Duration) (events : List Event) :
    Step context rest (.waiting timeout) (.events events)
      { context with tasks := .collecting events [] :: rest }
  | waitFailed (timeout : Option Duration) (cause : IoError) :
    Step context rest (.waiting timeout) (.failed cause)
      { context with bufferGuarded := false, tasks := .ended (.failed cause) :: rest }
  | drain (event : Event) (events : List Event) (ready : List (Token × Readiness))
      (wake : event.token = wakeToken) :
    Step context rest (.collecting (event :: events) ready) .done
      { context with tasks := .collecting events ready :: rest }
  | drainFailed (event : Event) (events : List Event) (ready : List (Token × Readiness))
      (cause : IoError) (wake : event.token = wakeToken) :
    Step context rest (.collecting (event :: events) ready) (.failed cause)
      { context with bufferGuarded := false, tasks := .ended (.failed cause) :: rest }
  | gather (event : Event) (events : List Event) (ready : List (Token × Readiness))
      (native : event.token ≠ wakeToken) :
    Step context rest (.collecting (event :: events) ready) .done
      { context with
        tasks := .collecting events (ready ++ [(event.token, .ofFlags event.flags)]) :: rest }
  | collect (ready : List (Token × Readiness)) :
    Step context rest (.collecting [] ready) .done
      { context with bufferGuarded := false, tasks := .dispatching ready :: rest }
  | take (token : Token) (readiness : Readiness) (ready : List (Token × Readiness))
      (callback : CallbackId) (free : context.tableGuarded = false)
      (present : (context.table.find? token).bind Watch.callback = some callback) :
    Step context rest (.dispatching ((token, readiness) :: ready)) .done
      { context with
        table := context.table.update token fun watch => { watch with callback := none }
        tasks := .calling token readiness callback ready :: rest }
  | skip (token : Token) (readiness : Readiness) (ready : List (Token × Readiness))
      (free : context.tableGuarded = false)
      (absent : (context.table.find? token).bind Watch.callback = none) :
    Step context rest (.dispatching ((token, readiness) :: ready)) .done
      { context with tasks := .dispatching ready :: rest }
  | dispatched :
    Step context rest (.dispatching []) .done
      { context with tasks := .ended .polled :: rest }
  | callReturned (token : Token) (readiness : Readiness) (callback : CallbackId)
      (ready : List (Token × Readiness)) :
    Step context rest (.calling token readiness callback ready) .done
      { context with tasks := .replacing token callback ready :: rest }
  | callPanicked (token : Token) (readiness : Readiness) (callback : CallbackId)
      (ready : List (Token × Readiness)) (message : String) :
    Step context rest (.calling token readiness callback ready) (.panicked message)
      { context with tasks := .discarding callback (.finish (.panicked message)) :: rest }
  | replace (token : Token) (callback : CallbackId) (ready : List (Token × Readiness))
      (watch : Watch) (free : context.tableGuarded = false)
      (present : context.table.find? token = some watch) :
    Step context rest (.replacing token callback ready) .done
      { context with
        table := context.table.update token fun watch => { watch with callback := some callback }
        tasks := .dispatching ready :: rest }
  | replaceNone (token : Token) (callback : CallbackId) (ready : List (Token × Readiness))
      (free : context.tableGuarded = false) (absent : context.table.find? token = none) :
    Step context rest (.replacing token callback ready) .done
      { context with tasks := .discarding callback (.dispatch ready) :: rest }
  | discard (callback : CallbackId) (result : ContextResult) :
    Step context rest (.discarding callback (.finish result)) .done
      { context with tasks := .ended result :: rest }
  | discardNext (callback : CallbackId) (ready : List (Token × Readiness)) :
    Step context rest (.discarding callback (.dispatch ready)) .done
      { context with tasks := .dispatching ready :: rest }
  | discardPanicked (callback : CallbackId) (next : AfterDiscard) (message : String)
      (single : ∀ earlier, next ≠ .finish (.panicked earlier)) :
    Step context rest (.discarding callback next) (.panicked message)
      { context with tasks := .ended (.panicked message) :: rest }
  | abort (callback : CallbackId) (earlier message : String) :
    Step context rest (.discarding callback (.finish (.panicked earlier))) (.panicked message)
      { context with tasks := .aborting :: rest }
  | finish (result : ContextResult) :
    Step context rest (.ended result) .done { context with tasks := rest }
  | conflict (stage : ContextStage)
      (taken : stage.takesTable = true ∧ context.tableGuarded = true ∨
        stage.takesBuffer = true ∧ context.bufferGuarded = true) :
    Step context rest stage .done { context with tasks := .conflicted :: rest }

/-- What an operation does on an answer is one of the listed steps. -/
theorem advanceTop?_some {context next : Context} {rest : List ContextStage}
    {stage : ContextStage} {answer : ContextAnswer} {said : List Diagnostic}
    (advanced : context.advanceTop? rest stage answer = some (next, said)) :
    context.Step rest stage answer next := by
  cases stage
  case discarding callback after =>
    cases after with
    | dispatch ready =>
      cases answer <;>
        simp only [advanceTop?, goto, reduceCtorEq, Option.some.injEq, Prod.mk.injEq] at advanced
      · exact advanced.1 ▸ .discardNext callback ready
      · exact advanced.1 ▸ .discardPanicked callback _ _ fun _ => AfterDiscard.noConfusion
    | finish result =>
      cases answer <;> cases result <;>
        simp only [advanceTop?, goto, reduceCtorEq, Option.some.injEq, Prod.mk.injEq] at advanced
      case panicked.panicked message earlier =>
        exact advanced.1 ▸ .abort callback earlier message
      case done.watched | done.changed | done.removed | done.polled | done.failed | done.panicked =>
        exact advanced.1 ▸ .discard callback _
      all_goals
        refine advanced.1 ▸ .discardPanicked callback _ _ fun earlier same => ?_
        cases same
  all_goals cases answer <;>
    simp only [advanceTop?, advanceWatch?, advanceRewatch?, advanceUnwatch?, advancePoll?, goto,
      reduceCtorEq, Option.some.injEq, Prod.mk.injEq] at advanced
  case adding.done token descriptor interest callback =>
    exact advanced.1 ▸ .add token descriptor interest callback
  case adding.failed token descriptor interest callback cause =>
    exact advanced.1 ▸ .addFailed token descriptor interest callback cause
  case recording.done token descriptor interest callback =>
    split at advanced <;> simp only [Prod.mk.injEq] at advanced
    · next taken => exact advanced.1 ▸ .conflict _ (Or.inl ⟨rfl, taken⟩)
    · next free =>
      exact advanced.1 ▸ .record token descriptor interest callback (Bool.not_eq_true _ ▸ free)
  case finding.done token interest =>
    split at advanced
    · next taken =>
      simp only [Prod.mk.injEq] at advanced
      exact advanced.1 ▸ .conflict _ (Or.inl ⟨rfl, taken⟩)
    · next free =>
      rw [Bool.not_eq_true] at free
      split at advanced <;> simp only [Prod.mk.injEq] at advanced
      · next absent => exact advanced.1 ▸ .findNone token interest free absent
      · next watch present => exact advanced.1 ▸ .find token interest watch free present
  case modifying.done token descriptor interest =>
    exact advanced.1 ▸ .modify token descriptor interest
  case modifying.failed token descriptor interest cause =>
    exact advanced.1 ▸ .modifyFailed token descriptor interest cause
  case removing.done token =>
    split at advanced
    · next taken =>
      simp only [Prod.mk.injEq] at advanced
      exact advanced.1 ▸ .conflict _ (Or.inl ⟨rfl, taken⟩)
    · next free =>
      rw [Bool.not_eq_true] at free
      split at advanced <;> simp only [Prod.mk.injEq] at advanced
      · next absent => exact advanced.1 ▸ .removeNone token free absent
      · next watch present => exact advanced.1 ▸ .remove token watch free present
  case deleting.done watch => exact advanced.1 ▸ .delete watch
  case deleting.failed watch cause => exact advanced.1 ▸ .deleteFailed watch cause
  case preparing.done timeout =>
    split at advanced <;> simp only [Prod.mk.injEq] at advanced
    · next taken => exact advanced.1 ▸ .conflict _ (Or.inr ⟨rfl, taken⟩)
    · next free => exact advanced.1 ▸ .prepare timeout (Bool.not_eq_true _ ▸ free)
  case waiting.interrupted timeout => exact advanced.1 ▸ .interrupt timeout
  case waiting.events timeout events => exact advanced.1 ▸ .report timeout events
  case waiting.failed timeout cause => exact advanced.1 ▸ .waitFailed timeout cause
  case collecting.done events ready =>
    cases events with
    | nil =>
      simp only [Option.some.injEq, Prod.mk.injEq] at advanced
      exact advanced.1 ▸ .collect ready
    | cons event events =>
      simp only [Option.some.injEq] at advanced
      split at advanced <;> simp only [Prod.mk.injEq] at advanced
      · next wake => exact advanced.1 ▸ .drain event events ready wake
      · next native => exact advanced.1 ▸ .gather event events ready native
  case collecting.failed events ready cause =>
    cases events with
    | nil => simp only [reduceCtorEq] at advanced
    | cons event events =>
      simp only [Option.ite_none_right_eq_some, Option.some.injEq, Prod.mk.injEq] at advanced
      exact advanced.2.1 ▸ .drainFailed event events ready cause advanced.1
  case dispatching.done ready =>
    cases ready with
    | nil =>
      simp only [Option.some.injEq, Prod.mk.injEq] at advanced
      exact advanced.1 ▸ .dispatched
    | cons entry ready =>
      obtain ⟨token, readiness⟩ := entry
      simp only [Option.some.injEq] at advanced
      split at advanced
      · next taken =>
        simp only [Prod.mk.injEq] at advanced
        exact advanced.1 ▸ .conflict _ (Or.inl ⟨rfl, taken⟩)
      · next free =>
        rw [Bool.not_eq_true] at free
        split at advanced <;> simp only [Prod.mk.injEq] at advanced
        · next absent => exact advanced.1 ▸ .skip token readiness ready free absent
        · next callback present =>
          exact advanced.1 ▸ .take token readiness ready callback free present
  case calling.done token readiness callback ready =>
    exact advanced.1 ▸ .callReturned token readiness callback ready
  case calling.panicked token readiness callback ready message =>
    exact advanced.1 ▸ .callPanicked token readiness callback ready message
  case replacing.done token callback ready =>
    split at advanced
    · next taken =>
      simp only [Prod.mk.injEq] at advanced
      exact advanced.1 ▸ .conflict _ (Or.inl ⟨rfl, taken⟩)
    · next free =>
      rw [Bool.not_eq_true] at free
      split at advanced <;> simp only [Prod.mk.injEq] at advanced
      · next absent => exact advanced.1 ▸ .replaceNone token callback ready free absent
      · next watch present =>
        exact advanced.1 ▸ .replace token callback ready watch free present
  case ended.done result => exact advanced.1 ▸ .finish result

/-- What the innermost operation does on an answer is one of the listed steps. -/
theorem advance?_some {context next : Context} {answer : ContextAnswer} {said : List Diagnostic}
    (advanced : context.advance? answer = some (next, said)) :
    ∃ stage rest, context.tasks = stage :: rest ∧ context.Step rest stage answer next := by
  unfold advance? at advanced
  split at advanced
  · cases advanced
  · next stage rest tasks => exact ⟨stage, rest, tasks, advanceTop?_some advanced⟩

/-- A step moves the innermost operation to another stage, unless it is the last one, which takes
it off the tasks. -/
theorem Step.tasks_cases {context next : Context} {rest : List ContextStage}
    {stage : ContextStage} {answer : ContextAnswer} (step : context.Step rest stage answer next) :
    (∃ moved, next.tasks = moved :: rest) ∨
      (∃ result, stage = .ended result) ∧ answer = .done ∧
        next = { context with tasks := rest } := by
  cases step
  case finish result => exact Or.inr ⟨⟨result, rfl⟩, rfl, rfl⟩
  all_goals exact Or.inl ⟨_, rfl⟩

/-! ### Calls -/

/-- Whether code outside the context has the thread: no operation is in progress, or the innermost
one is calling out. -/
def yields (context : Context) : Bool := context.tasks.head?.all ContextStage.callsOut

end Context

/-- The operations that can be called. -/
inductive ContextCall
  | watch (descriptor : Descriptor) (interest : Interest) (callback : CallbackId)
  | rewatch (token : Token) (interest : Interest)
  | unwatch (token : Token)
  | poll (timeout : Option Duration)
  deriving DecidableEq

/-- Where a called operation stands first. -/
def ContextCall.first (nextToken : Token) : ContextCall → ContextStage
  | .watch descriptor interest callback =>
    if interest.isEmpty then .discarding callback (.finish (.failed emptyInterest))
    else .adding nextToken descriptor interest callback
  | .rewatch token interest =>
    if interest.isEmpty then .ended (.failed emptyInterest) else .finding token interest
  | .unwatch token => .removing token
  | .poll timeout => .preparing timeout

/-- The first stages of the operations, one by one. A request without an interest is refused at
once. -/
inductive ContextCall.Opens (nextToken : Token) : ContextCall → ContextStage → Prop
  | refuseWatch (descriptor : Descriptor) (interest : Interest) (callback : CallbackId)
      (empty : interest.isEmpty = true) :
    Opens nextToken (.watch descriptor interest callback)
      (.discarding callback (.finish (.failed emptyInterest)))
  | add (descriptor : Descriptor) (interest : Interest) (callback : CallbackId) :
    Opens nextToken (.watch descriptor interest callback)
      (.adding nextToken descriptor interest callback)
  | refuseRewatch (token : Token) (interest : Interest) (empty : interest.isEmpty = true) :
    Opens nextToken (.rewatch token interest) (.ended (.failed emptyInterest))
  | find (token : Token) (interest : Interest) :
    Opens nextToken (.rewatch token interest) (.finding token interest)
  | remove (token : Token) : Opens nextToken (.unwatch token) (.removing token)
  | prepare (timeout : Option Duration) : Opens nextToken (.poll timeout) (.preparing timeout)

theorem ContextCall.first_opens (nextToken : Token) (call : ContextCall) :
    call.Opens nextToken (call.first nextToken) := by
  cases call with
  | watch descriptor interest callback =>
    simp only [first]
    split
    · next empty => exact .refuseWatch descriptor interest callback empty
    · exact .add descriptor interest callback
  | rewatch token interest =>
    simp only [first]
    split
    · next empty => exact .refuseRewatch token interest empty
    · exact .find token interest
  | unwatch token => exact .remove token
  | poll timeout => exact .prepare timeout

namespace Context

/-- The context when an operation has been called. -/
def begin (context : Context) : ContextCall → Context
  | .watch descriptor interest callback => context.watch descriptor interest callback
  | .rewatch token interest => context.rewatch token interest
  | .unwatch token => context.unwatch token
  | .poll timeout => context.poll timeout

theorem begin_eq (context : Context) (call : ContextCall) :
    context.begin call =
      { context with tasks := call.first context.nextToken :: context.tasks } := by
  cases call <;> rfl

end Context

/-! ### No conflicts -/

/-- An operation at this stage has borrowed nothing and has not run into a conflict. -/
structure ContextStage.Free (stage : ContextStage) : Prop where
  table : stage.holdsTable = false
  buffer : stage.holdsBuffer = false
  sound : stage ≠ .conflicted

theorem ContextCall.Opens.free {nextToken : Token} {call : ContextCall} {stage : ContextStage}
    (opens : call.Opens nextToken stage) : stage.Free := by
  cases opens <;> exact ⟨rfl, rfl, nofun⟩

theorem ContextStage.free_of_callsOut {stage : ContextStage} (outside : stage.callsOut = true) :
    stage.Free := by
  cases stage with
  | calling | discarding => exact ⟨rfl, rfl, nofun⟩
  | _ => cases outside

/-- The callback of a removed watch is destroyed, if the watch holds it. -/
theorem ContextStage.afterDelete_cases (watch : Watch) (result : ContextResult) :
    watch.callback = none ∧ afterDelete watch result = .ended result ∨
      ∃ callback, watch.callback = some callback ∧
        afterDelete watch result = .discarding callback (.finish result) := by
  unfold afterDelete Context.advanceUnwatch?.afterDelete
  cases watch.callback with
  | none => exact Or.inl ⟨rfl, rfl⟩
  | some callback => exact Or.inr ⟨callback, rfl, rfl⟩

theorem ContextStage.afterDelete_free (watch : Watch) (result : ContextResult) :
    (afterDelete watch result).Free := by
  rcases afterDelete_cases watch result with ⟨-, after⟩ | ⟨callback, -, after⟩ <;>
    rw [after] <;> exact ⟨rfl, rfl, nofun⟩

namespace Context

/-- The operations around the innermost one are calling out, and only the innermost one can have
borrowed the table or the buffer. -/
structure Orderly (context : Context) : Prop where
  below : ∀ stage ∈ context.tasks.tail, stage.callsOut = true
  table : context.tableGuarded = context.tasks.head?.any ContextStage.holdsTable
  buffer : context.bufferGuarded = context.tasks.head?.any ContextStage.holdsBuffer
  sound : context.tasks.head? ≠ some .conflicted

theorem Orderly.fresh (capacity : Nat) : Orderly { capacity } :=
  ⟨fun _ member => absurd member List.not_mem_nil, rfl, rfl, nofun⟩

theorem Orderly.of_free {context : Context} {top : ContextStage} {rest : List ContextStage}
    (tasks : context.tasks = top :: rest) (below : ∀ stage ∈ rest, stage.callsOut = true)
    (free : top.Free) (table : context.tableGuarded = false)
    (buffer : context.bufferGuarded = false) : context.Orderly := by
  refine ⟨?_, ?_, ?_, ?_⟩ <;> rw [tasks]
  · exact below
  · exact table.trans free.table.symm
  · exact buffer.trans free.buffer.symm
  · exact fun same => free.sound (Option.some.inj same)

/-- The operations that remain when the innermost one has ended. -/
theorem Orderly.of_below {context : Context}
    (below : ∀ stage ∈ context.tasks, stage.callsOut = true)
    (table : context.tableGuarded = false) (buffer : context.bufferGuarded = false) :
    context.Orderly := by
  cases tasks : context.tasks with
  | nil => exact ⟨tasks ▸ nofun, tasks ▸ table, tasks ▸ buffer, tasks ▸ nofun⟩
  | cons top rest =>
    rw [tasks] at below
    exact .of_free tasks (fun stage member => below stage (List.mem_cons_of_mem top member))
      (ContextStage.free_of_callsOut (below top List.mem_cons_self)) table buffer

/-- Where code outside the context has the thread, nothing is borrowed. -/
theorem Orderly.free {context : Context} (orderly : context.Orderly)
    (yields : context.yields = true) :
    context.tableGuarded = false ∧ context.bufferGuarded = false := by
  rw [orderly.table, orderly.buffer]
  unfold Context.yields at yields
  cases top : context.tasks.head? with
  | none => exact ⟨rfl, rfl⟩
  | some stage =>
    rw [top] at yields
    have free := ContextStage.free_of_callsOut yields
    exact ⟨free.table, free.buffer⟩

/-- All operations in progress call out where code outside the context has the thread. -/
theorem Orderly.callsOut {context : Context} (orderly : context.Orderly)
    (yields : context.yields = true) : ∀ stage ∈ context.tasks, stage.callsOut = true := by
  unfold Context.yields at yields
  have below := orderly.below
  cases tasks : context.tasks with
  | nil => exact fun _ member => absurd member List.not_mem_nil
  | cons top rest =>
    rw [tasks] at yields below
    intro stage member
    rcases List.mem_cons.mp member with rfl | member
    · exact yields
    · exact below stage member

theorem Orderly.begin {context : Context} (orderly : context.Orderly)
    (yields : context.yields = true) (call : ContextCall) : (context.begin call).Orderly := by
  obtain ⟨table, buffer⟩ := orderly.free yields
  rw [begin_eq]
  exact .of_free rfl (orderly.callsOut yields) (call.first_opens context.nextToken).free table
    buffer

/-- Every step leaves the operations in this order. In particular none ends in a conflict. -/
theorem Orderly.step {context next : Context} {rest : List ContextStage} {stage : ContextStage}
    {answer : ContextAnswer} (orderly : context.Orderly) (tasks : context.tasks = stage :: rest)
    (step : context.Step rest stage answer next) : next.Orderly := by
  obtain ⟨below, table, buffer, -⟩ := orderly
  rw [tasks] at below table buffer
  change context.tableGuarded = stage.holdsTable at table
  change context.bufferGuarded = stage.holdsBuffer at buffer
  cases step
  case finish result => exact .of_below below table buffer
  case delete watch | deleteFailed watch cause =>
    exact .of_free rfl below (ContextStage.afterDelete_free watch _) table buffer
  case conflict taken =>
    rcases taken with ⟨takes, taken⟩ | ⟨takes, taken⟩
    · have holds := table.symm.trans taken
      cases stage with
      | modifying => cases takes
      | _ => cases holds
    · have holds := buffer.symm.trans taken
      cases stage with
      | waiting | collecting => cases takes
      | _ => cases holds
  all_goals
    exact ⟨below, by first | exact table | rfl, by first | exact buffer | rfl, nofun⟩

end Context

end MessagePump

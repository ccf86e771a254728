/-
This file proves that no request for work is lost: when a loop waits, it has looked for work since
the last request.

A request wakes the context that is bound to the wake slot at that moment. That need not be the
context of the loop that will wait next. While a nested run has the slot, a request made for its own
context must still reach the loop around it. The invariant says where such a request is. Each loop
on the stack has looked for work since the last request, or has been woken in the poll that it is
in, or its context is latched, or some inner run still owes it a wake, which that run will forward
when it leaves. A request makes one of the last two true for every loop on the stack, wherever the
runs between stand in their exchange of slot and context.
-/

import MessagePump.Proofs.OwnContexts

namespace MessagePump

/-! ### Wakes -/

/-- Whether a wake is latched at a context: it has been signalled, through the wake slot, directly,
or by a run that forwards a wake, and no poll of it has taken notice since. -/
def latched (context : ContextId) : List Move → Bool
  | [] => false
  | move :: earlier =>
    match move.event with
    | .scheduled => move.before.scheduleWork == context || latched context earlier
    | .signalled other => other == context || latched context earlier
    | .answered _ => move.before.request? == some (.signal context) || latched context earlier
    | .noticed => latched context earlier && move.before.polled? != some context
    | _ => latched context earlier

/-- Whether the invocation at a depth is in a poll that has taken notice of a latched wake, so that
it returns. -/
def woken (depth : Nat) : List Move → Bool
  | [] => false
  | move :: earlier =>
    match move.event with
    | .noticed =>
      move.before.stack.length == depth && move.before.polled?.any (latched · earlier) ||
        woken depth earlier
    | .answered _ => woken depth earlier && move.before.stack.length != depth
    | _ => woken depth earlier

/-- The innermost invocation waits: it polls a context at which nothing is latched, and the poll
has not been woken. -/
structure Waits (history : List Move) (pump : Pump) (context : ContextId) : Prop where
  polls : pump.polled? = some context
  unlatched : latched context history = false
  unwoken : woken pump.stack.length history = false

/-- The invocation at a depth begins to look for immediate work. -/
structure Move.Starts (depth : Nat) (move : Move) : Prop where
  answered : ∃ answer, move.event = .answered answer
  before : move.before.stack.length = depth
  after : move.after.stack.length = depth
  immediate : move.after.request? = some .immediate

/-- The invocation at a depth has begun to look for immediate work, and since it did so last no
work has been requested. -/
def Observed (depth : Nat) (history : List Move) : Prop :=
  ∃ later start earlier, history = later ++ start :: earlier ∧ start.Starts depth ∧
    ∀ move ∈ later, depth ≤ move.after.stack.length ∧ ¬ move.Starts depth ∧
      move.event ≠ .scheduled

/-- The destruction of a context panics. -/
def Move.failsToDestroy (move : Move) : Bool :=
  match move.before.request?, move.event with
  | some (.destroy _), .answered (.panicked _) => true
  | _, _ => false

/-- The stages of a nested run at which it is still going to forward a wake: its own context is
bound to the wake slot, or has been until just now. -/
def Stage.forwards : Stage → Bool
  | .guarding _ _ | .exchanging _ _ | .starting | .working _ _ | .releasing _ _ | .unbinding _
  | .regarding _ | .restoring _ | .destroying _ _ .forwardWake | .forwarding _ => true
  | _ => false

/-- Some nested run on the stack is going to forward a wake to a context. -/
def Owes (context : ContextId) : List Invocation → Prop
  | [] => False
  | top :: rest => rest ≠ [] ∧ top.stage.forwards = true ∧ home rest = context ∨ Owes context rest

/-- A loop at a point attends to all requests for work so far: it has begun to look for work since,
or its poll has been woken, or a wake is latched at its context or owed to it. -/
def Attends (history : List Move) (stack : List Invocation) (depth : Nat) (held : ContextId)
    (point : LoopPoint) : Prop :=
  Observed depth history ∨ (∃ timeout, point = .polling timeout) ∧ woken depth history = true ∨
    latched held history = true ∨ Owes held stack

/-- The invariant: every loop on the stack attends to the requests for work. -/
def Attended (history : List Move) (pump : Pump) : Prop :=
  ∀ top rest, top :: rest <:+ pump.stack → ∀ held point, top.stage = .working held point →
    Attends history pump.stack (rest.length + 1) held point

/-! ### What a move leaves as it is -/

theorem Observed.of_starts {depth : Nat} {history : List Move} {move : Move}
    (starts : move.Starts depth) : Observed depth (move :: history) :=
  ⟨[], move, history, rfl, starts, List.forall_mem_nil _⟩

theorem Observed.cons {depth : Nat} {history : List Move} {move : Move}
    (observed : Observed depth history) (inside : depth ≤ move.after.stack.length)
    (quiet : move.event ≠ .scheduled) : Observed depth (move :: history) := by
  by_cases starts : move.Starts depth
  · exact .of_starts starts
  · obtain ⟨later, start, earlier, rfl, started, since⟩ := observed
    exact ⟨move :: later, start, earlier, rfl, started,
      List.forall_mem_cons.mpr ⟨⟨inside, starts, quiet⟩, since⟩⟩

theorem latched_cons {context : ContextId} {history : List Move} {move : Move}
    (wake : latched context history = true)
    (unread : move.event = .noticed → move.before.polled? ≠ some context) :
    latched context (move :: history) = true := by
  unfold latched
  rw [wake]
  split <;> simp only [Bool.or_true, Bool.true_and]
  next noticed => exact bne_iff_ne.mpr (unread noticed)

/-- A run that forwards a wake latches it at the context that is bound to the slot then. -/
theorem latched_of_signal {context : ContextId} {history : List Move} {before after : Pump}
    {answer : Answer} (signal : before.request? = some (.signal context)) :
    latched context ({ before, event := .answered answer, after } :: history) = true := by
  simp only [latched, signal, beq_self_eq_true, Bool.true_or]

theorem woken_cons {depth : Nat} {history : List Move} {move : Move}
    (wake : woken depth history = true)
    (still : ∀ answer, move.event = .answered answer → move.before.stack.length ≠ depth) :
    woken depth (move :: history) = true := by
  unfold woken
  rw [wake]
  split <;> simp only [Bool.or_true, Bool.true_and]
  next answer answered => exact bne_iff_ne.mpr (still answer answered)

/-- A loop goes on to attend through a move that is not its own and that requests no work. -/
theorem Attends.cons {history : List Move} {move : Move} {depth : Nat} {held : ContextId}
    {point : LoopPoint} (attends : Attends history move.before.stack depth held point)
    (inside : depth ≤ move.after.stack.length) (quiet : move.event ≠ .scheduled)
    (still : ∀ answer, move.event = .answered answer → move.before.stack.length ≠ depth)
    (unread : move.event = .noticed → move.before.polled? ≠ some held)
    (owes : Owes held move.before.stack →
      latched held (move :: history) = true ∨ Owes held move.after.stack) :
    Attends (move :: history) move.after.stack depth held point := by
  rcases attends with observed | ⟨polls, wake⟩ | wake | owed
  · exact Or.inl (observed.cons inside quiet)
  · exact Or.inr (Or.inl ⟨polls, woken_cons wake still⟩)
  · exact Or.inr (Or.inr (Or.inl (latched_cons wake unread)))
  · exact Or.inr (Or.inr (owes owed))

/-! ### Where a request for work arrives -/

/-- Wherever the runs on the stack stand, the wake slot is bound to the context of a loop or some
inner run owes that loop a wake. -/
theorem Bound.slot_or_owes {slot current : ContextId} {guarded : Bool} {stack : List Invocation}
    (bound : Bound slot current guarded stack) {invocation : Invocation} {held : ContextId}
    {point : LoopPoint} (member : invocation ∈ stack)
    (stage : invocation.stage = .working held point) : slot = held ∨ Owes held stack := by
  induction stack generalizing slot current guarded with
  | nil => cases member
  | cons top rest inductionHypothesis =>
    obtain ⟨-, binds, suspended⟩ := bound
    unfold Invocation.Binds at binds
    rcases List.mem_cons.mp member with rfl | member
    · simp only [stage] at binds
      exact Or.inl (binds.2.1.trans binds.1.symm)
    · rcases inductionHypothesis suspended.bound member with outer | owed
      · by_cases forwards : top.stage.forwards = true
        · exact Or.inr (Or.inl ⟨List.ne_nil_of_mem member, forwards, outer⟩)
        · refine Or.inl (Eq.trans ?_ outer)
          cases inner : top.stage <;> simp only [inner] at binds forwards
          all_goals first | exact absurd rfl forwards | exact binds.1
      · exact Or.inr (Or.inr owed)

/-- What is owed to a context is owed by a run inside the one that works on it. -/
theorem Owes.recorded {context current : ContextId} {stack : List Invocation}
    {contexts : List (Option ContextId)} (owed : Owes context stack)
    (recorded : Recorded current stack contexts) : some context ∈ contexts.tail := by
  induction stack generalizing current contexts with
  | nil => exact owed.elim
  | cons top rest inductionHypothesis =>
    cases contexts with
    | nil => exact recorded.elim
    | cons own others =>
      obtain ⟨-, -, recorded⟩ := recorded
      rcases owed with ⟨around, -, rfl⟩ | owed
      · exact recorded.home_mem around
      · exact List.mem_of_mem_tail (inductionHypothesis owed recorded)

/-! ### What a run owes -/

/-- A step of the innermost invocation leaves what is owed as it is, or pays it by the wake that it
forwards. -/
theorem Pump.RunStep.owes {pump next : Pump} {top : Invocation} {rest : List Invocation}
    {answer : Answer} {context : ContextId} (sound : pump.Sound) (stack : pump.stack = top :: rest)
    (step : pump.RunStep top rest top.stage answer next)
    (intact : ∀ gone message, pump.request? = some (.destroy gone) → answer ≠ .panicked message)
    (owed : Owes context pump.stack) :
    pump.request? = some (.signal context) ∨ Owes context next.stack := by
  have after := sound.run_step stack step
  have bound := sound.bound
  have alive := sound.alive (stack ▸ List.cons_ne_nil top rest)
  have asked : pump.request? = some (top.stage.request pump.slot) := by
    rw [request?, stack]
    rfl
  rw [stack] at owed bound
  obtain ⟨depth, binds, -⟩ := bound
  unfold Invocation.Binds at binds
  rcases owed with ⟨around, forwards, rfl⟩ | owed
  · have deep : top.depth ≠ 1 := by
      rw [depth]
      exact fun single => around (List.length_eq_zero_iff.mp (Nat.succ_inj.mp single))
    generalize stageEq : top.stage = stage at binds forwards asked step
    -- Every way out of a nested run leads to `forwarding`, unless a destruction panics.
    cases step
    case conflict taken atCell => exact after.bound.2.1.elim
    case loop held point deadline stage step =>
      rcases step.stage_cases with ⟨next, rfl⟩ | ⟨outcome, rfl⟩
      · exact Or.inr (Or.inl ⟨around, rfl, rfl⟩)
      · exact Or.inr (Or.inl ⟨around, rfl, rfl⟩)
    case release held outcome owned =>
      rcases binds.2.2.2 with ⟨first, -⟩ | ⟨-, nested⟩
      · exact absurd first deep
      · rw [nested]
        exact Or.inr (Or.inl ⟨around, rfl, rfl⟩)
    case releaseLast held outcome lost =>
      simp [isOwned, alive, binds.1] at lost
    case destroyPanickedNested gone outcome message single =>
      exact absurd rfl (intact gone message asked)
    case abort gone outcome next message double =>
      exact absurd rfl (intact gone message asked)
    case forward outcome => exact Or.inl (binds.1 ▸ asked)
    all_goals first | cases forwards; done | exact Or.inr (Or.inl ⟨around, rfl, rfl⟩)
  · refine Or.inr ?_
    rcases step.stack_cases with ⟨moved, -, kept⟩ | ⟨-, rfl⟩
    · rw [kept]
      exact Or.inr owed
    · exact owed

/-- A loop is either about to look for immediate work or has been in its loop before the step, and
then not in a poll. -/
theorem Pump.RunStep.working {pump next : Pump} {top moved : Invocation} {rest : List Invocation}
    {answer : Answer} {held : ContextId} {point : LoopPoint}
    (step : pump.RunStep top rest top.stage answer next) (kept : next.stack = moved :: rest)
    (stage : moved.stage = .working held point) :
    point = .immediate ∨
      ∃ before, top.stage = .working held before ∧ ∀ timeout, before ≠ .polling timeout := by
  rcases step.loop_cases kept stage with ⟨-, rfl⟩ | ⟨before, was, step⟩
  · exact Or.inl rfl
  · generalize next.deadline = deadline at step
    cases step
    case notified | expire | polled => exact Or.inl rfl
    all_goals exact Or.inr ⟨_, was, fun _ => LoopPoint.noConfusion⟩

/-! ### The invariant -/

section

variable {history : List Move} {pump next : Pump}

/-- A loop that stays on the stack goes on to attend through a step of an inner run. -/
theorem Attended.around {top : Invocation} {rest : List Invocation} {answer : Answer}
    (attended : Attended history pump) (sound : pump.Sound) (stack : pump.stack = top :: rest)
    (step : pump.RunStep top rest top.stage answer next)
    (intact : ∀ gone message, pump.request? = some (.destroy gone) → answer ≠ .panicked message)
    {inner : Invocation} {below : List Invocation} (outer : inner :: below <:+ rest)
    (stays : rest.length ≤ next.stack.length) {held : ContextId} {point : LoopPoint}
    (stage : inner.stage = .working held point) :
    Attends ({ before := pump, event := .answered answer, after := next } :: history) next.stack
      (below.length + 1) held point := by
  have deeper : below.length + 1 ≤ rest.length := outer.length_le
  have present : inner :: below <:+ pump.stack := by
    rw [stack]
    exact outer.trans (List.suffix_cons top rest)
  refine Attends.cons (attended inner below present held point stage)
    (Nat.le_trans deeper stays) PumpEvent.noConfusion (fun _ _ => ?_)
    (fun noticed => PumpEvent.noConfusion noticed)
    fun owed => (step.owes sound stack intact owed).imp_left latched_of_signal
  rw [stack]
  exact Nat.ne_of_gt (Nat.lt_succ_of_le deeper)

/-- A step of the innermost invocation keeps the invariant. -/
theorem Attended.run_step {top : Invocation} {rest : List Invocation} {answer : Answer}
    (attended : Attended history pump) (sound : pump.Sound) (stack : pump.stack = top :: rest)
    (step : pump.RunStep top rest top.stage answer next)
    (intact : ∀ gone message, pump.request? = some (.destroy gone) → answer ≠ .panicked message) :
    Attended ({ before := pump, event := .answered answer, after := next } :: history) next := by
  intro inner below present held point stage
  rcases step.stack_cases with ⟨moved, -, kept⟩ | ⟨-, left⟩
  · have stays : rest.length ≤ next.stack.length := by
      rw [kept]
      exact Nat.le_succ rest.length
    rw [kept] at present
    rcases List.suffix_cons_iff.mp present with mine | outer
    · obtain ⟨rfl, rfl⟩ := List.cons.inj mine
      rcases step.working kept stage with rfl | ⟨before, was, apart⟩
      · refine Or.inl (.of_starts ⟨⟨answer, rfl⟩, ?_, ?_, ?_⟩)
        · rw [stack, List.length_cons]
        · rw [kept, List.length_cons]
        · rw [Pump.request?, kept, List.head?_cons, Option.map_some, stage]
          rfl
      · rcases attended top below (stack ▸ List.suffix_refl _) held before was with
          observed | ⟨⟨timeout, polls⟩, -⟩ | wake | owed
        · refine Or.inl (observed.cons ?_ PumpEvent.noConfusion)
          rw [kept]
          exact Nat.le_refl _
        · exact absurd polls (apart timeout)
        · exact Or.inr (Or.inr (Or.inl (latched_cons wake PumpEvent.noConfusion)))
        · exact Or.inr (Or.inr ((step.owes sound stack intact owed).imp_left latched_of_signal))
    · exact attended.around sound stack step intact outer stays stage
  · subst left
    exact attended.around sound stack step intact present (Nat.le_refl _) stage

/-- What leaves the loops on the stack as they are, requests no work and takes notice of no wake
keeps the invariant. -/
theorem Attended.idle {event : PumpEvent} (attended : Attended history pump)
    (same : next.stack = pump.stack) (quiet : event ≠ .scheduled)
    (other : ∀ answer, event ≠ .answered answer) (unread : event ≠ .noticed) :
    Attended ({ before := pump, event, after := next } :: history) next := by
  intro top rest present held point stage
  rw [same] at present
  refine Attends.cons (attended top rest present held point stage) ?_ quiet
    (fun answer answered => absurd answered (other answer)) (fun noticed => absurd noticed unread)
    fun owed => Or.inr ?_
  · rw [same]
    exact present.length_le
  · rw [same]
    exact owed

/-- A run that is entered is not in its loop yet. -/
theorem Attended.entered {top : Invocation} (attended : Attended history pump)
    (stack : next.stack = top :: pump.stack)
    (outside : ∀ held point, top.stage ≠ .working held point) :
    Attended ({ before := pump, event := .entered, after := next } :: history) next := by
  intro inner below present held point stage
  rw [stack] at present
  rcases List.suffix_cons_iff.mp present with mine | outer
  · obtain ⟨rfl, -⟩ := List.cons.inj mine
    exact absurd stage (outside held point)
  · refine Attends.cons (attended inner below outer held point stage) ?_ PumpEvent.noConfusion
      (fun _ => PumpEvent.noConfusion) (fun noticed => PumpEvent.noConfusion noticed)
      fun owed => Or.inr ?_
    · rw [stack]
      exact Nat.le_succ_of_le outer.length_le
    · rw [stack]
      exact Or.inr owed

/-- A request for work is latched at the context of a loop or owed to it. -/
theorem Attended.of_scheduled (sound : pump.Sound) :
    Attended ({ before := pump, event := .scheduled, after := pump } :: history) pump := by
  intro top rest present held point stage
  have member : top ∈ pump.stack := present.subset List.mem_cons_self
  rcases sound.bound.slot_or_owes member stage with slot | owed
  · refine Or.inr (Or.inr (Or.inl ?_))
    simp only [latched, Pump.scheduleWork, slot, beq_self_eq_true, Bool.true_or]
  · exact Or.inr (Or.inr (Or.inr owed))

/-- The poll that takes notice of a wake is the one of the loop on the context of the wake. -/
theorem Attended.noticed {contexts : List (Option ContextId)} {context : ContextId}
    (attended : Attended history pump) (layered : pump.Layered contexts) (sound : pump.Sound)
    (polled : pump.polled? = some context) :
    Attended ({ before := pump, event := .noticed, after := pump } :: history) pump := by
  intro top rest present held point stage
  have attends := attended top rest present held point stage
  by_cases same : context = held
  · subst same
    obtain ⟨innermost, below, timeout, stack, polls⟩ := Pump.polled?_some polled
    have mine : top = innermost ∧ rest = below := by
      rw [stack] at present
      rcases List.suffix_cons_iff.mp present with mine | outer
      · exact List.cons.inj mine
      · have member : top ∈ below := outer.subset List.mem_cons_self
        exact absurd stage (layered.loops_differ sound stack polls member point)
    obtain ⟨rfl, rfl⟩ := mine
    rcases attends with observed | ⟨polling, wake⟩ | wake | owed
    · exact Or.inl (observed.cons present.length_le PumpEvent.noConfusion)
    · exact Or.inr (Or.inl ⟨polling, woken_cons wake fun _ => PumpEvent.noConfusion⟩)
    · cases stage.symm.trans polls
      refine Or.inr (Or.inl ⟨⟨timeout, rfl⟩, ?_⟩)
      simp only [woken, stack, List.length_cons, beq_self_eq_true, polled, Option.any_some, wake,
        Bool.and_true, Bool.true_or]
    · exact Or.inr (Or.inr (Or.inr owed))
  · refine attends.cons present.length_le PumpEvent.noConfusion (fun _ => PumpEvent.noConfusion)
      (fun _ notice => ?_) Or.inr
    exact same (Option.some.inj (polled.symm.trans notice))

end

/-! ### No request is lost -/

theorem Execution.attended {history : List Move} {pump : Pump}
    (execution : Execution history pump)
    (intact : ∀ move ∈ history, move.failsToDestroy = false) : Attended history pump := by
  induction execution with
  | start name =>
    intro top rest present
    exact absurd (List.suffix_nil.mp present) (List.cons_ne_nil top rest)
  | @step history pump event next execution possible inductionHypothesis =>
    obtain ⟨unharmed, intact⟩ := List.forall_mem_cons.mp intact
    have attended := inductionHypothesis intact
    have sound := Execution.sound execution
    cases Pump.after?_some possible with
    | @answered _ _ answer _ stack step =>
      refine attended.run_step sound stack step fun gone message asked panicked => ?_
      simp only [Move.failsToDestroy, asked, panicked, Bool.true_eq_false] at unharmed
    | entered yields alive running =>
      refine attended.entered rfl fun held point => ?_
      split <;> exact Stage.noConfusion
    | scheduled => exact .of_scheduled sound
    | noticed polled => exact attended.noticed (Execution.layered execution) sound polled
    | _ =>
      exact attended.idle rfl PumpEvent.noConfusion (fun _ => PumpEvent.noConfusion)
        PumpEvent.noConfusion

/-- When a loop waits, every request for work that has been sent was sent before the loop began, for
the last time, to look for immediate work. Runs may be nested in any way and end in any way; the
destruction of a context is taken not to panic. -/
theorem Execution.no_lost_wake_up {history : List Move} {pump : Pump} {context : ContextId}
    (execution : Execution history pump)
    (intact : ∀ move ∈ history, move.failsToDestroy = false)
    (waits : Waits history pump context) :
    ∃ later start earlier, history = later ++ start :: earlier ∧
      start.Starts pump.stack.length ∧
      ∀ move ∈ later, pump.stack.length ≤ move.after.stack.length ∧
        ¬ move.Starts pump.stack.length ∧ move.event ≠ .scheduled := by
  obtain ⟨polls, unlatched, unwoken⟩ := waits
  obtain ⟨top, rest, timeout, stack, stage⟩ := Pump.polled?_some polls
  have attends := execution.attended intact top rest (stack ▸ List.suffix_refl _) context _ stage
  rw [stack, List.length_cons] at unwoken ⊢
  rcases attends with observed | ⟨-, wake⟩ | wake | owed
  · exact observed
  · exact absurd (wake.symm.trans unwoken) (by decide)
  · exact absurd (wake.symm.trans unlatched) (by decide)
  · obtain ⟨own, others, contexts, -, works, -⟩ := execution.recorded_cons stack
    have layered := execution.layered
    rw [contexts] at layered
    rw [stage] at works
    have outer := owed.recorded layered.recorded
    exact absurd (layered.older works outer) (Nat.lt_irrefl context)

/-- Work is requested while a nested run has bound its signal but not yet exchanged the contexts.
The nested loop takes notice, so does the outer one of the forwarded wake, and then it waits. -/
def requestBetween : List PumpEvent :=
  [.entered, .answered .done, .entered, .answered .created, .answered .done, .answered .done,
    .scheduled, .answered .done, .answered .done, .answered .done, .answered (.worked false),
    .answered (.workedUntil false none), .answered (.worked false), .noticed, .answered .done,
    .quit, .answered (.worked false), .answered .done, .answered .done, .answered .done,
    .answered .done, .answered .done, .answered .done, .answered .done, .answered (.worked false),
    .answered (.workedUntil false none), .answered (.worked false), .noticed, .answered .done,
    .answered (.worked false), .answered (.workedUntil false none), .answered (.worked false)]

theorem Execution.no_lost_wake_up_requestBetween :
    Waits (replayed requestBetween).1 (replayed requestBetween).2 0 ∧
      ∃ later start earlier, (replayed requestBetween).1 = later ++ start :: earlier ∧
        start.Starts 1 ∧ ∀ move ∈ later, 1 ≤ move.after.stack.length ∧ ¬ move.Starts 1 ∧
          move.event ≠ .scheduled := by
  have intact : ∀ move ∈ (replayed requestBetween).1, move.failsToDestroy = false := by decide
  have waits : Waits (replayed requestBetween).1 (replayed requestBetween).2 0 :=
    ⟨by decide, by decide, by decide⟩
  exact ⟨waits, Execution.no_lost_wake_up (.of_replayed requestBetween) intact waits⟩

end MessagePump

/-
This file proves how a run ends and why.

A run keeps no record of what it has been told, but what it returns can be read off the replies to
its own requests. Exactly one reply decides: the failure of its context, the failure of a poll, or
the return of a delegate while the quit flag is down. `Reply.verdict?` tells which, and the
invariant `Stage.Replied` says for every stage whether the decision has been made by then. After it
the loop makes no further call. Replies to a nested run are not among those of the run around it,
and the flag is up again when a nested run has left, so a nested run decides nothing but its own
end.
-/

import MessagePump.Proofs.Quitting

namespace MessagePump

/-! ### Following one run -/

/-- An invocation is followed from a move on after which it is the innermost one: what holds then,
is kept by its own steps and does not depend on any other move, holds at each of its stages. -/
theorem Execution.follow (fits : List Move → Stage → Prop) {inside earlier : List Move}
    {first : Move} {pump : Pump} {start : Invocation} {below : List Invocation}
    (execution : Execution (inside ++ first :: earlier) pump)
    (reached : first.after.stack = start :: below)
    (deeper : ∀ move ∈ inside, below.length < move.after.stack.length)
    (fresh : fits [] start.stage)
    (own : ∀ {since before next answer top moved}, Execution (since ++ first :: earlier) before →
      before.stack = top :: below → before.RunStep top below top.stage answer next →
      next.stack = moved :: below → fits since top.stage →
      fits (⟨before, .answered answer, next⟩ :: since) moved.stage)
    (aside : ∀ {since move stage}, (∀ answer, move.event = .answered answer →
      move.before.stack.length ≠ below.length + 1) → fits since stage →
      fits (move :: since) stage) :
    ∃ top : Invocation, top :: below <:+ pump.stack ∧ fits inside top.stage := by
  induction inside generalizing pump with
  | nil =>
    cases execution with
    | step => exact ⟨start, reached ▸ List.suffix_refl _, fresh⟩
  | cons move inside inductionHypothesis =>
    cases execution with
    | @step _ before event _ execution possible =>
      obtain ⟨stays, deeper⟩ := List.forall_mem_cons.mp deeper
      obtain ⟨top, present, holds⟩ := inductionHypothesis execution deeper
      have happens := Pump.after?_some possible
      cases happens with
      | @answered innermost rest answer _ stack step =>
        rw [stack] at present
        rcases List.suffix_cons_iff.mp present with mine | outer
        · obtain ⟨rfl, rfl⟩ := List.cons.inj mine
          rcases step.stack_cases with ⟨moved, -, kept⟩ | ⟨-, rfl⟩
          · exact ⟨moved, kept ▸ List.suffix_refl _, own execution stack step kept holds⟩
          · exact absurd stays (Nat.lt_irrefl _)
        · have deep : below.length + 1 < before.stack.length := by
            rw [stack]
            exact Nat.lt_succ_of_le outer.length_le
          exact ⟨top, Pump.Happens.below (.answered stack step) (stack ▸ present) deep,
            aside (fun _ _ => Nat.ne_of_gt deep) holds⟩
      | entered =>
        exact ⟨top, present.trans (List.suffix_cons _ _),
          aside (fun _ => PumpEvent.noConfusion) holds⟩
      | _ => exact ⟨top, present, aside (fun _ => PumpEvent.noConfusion) holds⟩

/-- The stage of an invocation that has just been entered. -/
def Pump.firstStage (pump : Pump) : Stage := if pump.level + 1 > 1 then .creating else .starting

theorem Execution.entered_stack {earlier : List Move} {entry : Move} {pump : Pump}
    (execution : Execution (entry :: earlier) pump) (enters : entry.event = .entered) :
    entry.after.stack =
      { depth := entry.before.level + 1, stage := entry.before.firstStage } ::
        entry.before.stack := by
  cases execution with
  | step _ possible =>
    cases enters
    cases Pump.after?_some possible with
    | entered => rfl

/-- A run that leaves is the innermost one, at its last stage. -/
theorem Execution.leaves_closing {history : List Move} {leaving : Move} {below : List Invocation}
    {top : Invocation} {pump : Pump} (execution : Execution (leaving :: history) pump)
    (left : leaving.after.stack.length ≤ below.length)
    (present : top :: below <:+ leaving.before.stack) :
    leaving.before.stack = top :: below ∧ ∃ outcome, top.stage = .closing outcome := by
  have shorter : leaving.after.stack.length < leaving.before.stack.length :=
    Nat.lt_of_le_of_lt left (Nat.lt_of_lt_of_le (Nat.lt_succ_self _) present.length_le)
  cases execution with
  | step execution possible =>
    have happens := Pump.after?_some possible
    obtain ⟨answer, rfl⟩ := happens.shorter shorter
    cases happens with
    | @answered innermost rest _ _ stack step =>
      dsimp only at present left shorter ⊢
      rw [stack] at present shorter ⊢
      rcases step.stack_cases with ⟨moved, -, kept⟩ | ⟨closing, rfl⟩
      · rw [kept] at shorter
        exact absurd shorter (Nat.lt_irrefl _)
      · rcases List.suffix_cons_iff.mp present with mine | outer
        · obtain ⟨rfl, rfl⟩ := List.cons.inj mine
          exact ⟨rfl, closing⟩
        · exact absurd outer.length_le (Nat.not_le.mpr (Nat.lt_succ_of_le left))

/-! ### The replies to a run -/

/-- The requests of a loop for work of its delegate. -/
def Request.isWork : Request → Bool
  | .immediate | .delayed _ | .idle => true
  | _ => false

/-- A request that has been answered, with the quit flag as it was then. -/
structure Reply where
  request : Request
  answer : Answer
  running : Bool
  deriving DecidableEq

/-- What the invocation at a depth is told by a move, if the move answers a request of it. -/
def Move.reply? (depth : Nat) (move : Move) : Option Reply :=
  match move.event, move.before.request? with
  | .answered answer, some request =>
    if move.before.stack.length = depth then some ⟨request, answer, move.before.running⟩ else none
  | _, _ => none

/-- The replies to the invocation at a depth, the latest first. -/
def replies (depth : Nat) (moves : List Move) : List Reply := moves.filterMap (Move.reply? depth)

/-- The outcome that a reply decides on, if any: a panic, the failure of the context or of a poll,
and the end of the run if a delegate returns while the quit flag is down. -/
def Reply.verdict? (reply : Reply) : Option Outcome :=
  match reply.request, reply.answer with
  | _, .panicked message => some (.panicked message)
  | .createContext, .failed cause => some (.failed (.createContext cause))
  | .poll _ _, .failed cause => some (.failed (.poll cause))
  | request, _ => if request.isWork && !reply.running then some .finished else none

/-- No reply has decided on an outcome. -/
def Undecided (log : List Reply) : Prop := ∀ reply ∈ log, reply.verdict? = none

/-- One reply to the loop has decided on the outcome, and the loop has been told nothing since. -/
def LoopEnded (outcome : Outcome) (log : List Reply) : Prop :=
  ∃ after last before, log = after ++ last :: before ∧ last.request.ofLoop = true ∧
    last.verdict? = some outcome ∧ Undecided after ∧
    (∀ reply ∈ after, reply.request.ofLoop = false) ∧ Undecided before

/-- The run has had no context created and has done nothing else. -/
def NeverStarted (outcome : Outcome) (log : List Reply) : Prop :=
  ∃ cause running, outcome = .failed (.createContext cause) ∧
    log = [⟨.createContext, .failed cause, running⟩]

/-- What a run at a depth has been told by the time that it is at a stage. Nothing is said of a run
that is unwound by a panic. -/
def Stage.Replied (depth : Nat) (log : List Reply) : Stage → Prop
  | .creating => 1 < depth ∧ log = []
  | .naming _ | .binding _ | .guarding _ _ | .exchanging _ _ | .starting | .working _ _ =>
    Undecided log
  | .releasing _ outcome | .destroying _ outcome _ | .unbinding outcome | .regarding outcome
  | .restoring outcome | .forwarding outcome => outcome.isPanic = false → LoopEnded outcome log
  | .closing outcome => outcome.isPanic = false →
    LoopEnded outcome log ∨ 1 < depth ∧ NeverStarted outcome log
  | .conflicted | .aborting => True

theorem Undecided.cons {log : List Reply} {reply : Reply} (undecided : Undecided log)
    (indecisive : reply.verdict? = none) : Undecided (reply :: log) :=
  List.forall_mem_cons.mpr ⟨indecisive, undecided⟩

/-- The reply that decides is the end of the loop. -/
theorem Undecided.ended {log : List Reply} {reply : Reply} {outcome : Outcome}
    (undecided : Undecided log) (looping : reply.request.ofLoop = true)
    (decides : reply.verdict? = some outcome) : LoopEnded outcome (reply :: log) :=
  ⟨[], reply, log, rfl, looping, decides, List.forall_mem_nil _, List.forall_mem_nil _, undecided⟩

/-- What a run is told while it is torn down changes nothing. -/
theorem LoopEnded.cons {log : List Reply} {reply : Reply} {outcome : Outcome}
    (ended : LoopEnded outcome log) (indecisive : reply.verdict? = none)
    (other : reply.request.ofLoop = false) : LoopEnded outcome (reply :: log) := by
  obtain ⟨after, last, before, rfl, looping, decides, quiet, outside, undecided⟩ := ended
  exact ⟨reply :: after, last, before, rfl, looping, decides, quiet.cons indecisive,
    List.forall_mem_cons.mpr ⟨other, outside⟩, undecided⟩

theorem Stage.leaving_replied {depth : Nat} {log : List Reply} {outcome : Outcome}
    (ended : outcome.isPanic = false → LoopEnded outcome log) (enclosing : Option Enclosing) :
    (Stage.leaving enclosing outcome).Replied depth log := by
  cases enclosing with
  | none => exact fun returns => Or.inl (ended returns)
  | some => exact ended

/-- A step of the loop goes on after a reply that decides nothing, and ends the loop with the
outcome that is decided on. -/
theorem LoopStep.replied {running : Bool} {recorded deadline : Option Instant} {held : ContextId}
    {point : LoopPoint} {answer : Answer} {stage : Stage} {depth : Nat} {log : List Reply}
    (slot : ContextId) (step : LoopStep running recorded held point answer deadline stage)
    (undecided : Undecided log) :
    stage.Replied depth (⟨(Stage.working held point).request slot, answer, running⟩ :: log) := by
  cases step with
  | passImmediate _ going | workDelayed _ _ _ _ going | passDelayed _ _ going | workIdle going
  | waitForever going | lookAtClock _ going =>
    subst going
    exact undecided.cons rfl
  | quitImmediate _ quit | quitDelayed _ _ _ _ quit | quitIdle _ quit =>
    subst quit
    exact fun _ => undecided.ended rfl rfl
  | notified | expire | waitUntil | polled => exact undecided.cons rfl
  | pollFailed => exact fun _ => undecided.ended rfl rfl
  | panicked => exact Bool.noConfusion

/-- A step of a run brings it to a stage that says what it has been told. -/
theorem Pump.RunStep.replied {pump next : Pump} {top moved : Invocation} {rest : List Invocation}
    {answer : Answer} {depth : Nat} {log : List Reply}
    (step : pump.RunStep top rest top.stage answer next) (kept : next.stack = moved :: rest)
    (replied : top.stage.Replied depth log) :
    moved.stage.Replied depth (⟨top.stage.request pump.slot, answer, pump.running⟩ :: log) := by
  generalize top.stage = stage at replied step ⊢
  cases step
  case close outcome =>
    exact absurd (congrArg List.length kept) (Nat.ne_of_lt (Nat.lt_succ_self _))
  all_goals obtain rfl := (List.cons.inj kept).1
  case create =>
    obtain ⟨-, rfl⟩ := replied
    exact Undecided.cons (List.forall_mem_nil _) rfl
  case createFailed cause =>
    obtain ⟨deep, rfl⟩ := replied
    exact fun _ => Or.inr ⟨deep, cause, pump.running, rfl, rfl⟩
  case createPanicked | namePanicked => exact Bool.noConfusion
  case name | bind | guard | exchange | start => exact Undecided.cons replied rfl
  case conflict | abort => trivial
  case loop held point deadline stage step => exact step.replied pump.slot replied
  case release held outcome owned =>
    exact Stage.leaving_replied (fun returns => (replied returns).cons rfl rfl) top.enclosing
  case destroyed gone outcome =>
    exact Stage.leaving_replied (fun returns => (replied returns).cons rfl rfl) top.enclosing
  case destroyPanicked => exact Stage.leaving_replied Bool.noConfusion top.enclosing
  case destroyPanickedNested => exact Bool.noConfusion
  case forward => exact fun returns => Or.inl ((replied returns).cons rfl rfl)
  all_goals exact fun returns => (replied returns).cons rfl rfl

/-! ### Replies in an execution -/

theorem Move.reply?_answered {pump : Pump} {top : Invocation} {rest : List Invocation}
    (stack : pump.stack = top :: rest) (answer : Answer) (next : Pump) :
    Move.reply? (rest.length + 1) ⟨pump, .answered answer, next⟩ =
      some ⟨top.stage.request pump.slot, answer, pump.running⟩ := by
  simp only [reply?, Pump.request?, stack, List.head?_cons, Option.map_some, List.length_cons,
    if_true]

theorem Move.reply?_elsewhere {depth : Nat} {move : Move}
    (other : ∀ answer, move.event = .answered answer → move.before.stack.length ≠ depth) :
    move.reply? depth = none := by
  unfold reply?
  split
  · next answer request answered asked => exact if_neg (other answer answered)
  · rfl

theorem Move.reply?_some {depth : Nat} {move : Move} {reply : Reply}
    (told : move.reply? depth = some reply) :
    move.event = .answered reply.answer ∧ move.before.request? = some reply.request ∧
      move.before.stack.length = depth ∧ move.before.running = reply.running := by
  unfold reply? at told
  split at told
  · next answer request answered asked =>
    obtain ⟨mine, same⟩ := Option.ite_none_right_eq_some.mp told
    cases same
    exact ⟨answered, asked, mine, rfl⟩
  · cases told

/-- Until it has left, a run has been told what its stage says. -/
theorem Execution.replied_inside {inside earlier : List Move} {entry : Move} {pump : Pump}
    (execution : Execution (inside ++ entry :: earlier) pump) (enters : entry.event = .entered)
    (deeper : ∀ move ∈ inside, entry.before.stack.length < move.after.stack.length) :
    ∃ top : Invocation, top :: entry.before.stack <:+ pump.stack ∧
      top.stage.Replied (entry.before.stack.length + 1)
        (replies (entry.before.stack.length + 1) inside) := by
  refine execution.follow
    (fun since stage => stage.Replied _ (replies (entry.before.stack.length + 1) since))
    (execution.after.entered_stack enters) deeper ?_ ?_ ?_
  · have level := execution.before.sound.level
    unfold Pump.firstStage
    split
    · next nested => exact ⟨level ▸ nested, rfl⟩
    · exact List.forall_mem_nil _
  · intro since before next answer top moved _ stack step kept replied
    rw [replies, List.filterMap_cons_some (Move.reply?_answered stack answer next)]
    exact step.replied kept replied
  · intro since move stage other replied
    rw [replies, List.filterMap_cons_none (Move.reply?_elsewhere other)]
    exact replied

/-- Where the flag is down at the depth of a run, a quit has been called in that run itself and not
in one that is nested in it. -/
theorem Execution.quit_inside {inside earlier : List Move} {entry : Move} {pump : Pump}
    (execution : Execution (inside ++ entry :: earlier) pump) (enters : entry.event = .entered)
    (down : pump.running = false) (mine : pump.stack.length = entry.before.stack.length + 1) :
    ∃ quit ∈ inside, quit.event = .quit ∧
      quit.before.stack.length = entry.before.stack.length + 1 := by
  obtain ⟨since, quit, before, split, quits, runs, same⟩ := execution.running_iff.mp down
  rw [mine] at runs same
  have other : entry ≠ quit := by
    rintro rfl
    cases enters.symm.trans quits
  rcases List.append_eq_append_iff.mp split with ⟨between, rfl, rest⟩ | ⟨between, rfl, rest⟩
  · -- A quit from before the entry would have been called at the depth below.
    cases between with
    | nil => exact absurd (List.cons.inj rest).1 other
    | cons _ between =>
      obtain ⟨rfl, rfl⟩ := List.cons.inj rest
      have inForce : QuitInForce (entry.before.stack.length + 1) (between ++ quit :: before) :=
        ⟨between, quit, before, rfl, quits, runs, fun move member =>
          same move (List.mem_append_right _ (.tail _ member))⟩
      exact absurd (inForce.runs execution.before) (Nat.ne_of_lt (Nat.lt_succ_self _))
  · cases between with
    | nil => exact absurd (List.cons.inj rest).1.symm other
    | cons _ between =>
      obtain ⟨rfl, -⟩ := List.cons.inj rest
      exact ⟨quit, List.mem_append_right _ (.head _), quits, runs⟩

/-! ### How a run ends -/

/-- What the outcome of a run that returns says of what it has been told, the latest reply first. -/
structure Outcome.Explained (depth : Nat) (log : List Reply) (outcome : Outcome) : Prop where
  creation : ∀ cause, outcome = .failed (.createContext cause) ↔
    1 < depth ∧ ∃ running, (⟨.createContext, .failed cause, running⟩ : Reply) ∈ log
  untouched : ∀ cause, outcome = .failed (.createContext cause) →
    ∃ running, log = [⟨.createContext, .failed cause, running⟩]
  poll : ∀ cause, outcome = .failed (.poll cause) ↔ ∃ context timeout running,
    (⟨.poll context timeout, .failed cause, running⟩ : Reply) ∈ log
  last : ∀ cause, outcome = .failed (.poll cause) → ∃ after context timeout running before,
    log = after ++ ⟨.poll context timeout, .failed cause, running⟩ :: before ∧
      ∀ reply ∈ after, reply.request.ofLoop = false
  finished : outcome = .finished ↔
    ∃ reply ∈ log, reply.request.isWork = true ∧ reply.running = false

/-- What a reply can decide on. -/
theorem Reply.verdict?_some {reply : Reply} {outcome : Outcome}
    (decides : reply.verdict? = some outcome) :
    (∃ message, outcome = .panicked message) ∨
      (∃ cause, outcome = .failed (.createContext cause) ∧ reply.request = .createContext) ∨
      (∃ cause context timeout, outcome = .failed (.poll cause) ∧
        reply = ⟨.poll context timeout, .failed cause, reply.running⟩) ∨
      outcome = .finished ∧ reply.request.isWork = true ∧ reply.running = false := by
  obtain ⟨request, answer, running⟩ := reply
  unfold verdict? at decides
  split at decides
  · next _ _ message _ => exact Or.inl ⟨message, (Option.some.inj decides).symm⟩
  · next cause created _ =>
    exact Or.inr (Or.inl ⟨cause, (Option.some.inj decides).symm, created⟩)
  · next _ _ context timeout cause polled failed =>
    dsimp only at polled failed
    subst polled failed
    exact Or.inr (Or.inr (Or.inl ⟨cause, context, timeout, (Option.some.inj decides).symm, rfl⟩))
  · split at decides
    · next quit =>
      rw [Bool.and_eq_true, Bool.not_eq_true'] at quit
      exact Or.inr (Or.inr (Or.inr ⟨(Option.some.inj decides).symm, quit⟩))
    · cases decides

/-- A delegate that returns or panics while the flag is down decides. -/
theorem Reply.verdict?_work {reply : Reply} (work : reply.request.isWork = true)
    (down : reply.running = false) :
    reply.verdict? = some .finished ∨ ∃ message, reply.verdict? = some (.panicked message) := by
  unfold verdict?
  split
  · next _ _ message _ => exact Or.inr ⟨message, rfl⟩
  · next _ _ created _ =>
    rw [created] at work
    cases work
  · next _ _ _ _ polled _ =>
    rw [polled] at work
    cases work
  · rw [work, down]
    exact Or.inl rfl

/-- Only one reply decides. -/
theorem LoopEnded.decided {log : List Reply} {outcome other : Outcome} {reply : Reply}
    (ended : LoopEnded outcome log) (member : reply ∈ log)
    (decides : reply.verdict? = some other) :
    other = outcome ∧ reply.request.ofLoop = true := by
  obtain ⟨after, last, before, rfl, looping, verdict, quiet, -, undecided⟩ := ended
  rcases List.mem_append.mp member with inAfter | member
  · cases (quiet reply inAfter).symm.trans decides
  · rcases List.mem_cons.mp member with rfl | inBefore
    · exact ⟨Option.some.inj (decides.symm.trans verdict), looping⟩
    · cases (undecided reply inBefore).symm.trans decides

theorem LoopEnded.explained {depth : Nat} {log : List Reply} {outcome : Outcome}
    (ended : LoopEnded outcome log) (returns : outcome.isPanic = false) :
    outcome.Explained depth log := by
  have created : ∀ cause, outcome ≠ .failed (.createContext cause) := by
    rintro cause rfl
    obtain ⟨-, last, -, -, looping, verdict, -⟩ := ended
    rcases Reply.verdict?_some verdict with ⟨_, same⟩ | ⟨_, -, request⟩ | ⟨_, _, _, same, -⟩ |
      ⟨same, -⟩
    · cases same
    · rw [request] at looping
      cases looping
    · cases same
    · cases same
  have polled : ∀ cause, outcome = .failed (.poll cause) →
      ∃ after context timeout running before,
        log = after ++ ⟨.poll context timeout, .failed cause, running⟩ :: before ∧
          ∀ reply ∈ after, reply.request.ofLoop = false := by
    rintro cause rfl
    obtain ⟨after, last, before, rfl, -, verdict, -, outside, -⟩ := ended
    rcases Reply.verdict?_some verdict with ⟨_, same⟩ | ⟨_, same, -⟩ |
      ⟨_, context, timeout, same, poll⟩ | ⟨same, -⟩
    · cases same
    · cases same
    · cases same
      exact ⟨after, context, timeout, last.running, before, by rw [← poll], outside⟩
    · cases same
  refine ⟨fun cause => ⟨fun failed => absurd failed (created cause), ?_⟩,
    fun cause failed => absurd failed (created cause), fun cause => ⟨fun failed => ?_, ?_⟩, polled,
    fun finished => ?_, ?_⟩
  · rintro ⟨-, running, member⟩
    cases (ended.decided member rfl).2
  · obtain ⟨after, context, timeout, running, before, rfl, -⟩ := polled cause failed
    exact ⟨context, timeout, running, List.mem_append_right _ (.head _)⟩
  · rintro ⟨context, timeout, running, member⟩
    exact (ended.decided member rfl).1.symm
  · subst finished
    obtain ⟨after, last, before, rfl, -, verdict, -⟩ := ended
    rcases Reply.verdict?_some verdict with ⟨_, same⟩ | ⟨_, same, -⟩ | ⟨_, _, _, same, -⟩ |
      ⟨-, work⟩
    · cases same
    · cases same
    · cases same
    · exact ⟨last, List.mem_append_right _ (.head _), work⟩
  · rintro ⟨reply, member, work, down⟩
    rcases Reply.verdict?_work work down with finishes | ⟨message, panics⟩
    · exact (ended.decided member finishes).1.symm
    · obtain rfl := (ended.decided member panics).1
      cases returns

theorem NeverStarted.explained {depth : Nat} {log : List Reply} {outcome : Outcome}
    (never : NeverStarted outcome log) (nested : 1 < depth) : outcome.Explained depth log := by
  obtain ⟨cause, running, rfl, rfl⟩ := never
  refine ⟨fun other => ⟨fun same => ?_, ?_⟩, fun other same => ?_,
    fun other => ⟨fun same => ?_, ?_⟩, fun other same => ?_, fun same => ?_, ?_⟩
  · cases same
    exact ⟨nested, running, .head _⟩
  · rintro ⟨-, flag, member⟩
    cases List.mem_singleton.mp member
    rfl
  · cases same
    exact ⟨running, rfl⟩
  · cases same
  · rintro ⟨context, timeout, flag, member⟩
    cases List.mem_singleton.mp member
  · cases same
  · cases same
  · rintro ⟨reply, member, work, -⟩
    cases List.mem_singleton.mp member
    cases work

/-- Nothing that happens in a nested run is a reply to a run around it. -/
theorem Execution.replies_nested {within earlier : List Move} {left entered : Move} {pump : Pump}
    {depth : Nat} (execution : Execution (left :: (within ++ entered :: earlier)) pump)
    (spans : Spans entered within left) (around : depth ≤ entered.before.stack.length) :
    replies depth (left :: (within ++ [entered])) = [] := by
  have deeper : ∀ inside move before, within = inside ++ move :: before →
      depth < move.before.stack.length := by
    rintro inside move before rfl
    rw [List.append_assoc, ← List.cons_append] at execution
    have reached : Execution (before ++ entered :: earlier) move.before := execution.before
    exact Nat.lt_of_le_of_lt around (reached.inside_run spans.enters fun other member =>
      spans.deeper other (List.mem_append_right _ (.tail _ member))).2.1
  have latest : depth < left.before.stack.length := by
    cases execution with
    | step reached _ =>
      exact Nat.lt_of_le_of_lt around (Execution.inside_run reached spans.enters spans.deeper).2.1
  refine List.filterMap_eq_nil_iff.mpr fun move member => Move.reply?_elsewhere ?_
  rcases List.mem_cons.mp member with rfl | member
  · exact fun _ _ => Nat.ne_of_gt latest
  · rcases List.mem_append.mp member with member | last
    · obtain ⟨inside, before, split⟩ := List.append_of_mem member
      exact fun _ _ => Nat.ne_of_gt (deeper inside move before split)
    · obtain rfl := List.mem_singleton.mp last
      intro answer answered
      cases answered.symm.trans spans.enters

/-- A run that returns does so because of one reply to it. It fails to create its context if it is
nested and that creation has failed, and then it has done nothing else. It fails by a poll if a poll
of its own loop has failed, and then its loop has made no call since. It finishes if a delegate has
returned to it while the quit flag was down, for which a quit must have been called in it, and not
in a run that is nested in it. A nested run, however it ends, leaves the run around it as it was,
with the flag up and without a reply. -/
theorem Execution.run_outcome {later inside earlier : List Move} {leaving entry : Move}
    {pump : Pump} (execution : Execution (later ++ leaving :: (inside ++ entry :: earlier)) pump)
    (spans : Spans entry inside leaving) :
    ∃ outcome, leaving.before.request? = some (.leave outcome) ∧
      (outcome.isPanic = false → outcome.Explained (entry.before.stack.length + 1)
        (replies (entry.before.stack.length + 1) inside)) ∧
      (∀ after move before reply, inside = after ++ move :: before →
        move.reply? (entry.before.stack.length + 1) = some reply → reply.running = false →
          ∃ quit ∈ before, quit.event = .quit ∧
            quit.before.stack.length = entry.before.stack.length + 1) ∧
      ∀ after left within entered before,
        inside = after ++ left :: (within ++ entered :: before) → Spans entered within left →
          left.after.stack = entered.before.stack ∧ left.after.running = true ∧
            replies (entry.before.stack.length + 1) (left :: (within ++ [entered])) = [] := by
  have ran : Execution (inside ++ entry :: earlier) leaving.before := execution.before
  obtain ⟨top, present, replied⟩ := ran.replied_inside spans.enters spans.deeper
  obtain ⟨stack, outcome, closing⟩ := execution.after.leaves_closing spans.left present
  refine ⟨outcome, ?_, fun returns => ?_, ?_, ?_⟩
  · rw [Pump.request?, stack, List.head?_cons, Option.map_some, closing]
    rfl
  · rw [closing] at replied
    rcases replied returns with ended | ⟨nested, never⟩
    · exact ended.explained returns
    · exact never.explained nested
  · rintro after move before reply rfl answers down
    rw [List.append_assoc] at ran
    obtain ⟨-, -, depth, flag⟩ := Move.reply?_some answers
    exact (Execution.before ran).quit_inside spans.enters (flag.trans down) depth
  · rintro after left within entered before rfl nested
    rw [List.append_assoc, List.cons_append, List.append_assoc] at ran
    have reached : Execution (left :: (within ++ entered :: (before ++ entry :: earlier)))
        left.after := Execution.after ran
    have ending : Execution ((left :: within) ++ entered :: (before ++ entry :: earlier))
        left.after := reached
    have running := (Pump.after?_some (nested.enters ▸ ending.possible)).entering.2
    have around := (ending.before.inside_run spans.enters fun move member => spans.deeper move
      (List.mem_append_right _ (.tail _ (List.mem_append_right _ (.tail _ member))))).2.1
    rw [reached.run_left nested]
    exact ⟨rfl, running, reached.replies_nested nested around⟩

/-- A poll of a nested run fails, and then the callback that had started that run quits. -/
def failedInside : List PumpEvent :=
  [.entered, .answered .done, .entered, .answered .created, .answered .done, .answered .done,
    .answered .done, .answered .done, .answered .done, .answered (.worked false),
    .answered (.workedUntil false none), .answered (.worked false),
    .answered (.failed .notPermitted), .answered .done, .answered .done, .answered .done,
    .answered .done, .answered .done, .answered .done, .answered .done, .quit,
    .answered (.worked true), .answered .done, .answered .done]

theorem Execution.run_outcome_failedInside :
    ∃ leaving inside entry, (replayed failedInside).1 = leaving :: (inside ++ [entry]) ∧
      Spans entry inside leaving ∧ leaving.before.request? = some (.leave .finished) ∧
      (∃ move ∈ inside, move.before.request? = some (.leave (.failed (.poll .notPermitted)))) ∧
      (∃ reply ∈ replies 1 inside, reply.request.isWork = true ∧ reply.running = false) ∧
      ∀ context timeout running,
        (⟨.poll context timeout, .failed .notPermitted, running⟩ : Reply) ∉ replies 1 inside := by
  have split : (replayed failedInside).1 = [] ++ (replayed failedInside).1.get ⟨0, by decide⟩ ::
      ((replayed failedInside).1.tail.take 22 ++
        [(replayed failedInside).1.get ⟨23, by decide⟩]) := rfl
  have spans : Spans ((replayed failedInside).1.get ⟨23, by decide⟩)
      ((replayed failedInside).1.tail.take 22)
      ((replayed failedInside).1.get ⟨0, by decide⟩) := ⟨by decide, by decide, by decide⟩
  have execution := Execution.of_replayed failedInside
  rw [split] at execution
  obtain ⟨outcome, leaves, explained, -⟩ := Execution.run_outcome execution spans
  have finishes : ((replayed failedInside).1.get ⟨0, by decide⟩).before.request? =
      some (.leave .finished) := by decide
  cases leaves.symm.trans finishes
  refine ⟨_, _, _, split, spans, finishes, by decide, (explained rfl).finished.mp rfl,
    fun context timeout running member => ?_⟩
  cases ((explained rfl).poll _).mpr ⟨context, timeout, running, member⟩

end MessagePump

/-
This file compares what a callback is told with what its watch asks for.

A poll learns from its wait what is ready, and then calls one callback after the other. The system
reports of a descriptor only what its registration asks for, and the registration asks for what the
watch asks for, so at the wait the two agree. But until its turn comes a watch can be given another
interest, by a callback before it or by what that has called, and the readiness stays what it was.

Tokens are never used again, so as long as a watch is there its interest is the one of the latest
rewatch since the wait, or still the one of the wait; `latestInterest` says which.
-/

import MessagePump.Proofs.Dispatching
import MessagePump.Proofs.InterestAgreement

namespace MessagePump

/-! ### What a watch asks for -/

/-- Whether a readiness tells something, and of the two directions only what is asked for. -/
def Readiness.suits (readiness : Readiness) (interest : Interest) : Bool :=
  (!readiness.readable || interest.read) && (!readiness.writable || interest.write) &&
    !readiness.isEmpty

/-- The conditions of a registration that are met suit its interest. -/
theorem Readiness.suits_ofFlags (conditions : EventFlags) (interest : Interest)
    (some : (conditions.mask interest.flags).any = true) :
    (ofFlags (conditions.mask interest.flags)).suits interest = true := by
  obtain ⟨input, output, error, hangup, peerHangup⟩ := conditions
  obtain ⟨read, write⟩ := interest
  revert some
  revert input output error hangup peerHangup read write
  decide

namespace InterestList

/-- Each event of a wait tells the conditions of a registration that are met. -/
theorem mem_harvest {list : InterestList} {conditions : Source → EventFlags} {room : Nat}
    {sources : List Source} {event : Event}
    (member : event ∈ (list.harvest conditions room sources).events) :
    ∃ registration ∈ list.registrations, registration.token = event.token ∧
      event.flags = met conditions registration ∧ (met conditions registration).any = true := by
  induction sources generalizing room with
  | nil => cases room <;> cases member
  | cons source sources inductionHypothesis =>
    cases room with
    | zero => cases member
    | succ room =>
      unfold harvest at member
      split at member
      · exact inductionHypothesis member
      · next registration registered =>
        dsimp only at member
        split at member
        · next some =>
          rcases List.mem_cons.mp member with rfl | member
          · exact ⟨registration, List.mem_of_find?_eq_some registered, rfl, rfl, some⟩
          · exact inductionHypothesis member
        · exact inductionHypothesis member

end InterestList

theorem mem_natives {events : List Event} {entry : Token × Readiness}
    (member : entry ∈ natives events) :
    ∃ event ∈ events, event.token ≠ wakeToken ∧ entry = (event.token, .ofFlags event.flags) := by
  obtain ⟨event, reported, rfl⟩ := List.mem_map.mp member
  obtain ⟨reported, native⟩ := List.mem_filter.mp reported
  exact ⟨event, reported, of_decide_eq_true native, rfl⟩

/-! ### Turns -/

/-- The watch whose interest a rewatch has changed between two contexts, with the new interest. -/
def Context.amended? (before after : Context) : Option (Token × Interest) :=
  match before.tasks, after.tasks with
  | .modifying token _ interest :: _, .ended .changed :: _ => some (token, interest)
  | _, _ => none

theorem Context.amended?_eq_none {before : Context} (after : Context)
    (other : ∀ stage, before.tasks.head? = some stage → stage.holdsTable = false) :
    before.amended? after = none := by
  unfold amended?
  split
  · next tasks _ => cases other _ (congrArg List.head? tasks)
  · rfl

theorem Context.amended?_self (context : Context) : context.amended? context = none := by
  unfold amended?
  split
  · next tasks same => cases tasks.symm.trans same
  · rfl

namespace Turn

/-- The callback that a turn starts. -/
def starts? (turn : Turn) : Option Activation :=
  match turn.event with
  | .answered answer =>
    ContextTransition.starts? ⟨turn.before.context, .answered answer, turn.after.context⟩
  | _ => none

/-- The watch that is rewatched with a turn, once the system has accepted its new interest. -/
def amends? (turn : Turn) : Option (Token × Interest) :=
  turn.before.context.amended? turn.after.context

/-- A turn is a wait to which the system reports some events. -/
structure Reports (poller : PollerId) (turn : Turn) (events : List Event) : Prop where
  served : turn.event = .served
  answered : ∃ timeout rest kernel, turn.before.context.tasks = .waiting timeout :: rest ∧
    turn.before.kernel.respond? poller
      (.wait turn.before.context.maxEvents (waitMillis timeout)) = some (.events events, kernel)

variable {poller : PollerId} {turn : Turn} {events : List Event}

theorem Reports.amends? (reports : turn.Reports poller events) : turn.amends? = none := by
  obtain ⟨timeout, rest, kernel, tasks, -⟩ := reports.answered
  refine Context.amended?_eq_none _ fun stage top => ?_
  rw [tasks] at top
  exact Option.some.inj top ▸ rfl

/-- What is reported is what the registrations of the poller ask for. -/
theorem Reports.registered (reports : turn.Reports poller events) {event : Event}
    (member : event ∈ events) :
    ∃ registration ∈ turn.before.kernel.registrations poller, registration.token = event.token ∧
      event.flags = InterestList.met (turn.before.kernel.conditions poller) registration ∧
      (InterestList.met (turn.before.kernel.conditions poller) registration).any = true := by
  obtain ⟨timeout, rest, kernel, -, responds⟩ := reports.answered
  cases Kernel.respond?_some responds with
  | waited => exact InterestList.mem_harvest member

end Turn

/-- The interest of a watch that is still there after some turns, the latest first, given the one it
had before them. -/
def latestInterest (since : List Turn) (token : Token) (interest : Interest) : Interest :=
  ((since.filterMap Turn.amends?).lookup token).getD interest

/-! ### Turns as transitions of the context -/

namespace Wired

variable {poller : PollerId} {wired next : Wired}

/-- An answer is a transition of the context, whatever the system is then. -/
theorem answer?_accepted {asked : Wired} {answer : ContextAnswer}
    (answered : asked.answer? answer = some next) (same : asked.context = wired.context) :
    Context.machine.after? wired.context (.answered answer) = some next.context := by
  obtain ⟨advanced, moved, rfl⟩ := Option.map_eq_some_iff.mp answered
  exact Option.map_eq_some_iff.mpr ⟨advanced, same ▸ moved, rfl⟩

/-- An event leaves the context as it is or is a transition of it. -/
theorem after?_accepted {event : SessionEvent} (possible : wired.after? poller event = some next) :
    next.context = wired.context ∨
      ∃ transition, Context.machine.after? wired.context transition = some next.context := by
  have idle : ∀ {idle : Wired} {answer : ContextAnswer}, wired.idle? poller = some idle →
      idle.answer? answer = some next →
      ∃ transition, Context.machine.after? wired.context transition = some next.context := by
    intro idle answer nothing answered
    obtain ⟨timeout, rest, kernel, -, -, rfl⟩ := idle?_some nothing
    exact ⟨_, answer?_accepted answered rfl⟩
  cases event with
  | called call =>
    obtain ⟨yields, same⟩ := Option.ite_none_right_eq_some.mp possible
    cases same
    exact Or.inr ⟨.called call, if_pos yields⟩
  | answered answer =>
    exact Or.inr ⟨_, answer?_accepted (Option.ite_none_left_eq_some.mp possible).2 rfl⟩
  | served =>
    obtain ⟨request, asked, served⟩ := Option.bind_eq_some_iff.mp possible
    obtain ⟨found, responds, moved⟩ := Option.bind_eq_some_iff.mp served
    split at moved
    · cases moved
      exact Or.inl rfl
    · exact Or.inr ⟨_, answer?_accepted moved rfl⟩
  | interrupted =>
    obtain ⟨_, nothing, answered⟩ := Option.bind_eq_some_iff.mp possible
    exact Or.inr (idle nothing answered)
  | timedOut =>
    obtain ⟨-, possible⟩ := Option.ite_none_right_eq_some.mp possible
    obtain ⟨_, nothing, answered⟩ := Option.bind_eq_some_iff.mp possible
    exact Or.inr (idle nothing answered)
  | _ =>
    cases after?_some possible
    all_goals exact Or.inl rfl

end Wired

/-- What happens to the context in a session is one of its histories. -/
theorem Session.context_history {poller : PollerId} {history : List Turn} {wired : Wired}
    (session : Session poller history wired) :
    ∃ capacity past, Context.History capacity past wired.context := by
  induction session with
  | start => exact ⟨_, _, .start ()⟩
  | step session possible inductionHypothesis =>
    obtain ⟨capacity, past, held⟩ := inductionHypothesis
    rcases Wired.after?_accepted possible with same | ⟨transition, accepted⟩
    · exact ⟨capacity, past, same ▸ held⟩
    · exact ⟨capacity, _, held.step accepted⟩

/-! ### Interests -/

/-- Taking a callback out, or putting one back, leaves all interests as they are. -/
theorem WatchTable.interest_recall (table : WatchTable) (token other : Token)
    (callback : Option CallbackId) :
    ((table.update other fun watch => { watch with callback }).find? token).map Watch.interest =
      (table.find? token).map Watch.interest := by
  rw [find?_update]
  split
  · rw [Option.map_map]
    rfl
  · rfl

namespace Context

variable {context next : Context} {token : Token}

/-- Of a watch that has been there: it is gone, or it has the interest of the rewatch in between, if
there was one, and otherwise the interest that it had. -/
def KeepsInterest (context next : Context) (token : Token) : Prop :=
  next.interest? token = none ∨ next.interest? token = (context.interest? token).map
    ((context.amended? next).toList.lookup token).getD

theorem KeepsInterest.of_same (none : context.amended? next = none)
    (same : next.interest? token = context.interest? token) : context.KeepsInterest next token := by
  refine Or.inr ?_
  rw [none, same]
  exact Option.map_id'.symm

theorem Step.keepsInterest {stage : ContextStage} {rest : List ContextStage}
    {answer : ContextAnswer} (step : context.Step rest stage answer next)
    (tasks : context.tasks = stage :: rest) (older : token < context.bound) :
    context.KeepsInterest next token := by
  have quiet : stage.holdsTable = false → context.amended? next = none := by
    intro other
    refine amended?_eq_none next fun top same => ?_
    rw [tasks] at same
    exact Option.some.inj same ▸ other
  cases step with
  | record added descriptor interest callback free =>
    -- The token of a watch that enters the table is the bound, so it is another one.
    rw [bound_recording tasks] at older
    refine .of_same (quiet rfl) ?_
    rw [Context.interest?, Context.interest?, WatchTable.find?_insert, if_neg (Nat.ne_of_lt older)]
  | modify changed descriptor interest =>
    right
    rw [amended?, tasks, Option.toList_some, Context.interest?, Context.interest?,
      WatchTable.find?_update, List.lookup_cons, Option.map_map]
    by_cases same : token = changed
    · rw [if_pos same, same, beq_self_eq_true]
      cases context.table.find? changed <;> rfl
    · rw [if_neg same, beq_false_of_ne same]
      rfl
  | remove gone watch free present =>
    by_cases same : token = gone
    · left
      rw [Context.interest?, same, WatchTable.find?_remove_self, Option.map_none]
    · refine .of_same (quiet rfl) ?_
      rw [Context.interest?, Context.interest?, WatchTable.find?_remove_other _ same]
  | take other => exact .of_same (quiet rfl) (context.table.interest_recall token other none)
  | replace other callback =>
    exact .of_same (quiet rfl) (context.table.interest_recall token other (some callback))
  | modifyFailed => exact .of_same (by rw [amended?, tasks]) rfl
  | conflict stage taken =>
    refine .of_same (quiet ?_) rfl
    rcases taken with ⟨takes, -⟩ | ⟨takes, -⟩ <;> cases stage <;> first | rfl | cases takes
  | _ => exact .of_same (quiet rfl) rfl

end Context

theorem latestInterest_cons (turn : Turn) (since : List Turn) (token : Token)
    (interest : Interest) : latestInterest (turn :: since) token interest =
      (turn.amends?.toList.lookup token).getD (latestInterest since token interest) := by
  rw [latestInterest, Machine.filterMap_cons_toList, List.lookup_append, latestInterest]
  cases turn.amends?.toList.lookup token <;> rfl

/-- Without a rewatch the interest is the one that it was. -/
theorem latestInterest_of_none {since : List Turn} {token : Token}
    (none : ∀ turn ∈ since, ∀ interest, turn.amends? ≠ some (token, interest))
    (interest : Interest) : latestInterest since token interest = interest := by
  induction since with
  | nil => rfl
  | cons turn since inductionHypothesis =>
    obtain ⟨first, others⟩ := List.forall_mem_cons.mp none
    rw [latestInterest_cons, inductionHypothesis others]
    cases amends : turn.amends? with
    | none => rfl
    | some entry =>
      have other : token ≠ entry.1 := fun same => first entry.2 (same ▸ amends)
      rw [Option.toList_some, List.lookup_cons, beq_false_of_ne other]
      rfl

namespace Session

variable {poller : PollerId} {wired : Wired} {token : Token} {interest : Interest}

theorem keepsInterest {earlier : List Turn} {event : SessionEvent} {next : Wired}
    (session : Session poller earlier wired) (possible : wired.after? poller event = some next)
    (older : token < wired.context.bound) :
    token < next.context.bound ∧ wired.context.KeepsInterest next.context token := by
  obtain ⟨capacity, past, history⟩ := session.context_history
  rcases Wired.after?_accepted possible with same | ⟨transition, accepted⟩
  · rw [same]
    exact ⟨older, .of_same (Context.amended?_self _) rfl⟩
  · refine ⟨Nat.lt_of_lt_of_le older (Context.History.grows history accepted), ?_⟩
    cases transition with
    | called call =>
      obtain ⟨yields, begun⟩ := Context.machine_called accepted
      refine .of_same (Context.amended?_eq_none _ fun stage top => ?_) ?_
      · have outside := session.orderly.callsOut yields stage (List.mem_of_mem_head? top)
        exact (ContextStage.free_of_callsOut outside).table
      · rw [begun, Context.begin_eq, Context.interest?, Context.interest?]
    | answered answer =>
      obtain ⟨stage, rest, tasks, step⟩ := Context.machine_answered accepted
      exact step.keepsInterest tasks older

/-- A watch that was there at some turn has been removed since, or it has the interest of its latest
rewatch. -/
theorem interest_since {since past : List Turn} {turn : Turn}
    (session : Session poller (since ++ turn :: past) wired) (still : turn.amends? = none)
    (older : token < turn.before.context.bound)
    (present : turn.before.context.interest? token = some interest) :
    token < wired.context.bound ∧ (wired.context.interest? token = none ∨
      wired.context.interest? token = some (latestInterest since token interest)) := by
  have on : ∀ {since : List Turn} {earlier : List Turn} {before : Wired} {event : SessionEvent}
      {next : Wired}, Session poller earlier before → before.after? poller event = some next →
      token < before.context.bound → (before.context.interest? token = none ∨
        before.context.interest? token = some (latestInterest since token interest)) →
      token < next.context.bound ∧ (next.context.interest? token = none ∨
        next.context.interest? token =
          some (latestInterest (⟨before, event, next⟩ :: since) token interest)) := by
    intro since earlier before event next session possible older held
    obtain ⟨older, keeps⟩ := session.keepsInterest possible older
    refine ⟨older, ?_⟩
    rcases keeps with gone | same
    · exact Or.inl gone
    · rw [same, latestInterest_cons]
      exact held.imp (congrArg _) (congrArg (Option.map _))
  -- By induction on the turns since then; that the token stays below the bound is what excludes
  -- another watch under it.
  have first : turn.before.context.interest? token = some (latestInterest [] token interest) :=
    present
  induction since generalizing wired with
  | nil =>
    cases session with
    | step shorter possible =>
      obtain ⟨older, held⟩ := on shorter possible older (Or.inr first)
      rw [latestInterest_cons, still] at held
      exact ⟨older, held⟩
  | cons other since inductionHypothesis =>
    cases session with
    | step shorter possible =>
      obtain ⟨older, held⟩ := inductionHypothesis shorter
      exact on shorter possible older held

end Session

/-! ### From the wait to the call -/

namespace ContextStage

/-- What a poll has been told and has not given its turn yet. -/
def toTell : ContextStage → List (Token × Readiness)
  | .collecting events ready => ready ++ natives events
  | stage => stage.pending?.getD []

theorem afterDelete_toTell (watch : Watch) (result : ContextResult) :
    (afterDelete watch result).toTell = [] := by
  rcases afterDelete_cases watch result with ⟨-, same⟩ | ⟨callback, -, same⟩ <;> rw [same] <;> rfl

end ContextStage

theorem ContextCall.first_toTell (nextToken : Token) (call : ContextCall) :
    (call.first nextToken).toTell = [] := by
  generalize opened : call.first nextToken = stage
  have opens := opened ▸ call.first_opens nextToken
  cases opens <;> rfl

/-- A poll hears of events by its wait only. -/
theorem Context.Step.toTell {context next : Context} {rest : List ContextStage}
    {stage moved : ContextStage} {answer : ContextAnswer}
    (step : context.Step rest stage answer next) (after : next.tasks = moved :: rest)
    {entry : Token × Readiness} (tells : entry ∈ moved.toTell) :
    entry ∈ stage.toTell ∨ ∃ timeout events, stage = .waiting timeout ∧
      answer = .events events ∧ entry ∈ natives events := by
  cases step with
  | report timeout events =>
    cases after
    exact Or.inr ⟨timeout, events, rfl, rfl, tells⟩
  | drain event events ready wake =>
    cases after
    left
    change entry ∈ ready ++ natives ([event] ++ events)
    rw [natives_append]
    rcases List.mem_append.mp tells with told | tells
    · exact List.mem_append_left _ told
    · exact List.mem_append_right _ (List.mem_append_right _ tells)
  | gather event events ready native =>
    cases after
    left
    have first : natives [event] = [(event.token, .ofFlags event.flags)] :=
      natives_native native []
    change entry ∈ ready ++ natives ([event] ++ events)
    rwa [natives_append, first, ← List.append_assoc]
  | collect ready =>
    cases after
    exact Or.inl (List.mem_append_left _ tells)
  | take | skip =>
    cases after
    exact Or.inl (List.mem_cons_of_mem _ tells)
  | callReturned | replace | replaceNone | discardNext =>
    cases after
    exact Or.inl tells
  | delete watch | deleteFailed watch cause =>
    cases after
    rw [ContextStage.afterDelete_toTell] at tells
    cases tells
  | finish => exact absurd (congrArg List.length after) (Nat.ne_of_lt (Nat.lt_succ_self _))
  | _ =>
    cases after
    cases tells

/-- What an operation has been told has been reported to a wait of its own. -/
def Operation.Learns (poller : PollerId) (operation : Operation) (entry : Token × Readiness) :
    Prop :=
  ∃ wait ∈ operation.own, ∃ events, wait.Reports poller events ∧ entry ∈ natives events

theorem Operation.learns_followed (poller : PollerId) : Followed poller (fun _ => True)
    fun _ operation stage => ∀ entry ∈ stage.toTell, operation.Learns poller entry where
  fresh := by
    intro history wired call _ _ _ entry tells
    rw [ContextCall.first_toTell] at tells
    cases tells
  own := by
    intro history wired operation stage rest event next moved _ _ _ tasks learns happens own after
      entry tells
    have later : entry ∈ stage.toTell → Operation.Learns poller { operation with
        own := { before := wired, event, after := next } :: operation.own } entry := by
      intro tells
      obtain ⟨wait, member, reported⟩ := learns entry tells
      exact ⟨wait, List.mem_cons_of_mem _ member, reported⟩
    cases happens with
    | answered tasks' asks step =>
      cases tasks.symm.trans tasks'
      rcases step.toTell after tells with tells | ⟨timeout, events, rfl, -, -⟩
      · exact later tells
      · cases asks
    | served tasks' responds found step =>
      cases tasks.symm.trans tasks'
      rcases step.toTell after tells with tells | ⟨timeout, events, rfl, rfl, reported⟩
      · exact later tells
      · exact ⟨_, List.mem_cons_self, events, ⟨rfl, timeout, rest, _, tasks, responds⟩, reported⟩
    | waits tasks' =>
      cases tasks.symm.trans tasks'
      cases tasks.symm.trans after
      exact later tells
    | interrupted tasks' | timedOut tasks' =>
      cases tasks.symm.trans tasks'
      cases after
      cases tells
    | _ => cases own
  aside _ _ _ _ _ learns := learns

/-- A turn of an operation, with what has happened since and before: the operation was the innermost
one when it took it. -/
structure Operation.Took (operation : Operation) (history since : List Turn) (turn : Turn)
    (past : List Turn) : Prop where
  split : history = since ++ turn :: past
  innermost : ∃ older, turn :: older <:+ operation.own ∧
    (operations past).head? = some { operation with own := older }

theorem Operation.Took.later {operation other : Operation} {history since past : List Turn}
    {turn : Turn} (took : other.Took history since turn past) (latest : Turn)
    (call : other.call = operation.call) (start : other.start = operation.start)
    (own : other.own <:+ operation.own) :
    operation.Took (latest :: history) (latest :: since) turn past := by
  obtain ⟨older, suffix, innermost⟩ := took.innermost
  refine ⟨congrArg (List.cons latest) took.split, older, suffix.trans own, ?_⟩
  rw [innermost, call, start]

theorem exists_took {history : List Turn} {operation : Operation} {turn : Turn}
    (member : operation ∈ operations history) (own : turn ∈ operation.own) :
    ∃ since past, operation.Took history since turn past := by
  induction history generalizing operation with
  | nil => cases member
  | cons latest earlier inductionHypothesis =>
    have same : operation ∈ operations earlier →
        ∃ since past, operation.Took (latest :: earlier) since turn past := by
      intro member
      obtain ⟨since, past, took⟩ := inductionHypothesis member own
      exact ⟨_, past, took.later latest rfl rfl (List.suffix_refl _)⟩
    have moves : operation ∈ (operations earlier).modifyHead (fun operation =>
        { operation with own := latest :: operation.own }) →
        ∃ since past, operation.Took (latest :: earlier) since turn past := by
      intro member
      cases progress : operations earlier with
      | nil =>
        rw [progress] at member
        cases member
      | cons first others =>
        rw [progress] at same inductionHypothesis member
        rw [List.modifyHead_cons] at member
        rcases List.mem_cons.mp member with rfl | member
        · rcases List.mem_cons.mp own with rfl | own
          · exact ⟨[], earlier, rfl, first.own, List.suffix_refl _, by rw [progress]; rfl⟩
          · obtain ⟨since, past, took⟩ := inductionHypothesis List.mem_cons_self own
            exact ⟨_, past, took.later latest rfl rfl (List.suffix_cons _ _)⟩
        · exact same (List.mem_cons_of_mem _ member)
    unfold operations at member
    split at member
    · rcases List.mem_cons.mp member with rfl | member
      · cases own
      · exact same member
    all_goals first
      | exact same member
      | split at member
        · exact same (List.mem_of_mem_tail member)
        · exact moves member

/-! ### What callbacks are told -/

/-- What a callback is told when it is started, after some turns: `wait` is a turn of the poll that
starts it, `past` has happened before, and `since` after it. The readiness is what the system has
reported to this wait for a registration under the token of the watch. If by then no watched
descriptor had been closed, as the callers of `watch` have to see to, the readiness suits the
interest that the watch had at the wait. It may have been rewatched since; if it has not, the
readiness suits its interest now. -/
structure Told (poller : PollerId) (earlier : List Turn) (now : Context) (activation : Activation)
    (since : List Turn) (wait : Turn) (past : List Turn) : Prop where
  took : ∃ operation, (operations earlier).head? = some operation ∧
    operation.Took earlier since wait past
  reported : ∃ events, wait.Reports poller events ∧ activation.entry ∈ natives events
  registered : ∃ registration ∈ wait.before.kernel.registrations poller,
    registration.token = activation.token ∧
    (InterestList.met (wait.before.kernel.conditions poller) registration).any = true ∧
    activation.readiness =
      .ofFlags (InterestList.met (wait.before.kernel.conditions poller) registration)
  suited : (∀ turn ∈ past, turn.harmless = true) →
    ∃ interest, wait.before.context.interest? activation.token = some interest ∧
      activation.readiness.suits interest = true ∧
      now.interest? activation.token = some (latestInterest since activation.token interest)
  current : (∀ turn ∈ past, turn.harmless = true) →
    (∀ turn ∈ since, ∀ interest, turn.amends? ≠ some (activation.token, interest)) →
    ∃ interest, now.interest? activation.token = some interest ∧
      activation.readiness.suits interest = true

namespace Session

variable {poller : PollerId} {history : List Turn} {wired : Wired}

/-- The callback that a turn starts is that of a watch whose event has its turn. -/
theorem starting {turn : Turn} {earlier : List Turn} {activation : Activation}
    (session : Session poller earlier turn.before)
    (possible : turn.before.after? poller turn.event = some turn.after)
    (starts : turn.starts? = some activation) :
    (∃ ready rest, turn.before.context.tasks = .dispatching (activation.entry :: ready) :: rest) ∧
      turn.before.context.interest? activation.token ≠ none := by
  obtain ⟨before, event, after⟩ := turn
  cases event with
  | answered answer =>
    obtain ⟨-, answered⟩ := Option.ite_none_left_eq_some.mp possible
    have accepted := Wired.answer?_accepted answered rfl
    obtain ⟨capacity, past, history⟩ := session.context_history
    have start := (Context.History.starts?_eq history accepted).symm.trans starts
    obtain ⟨entry, turn, held⟩ := Option.bind_eq_some_iff.mp start
    obtain ⟨callback, held, rfl⟩ := Option.map_eq_some_iff.mp held
    refine ⟨Context.tasks_of_turn turn, fun gone => ?_⟩
    have absent : before.context.table.slot? entry.1 = none := by
      rw [← Option.isNone_iff_eq_none, ← Option.not_isSome, ← Context.interest?_isSome, gone]
      rfl
    rw [absent] at held
    cases held
  | _ => cases starts

/-- At a wait the registration of a token is that of its watch. -/
theorem registered_interest (session : Session poller history wired)
    (harmless : ∀ turn ∈ history, turn.harmless = true) {timeout : Option Duration}
    {rest : List ContextStage} (tasks : wired.context.tasks = .waiting timeout :: rest)
    {registration : Registration}
    (member : registration ∈ wired.kernel.registrations poller)
    (native : registration.token ≠ wakeToken) :
    registration.token < wired.context.bound ∧ ∃ interest,
      wired.context.interest? registration.token = some interest ∧
        registration.wanted = interest.flags := by
  obtain ⟨table, agrees⟩ := session.agrees harmless
  have settled := agrees.settled (by rw [tasks]; rfl)
  rw [agrees.lists.listed] at member
  rcases List.mem_cons.mp member with rfl | member
  · exact absurd rfl native
  · obtain ⟨⟨token, watch⟩, listed, rfl⟩ := List.mem_map.mp member
    refine ⟨?_, watch.interest, ?_, rfl⟩
    · rw [Context.bound_of_none tasks rfl]
      exact agrees.bounded token (List.mem_map_of_mem listed)
    · rw [Context.interest?, settled, Kernel.registrationOf,
        WatchTable.find?_of_mem agrees.lists.tokens listed, Option.map_some]

/-- What is reported of a watch that is still there later suits the interest that it had at the
wait, and its interest is that of its latest rewatch since, if there was one. -/
theorem suited_since {since past : List Turn} {wait : Turn} {events : List Event} {event : Event}
    (session : Session poller (since ++ wait :: past) wired)
    (harmless : ∀ turn ∈ past, turn.harmless = true) (reports : wait.Reports poller events)
    (member : event ∈ events) (native : event.token ≠ wakeToken)
    (present : wired.context.interest? event.token ≠ none) :
    ∃ interest, wait.before.context.interest? event.token = some interest ∧
      (Readiness.ofFlags event.flags).suits interest = true ∧
      wired.context.interest? event.token = some (latestInterest since event.token interest) := by
  obtain ⟨registration, registered, names, flags, met⟩ := reports.registered member
  obtain ⟨timeout, rest, kernel, waits, -⟩ := reports.answered
  obtain ⟨older, interest, held, wanted⟩ :=
    session.before.registered_interest harmless waits registered (names ▸ native)
  rw [names] at older held
  refine ⟨interest, held, ?_, ?_⟩
  · rw [flags, InterestList.met, wanted]
    exact Readiness.suits_ofFlags _ _ (wanted ▸ met)
  · obtain ⟨-, gone | now⟩ := session.interest_since reports.amends? older held
    · exact absurd gone present
    · exact now

/-- Every callback that is started is told what the wait of its poll has reported. -/
theorem told_by_own_wait (session : Session poller history wired) {later earlier : List Turn}
    {turn : Turn} {activation : Activation} (split : history = later ++ turn :: earlier)
    (starts : turn.starts? = some activation) :
    ∃ since wait past, Told poller earlier turn.before.context activation since wait past := by
  subst split
  have shorter := session.before
  obtain ⟨⟨ready, rest, tasks⟩, present⟩ := shorter.starting session.possible starts
  -- The event that has its turn is one that the poll has learnt from a wait of its own.
  obtain ⟨operation, others, progress, learns⟩ :=
    shorter.follow_top (Operation.learns_followed poller) (fun _ _ => trivial) tasks
  obtain ⟨wait, own, events, reports, reported⟩ := learns activation.entry List.mem_cons_self
  obtain ⟨since, past, took⟩ := exists_took (progress ▸ List.mem_cons_self) own
  obtain ⟨event, member, native, same⟩ := mem_natives reported
  obtain ⟨token, readiness⟩ := Prod.mk.inj same
  obtain ⟨registration, registered, names, flags, met⟩ := reports.registered member
  have suited : (∀ turn ∈ past, turn.harmless = true) →
      ∃ interest, wait.before.context.interest? activation.token = some interest ∧
        activation.readiness.suits interest = true ∧
        turn.before.context.interest? activation.token =
          some (latestInterest since activation.token interest) := by
    intro harmless
    rw [took.split] at shorter
    rw [token] at present ⊢
    rw [readiness]
    exact shorter.suited_since harmless reports member native present
  refine ⟨since, wait, past, ⟨operation, by rw [progress]; rfl, took⟩, ⟨events, reports, reported⟩,
    ⟨registration, registered, names.trans token.symm, met, readiness.trans (flags ▸ rfl)⟩,
    suited, fun harmless still => ?_⟩
  obtain ⟨interest, -, suits, now⟩ := suited harmless
  rw [latestInterest_of_none still] at now
  exact ⟨interest, now, suits⟩

end Session

/-! ### A readiness that is out of date -/

/-- Two event counters that both have something to read. -/
def readyCounters : List SystemCall := [.openFile (.counter 1), .openFile (.counter 1)]

/-- Both are watched for reading, and both are reported to one poll. The callback of the first
rewatches the second for writing, and then the callback of the second is started. -/
def rewatchedBetween : List SessionEvent :=
  [.called (.watch 0 .readable 7), .served, .answered .done, .answered .done,
    .called (.watch 1 .readable 8), .served, .answered .done, .answered .done,
    .called (.poll none), .answered .done, .served, .answered .done, .answered .done,
    .answered .done, .answered .done,
    .called (.rewatch 1 .writable), .answered .done, .served, .answered .done,
    .answered .done, .answered .done, .answered .done]

theorem Session.told_by_own_wait_rewatched :
    ∃ since wait past interest,
      Told 0 ((played readyCounters 64 rewatchedBetween).1.drop 1)
        ((played readyCounters 64 rewatchedBetween).1.get ⟨0, by decide⟩).before.context
        ⟨1, { readable := true }, 8⟩ since wait past ∧
      wait.before.context.interest? 1 = some interest ∧
      Readiness.suits { readable := true } interest = true ∧
      latestInterest since 1 interest = .writable := by
  have split : (played readyCounters 64 rewatchedBetween).1 =
      [] ++ (played readyCounters 64 rewatchedBetween).1.get ⟨0, by decide⟩ ::
        (played readyCounters 64 rewatchedBetween).1.drop 1 := rfl
  have harmless : ∀ turn ∈ (played readyCounters 64 rewatchedBetween).1.drop 1,
      turn.harmless = true := by decide
  have starts : ((played readyCounters 64 rewatchedBetween).1.get ⟨0, by decide⟩).starts? =
      some ⟨1, { readable := true }, 8⟩ := by decide
  have now : ((played readyCounters 64 rewatchedBetween).1.get
      ⟨0, by decide⟩).before.context.interest? 1 = some .writable := by decide
  obtain ⟨since, wait, past, told⟩ := Session.told_by_own_wait
    (.of_played readyCounters 64 rewatchedBetween rfl rfl) split starts
  obtain ⟨operation, -, took⟩ := told.took
  rw [took.split] at harmless
  obtain ⟨interest, held, suits, latest⟩ := told.suited fun turn member =>
    harmless turn (List.mem_append_right since (List.mem_cons_of_mem wait member))
  exact ⟨since, wait, past, interest, told, held, suits, Option.some.inj (latest.symm.trans now)⟩

/-- It is not so that a callback is told only what its watch asks for. The second callback is told
that its descriptor is readable, and its watch asks for writing only. -/
theorem Session.told_out_of_date :
    ((played readyCounters 64 rewatchedBetween).1.filterMap fun turn =>
        turn.starts?.map fun activation =>
          (activation, turn.before.context.interest? activation.token)) =
        [(⟨1, { readable := true }, 8⟩, some .writable),
          (⟨0, { readable := true }, 7⟩, some .readable)] ∧
      Readiness.suits { readable := true } .writable = false := by
  decide

end MessagePump

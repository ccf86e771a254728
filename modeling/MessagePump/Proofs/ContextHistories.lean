/-
This file makes a machine of a context and says what its steps do to the watches and callbacks.

The system is part of the surroundings here: it may answer any request in any way that fits, so what
holds of all histories holds whatever is watched, whatever the system reports or refuses, and
whoever else uses the descriptors. `Context.Handles` sums up the steps: besides those that leave the
table alone and deal with no callback there are twelve, and each of them passes one callback on.

Tokens are handed out in order. `Context.Numbered` says so at every moment: what is in the table or
was taken out of it for a call has a token below `Context.bound`, and the next watch gets that one.
-/

import MessagePump.Proofs.ContextSteps
import MessagePump.Proofs.InterestLists
import MessagePump.Proofs.Machines

namespace MessagePump

/-! ### The machine -/

/-- A context as a machine. Operations are called where code outside the context has the thread. -/
def Context.machine : Machine Context ContextCall ContextAnswer ContextStage where
  tasks := Context.tasks
  begin? context call := if context.yields then some (context.begin call) else none
  advance? context answer := (context.advance? answer).map Prod.fst
  begins := by
    intro context next call begun
    obtain ⟨-, same⟩ := Option.ite_none_right_eq_some.mp begun
    exact ⟨_, (congrArg Context.tasks ((Option.some.inj same).symm.trans (context.begin_eq call)))⟩
  advances := by
    intro context next answer moved
    obtain ⟨⟨next, said⟩, advanced, rfl⟩ := Option.map_eq_some_iff.mp moved
    obtain ⟨stage, rest, tasks, step⟩ := Context.advance?_some advanced
    refine ⟨stage, rest, tasks, ?_⟩
    rcases step.tasks_cases with ⟨moved, after⟩ | ⟨-, -, rfl⟩
    · exact Or.inr ⟨moved, after⟩
    · exact Or.inl rfl

/-- An event of a context with the context before and after it. -/
abbrev ContextTransition := Transition Context ContextCall ContextAnswer

/-- An operation on a context, followed from its call on. -/
abbrev ContextCourse := Course Context ContextCall ContextAnswer

namespace Context

/-- The histories of a context whose buffer has room for so many events. -/
abbrev History (capacity : Nat) : List ContextTransition → Context → Prop :=
  machine.History { capacity }

variable {capacity : Nat} {past : List ContextTransition} {context : Context}

theorem machine_called {next : Context} {call : ContextCall}
    (accepted : machine.after? context (.called call) = some next) :
    context.yields = true ∧ next = context.begin call := by
  obtain ⟨yields, same⟩ := Option.ite_none_right_eq_some.mp accepted
  exact ⟨yields, (Option.some.inj same).symm⟩

theorem machine_answered {next : Context} {answer : ContextAnswer}
    (accepted : machine.after? context (.answered answer) = some next) :
    ∃ stage rest, context.tasks = stage :: rest ∧ context.Step rest stage answer next := by
  obtain ⟨⟨next, said⟩, advanced, rfl⟩ := Option.map_eq_some_iff.mp accepted
  exact advance?_some advanced

/-- The history of a context with room for four events to which some events happen, as far as they
are accepted. -/
def played (events : List (MachineEvent ContextCall ContextAnswer)) :
    List ContextTransition × Context :=
  machine.replayed { capacity := 4 } events

theorem History.of_played (events : List (MachineEvent ContextCall ContextAnswer)) :
    History 4 (played events).1 (played events).2 :=
  Machine.History.of_replayed machine { capacity := 4 } events

/-- What holds in the beginning, and is kept by every call where outside code has the thread and by
every step of the innermost operation, holds in all histories. -/
@[elab_as_elim]
theorem History.induct {motive : List ContextTransition → Context → Prop}
    (start : motive [] { capacity })
    (called : ∀ past context call, History capacity past context → context.yields = true →
      motive past context →
      motive ({ before := context, event := .called call, after := context.begin call } :: past)
        (context.begin call))
    (answered : ∀ past context stage rest answer next, History capacity past context →
      context.tasks = stage :: rest → context.Step rest stage answer next → motive past context →
      motive ({ before := context, event := .answered answer, after := next } :: past) next)
    (history : History capacity past context) : motive past context := by
  induction history with
  | start => exact start
  | @step past state event next history accepted inductionHypothesis =>
    cases event with
    | called call =>
      obtain ⟨yields, rfl⟩ := machine_called accepted
      exact called past state call history yields inductionHypothesis
    | answered answer =>
      obtain ⟨stage, rest, tasks, step⟩ := machine_answered accepted
      exact answered past state stage rest answer next history tasks step inductionHypothesis

/-- The operations of a history never get in each other's way. -/
theorem History.orderly (history : History capacity past context) : context.Orderly := by
  refine history.induct (motive := fun _ context => context.Orderly) (.fresh capacity) ?_ ?_
  · intro _ context call _ yields orderly
    exact orderly.begin yields call
  · intro _ context stage rest answer next _ tasks step orderly
    exact orderly.step tasks step

end Context

/-! ### Callbacks in the hands of operations -/

namespace ContextStage

/-- The callback that an operation has at a stage. -/
def owned? : ContextStage → Option CallbackId
  | .adding _ _ _ callback | .recording _ _ _ callback | .calling _ _ callback _
  | .replacing _ callback _ | .discarding callback _ => some callback
  | .deleting watch => watch.callback
  | _ => none

/-- The watch whose callback has been taken out of the table and not been put back yet. -/
def carries? : ContextStage → Option (Token × CallbackId)
  | .calling token _ callback _ | .replacing token callback _ => some (token, callback)
  | _ => none

/-- The callback that is being destroyed. -/
def destroys? : ContextStage → Option CallbackId
  | .discarding callback _ => some callback
  | _ => none

/-- The callback of a watch that is not in the table yet. -/
def brings? : ContextStage → Option CallbackId
  | .adding _ _ _ callback | .recording _ _ _ callback => some callback
  | _ => none

/-- The watch that has been accepted by the system and is not in the table yet. -/
def records? : ContextStage → Option (Token × CallbackId)
  | .recording token _ _ callback => some (token, callback)
  | _ => none

/-- The reported watch whose turn it is. -/
def turn? : ContextStage → Option (Token × Readiness)
  | .dispatching (entry :: _) => some entry
  | _ => none

/-- The watch that is to be removed. -/
def targets? : ContextStage → Option Token
  | .removing token => some token
  | _ => none

/-- A watch on its way gets the next token, or has got the latest one. -/
def Latest (nextToken : Token) : ContextStage → Prop
  | .adding token .. => token = nextToken
  | .recording token .. => token + 1 = nextToken
  | _ => True

/-- An operation that deals with no callback is none of those above. -/
theorem idle {stage : ContextStage} (none : stage.owned? = none) :
    stage.carries? = .none ∧ stage.destroys? = .none ∧ stage.brings? = .none ∧
      stage.records? = .none := by
  cases stage <;> first | exact ⟨rfl, rfl, rfl, rfl⟩ | cases none

theorem latest_of_idle {stage : ContextStage} (none : stage.owned? = none) (nextToken : Token) :
    stage.Latest nextToken := by
  cases stage <;> first | exact trivial | cases none

/-- Where outside code has been called, a callback runs or is destroyed, and no watch is on its
way. -/
theorem outside {stage : ContextStage} (outside : stage.callsOut = true) (nextToken : Token) :
    stage.brings? = none ∧ stage.records? = none ∧ stage.Latest nextToken := by
  cases stage <;> first | exact ⟨rfl, rfl, trivial⟩ | cases outside

/-- After the deletion the operation has the callback that the watch held. -/
theorem afterDelete_owned? (watch : Watch) (result : ContextResult) :
    (afterDelete watch result).owned? = watch.callback ∧
      (afterDelete watch result).carries? = none ∧ (afterDelete watch result).brings? = none ∧
      (afterDelete watch result).records? = none ∧
      ∀ nextToken, (afterDelete watch result).Latest nextToken := by
  rcases afterDelete_cases watch result with ⟨none, same⟩ | ⟨callback, some, same⟩
  · rw [same, none]
    exact ⟨rfl, rfl, rfl, rfl, fun _ => trivial⟩
  · rw [same, some]
    exact ⟨rfl, rfl, rfl, rfl, fun _ => trivial⟩

end ContextStage

/-- The callback that a call hands over. -/
def ContextCall.gives? : ContextCall → Option CallbackId
  | .watch _ _ callback => some callback
  | _ => none

theorem ContextCall.first_owned? (nextToken : Token) (call : ContextCall) :
    (call.first nextToken).owned? = call.gives? ∧ (call.first nextToken).carries? = none ∧
      (call.first nextToken).records? = none ∧ (call.first nextToken).Latest nextToken := by
  generalize opened : call.first nextToken = stage
  have opens := opened ▸ call.first_opens nextToken
  cases opens <;> exact ⟨rfl, rfl, rfl, by first | exact trivial | rfl⟩

theorem ContextCall.first_brings? (nextToken : Token) (call : ContextCall)
    (callback : CallbackId) : (call.first nextToken).brings?.toList.count callback ≤
      call.gives?.toList.count callback := by
  generalize opened : call.first nextToken = stage
  have opens := opened ▸ call.first_opens nextToken
  cases opens with
  | add => exact Nat.le_refl _
  | refuseWatch | refuseRewatch | find | remove | prepare => exact Nat.zero_le _

namespace Context

/-! ### What steps do to watches and callbacks -/

/-- What a step does to the table, to the next token, and to the callback that the operation has:
where it stood, what the answer was, and where it stands now, if it has not ended. -/
inductive Handles (context next : Context) :
    ContextStage → ContextAnswer → Option ContextStage → Prop
  | accepted (token : Token) (descriptor : Descriptor) (interest : Interest)
      (callback : CallbackId) (table : next.table = context.table)
      (nextToken : next.nextToken = token + 1) :
    Handles context next (.adding token descriptor interest callback) .done
      (some (.recording token descriptor interest callback))
  | refused (token : Token) (descriptor : Descriptor) (interest : Interest)
      (callback : CallbackId) (cause : IoError) (table : next.table = context.table)
      (nextToken : next.nextToken = context.nextToken) :
    Handles context next (.adding token descriptor interest callback) (.failed cause)
      (some (.discarding callback (.finish (.failed cause))))
  | recorded (token : Token) (descriptor : Descriptor) (interest : Interest)
      (callback : CallbackId)
      (table : next.table =
        context.table.insert token { descriptor, interest, callback := some callback })
      (nextToken : next.nextToken = context.nextToken) :
    Handles context next (.recording token descriptor interest callback) .done
      (some (.ended (.watched token)))
  | amended (token : Token) (descriptor : Descriptor) (interest : Interest)
      (table : next.table = context.table.update token fun watch => { watch with interest })
      (nextToken : next.nextToken = context.nextToken) :
    Handles context next (.modifying token descriptor interest) .done (some (.ended .changed))
  | removed (token : Token) (watch : Watch) (present : context.table.find? token = some watch)
      (table : next.table = context.table.remove token)
      (nextToken : next.nextToken = context.nextToken) :
    Handles context next (.removing token) .done (some (.deleting watch))
  | deleted (watch : Watch) (answer : ContextAnswer) (result : ContextResult)
      (table : next.table = context.table) (nextToken : next.nextToken = context.nextToken) :
    Handles context next (.deleting watch) answer (some (.afterDelete watch result))
  | taken (token : Token) (readiness : Readiness) (ready : List (Token × Readiness))
      (callback : CallbackId) (watch : Watch)
      (present : context.table.find? token = some watch) (holds : watch.callback = some callback)
      (table : next.table =
        context.table.update token fun watch => { watch with callback := none })
      (nextToken : next.nextToken = context.nextToken) :
    Handles context next (.dispatching ((token, readiness) :: ready)) .done
      (some (.calling token readiness callback ready))
  | returned (token : Token) (readiness : Readiness) (callback : CallbackId)
      (ready : List (Token × Readiness)) (table : next.table = context.table)
      (nextToken : next.nextToken = context.nextToken) :
    Handles context next (.calling token readiness callback ready) .done
      (some (.replacing token callback ready))
  | panicked (token : Token) (readiness : Readiness) (callback : CallbackId)
      (ready : List (Token × Readiness)) (message : String) (table : next.table = context.table)
      (nextToken : next.nextToken = context.nextToken) :
    Handles context next (.calling token readiness callback ready) (.panicked message)
      (some (.discarding callback (.finish (.panicked message))))
  | replaced (token : Token) (callback : CallbackId) (ready : List (Token × Readiness))
      (watch : Watch) (present : context.table.find? token = some watch)
      (table : next.table =
        context.table.update token fun watch => { watch with callback := some callback })
      (nextToken : next.nextToken = context.nextToken) :
    Handles context next (.replacing token callback ready) .done (some (.dispatching ready))
  | orphaned (token : Token) (callback : CallbackId) (ready : List (Token × Readiness))
      (absent : context.table.find? token = none) (table : next.table = context.table)
      (nextToken : next.nextToken = context.nextToken) :
    Handles context next (.replacing token callback ready) .done
      (some (.discarding callback (.dispatch ready)))
  | destroyed (callback : CallbackId) (after : AfterDiscard) (answer : ContextAnswer)
      (moved : ContextStage) (idle : moved.owned? = none) (table : next.table = context.table)
      (nextToken : next.nextToken = context.nextToken) :
    Handles context next (.discarding callback after) answer (some moved)
  | aloof (stage : ContextStage) (answer : ContextAnswer) (moved? : Option ContextStage)
      (idle : stage.owned? = none) (still : ∀ moved, moved? = some moved → moved.owned? = none)
      (unstarted : ∀ entry, stage.turn? = some entry →
        (context.table.find? entry.1).bind Watch.callback = none)
      (unremoved : ∀ token, stage.targets? = some token → context.table.find? token = none)
      (table : next.table = context.table) (nextToken : next.nextToken = context.nextToken) :
    Handles context next stage answer moved?

theorem Step.handles {context next : Context} {rest : List ContextStage} {stage : ContextStage}
    {answer : ContextAnswer} (step : context.Step rest stage answer next)
    (sound : next.tasks.head? ≠ some .conflicted) :
    ∃ moved?, next.tasks = moved?.toList ++ rest ∧ context.Handles next stage answer moved? := by
  have still : ∀ {stage : ContextStage}, stage.owned? = none →
      ∀ moved, some stage = some moved → moved.owned? = none := by
    rintro stage idle moved same
    exact Option.some.inj same ▸ idle
  cases step
  case add => exact ⟨some _, rfl, .accepted _ _ _ _ rfl rfl⟩
  case addFailed => exact ⟨some _, rfl, .refused _ _ _ _ _ rfl rfl⟩
  case record => exact ⟨some _, rfl, .recorded _ _ _ _ rfl rfl⟩
  case modify => exact ⟨some _, rfl, .amended _ _ _ rfl rfl⟩
  case remove token watch _ present => exact ⟨some _, rfl, .removed token watch present rfl rfl⟩
  case removeNone token _ absent =>
    refine ⟨some _, rfl, .aloof _ _ _ rfl (still rfl) nofun ?_ rfl rfl⟩
    rintro other same
    exact Option.some.inj same ▸ absent
  case delete watch | deleteFailed watch cause => exact ⟨some _, rfl, .deleted watch _ _ rfl rfl⟩
  case take token readiness ready callback _ present =>
    obtain ⟨watch, present, holds⟩ := Option.bind_eq_some_iff.mp present
    exact ⟨some _, rfl, .taken token readiness ready callback watch present holds rfl rfl⟩
  case skip token readiness ready _ absent =>
    refine ⟨some _, rfl, .aloof _ _ _ rfl (still rfl) ?_ nofun rfl rfl⟩
    rintro entry same
    exact Option.some.inj same ▸ absent
  case callReturned => exact ⟨some _, rfl, .returned _ _ _ _ rfl rfl⟩
  case callPanicked => exact ⟨some _, rfl, .panicked _ _ _ _ _ rfl rfl⟩
  case replace token callback ready watch _ present =>
    exact ⟨some _, rfl, .replaced token callback ready watch present rfl rfl⟩
  case replaceNone token callback ready _ absent =>
    exact ⟨some _, rfl, .orphaned token callback ready absent rfl rfl⟩
  case discard | discardNext | discardPanicked | abort =>
    exact ⟨some _, rfl, .destroyed _ _ _ _ rfl rfl rfl⟩
  case finish => exact ⟨none, rfl, .aloof _ _ _ rfl nofun nofun nofun rfl rfl⟩
  case conflict => exact absurd rfl sound
  all_goals exact ⟨some _, rfl, .aloof _ _ _ rfl (still rfl) nofun nofun rfl rfl⟩

/-- The same as `History.induct`, with what a step does to watches and callbacks. -/
@[elab_as_elim]
theorem History.handling {capacity : Nat} {past : List ContextTransition} {context : Context}
    {motive : List ContextTransition → Context → Prop} (start : motive [] { capacity })
    (called : ∀ past context call, History capacity past context → context.yields = true →
      motive past context →
      motive ({ before := context, event := .called call, after := context.begin call } :: past)
        (context.begin call))
    (answered : ∀ past context stage rest answer moved? next, History capacity past context →
      context.tasks = stage :: rest → next.tasks = moved?.toList ++ rest →
      context.Handles next stage answer moved? → motive past context →
      motive ({ before := context, event := .answered answer, after := next } :: past) next)
    (history : History capacity past context) : motive past context := by
  refine history.induct start called ?_
  intro past context stage rest answer next history tasks step inductionHypothesis
  obtain ⟨moved?, after, handles⟩ := step.handles (history.orderly.step tasks step).sound
  exact answered past context stage rest answer moved? next history tasks after handles
    inductionHypothesis

/-! ### Tokens -/

/-- All tokens that have been handed out so far are below this one. -/
def bound (context : Context) : Token :=
  ((context.tasks.head?.bind ContextStage.records?).map Prod.fst).getD context.nextToken

/-- The watches whose callbacks have been taken out of the table and not been put back yet. -/
def carried (context : Context) : List (Token × CallbackId) :=
  context.tasks.filterMap ContextStage.carries?

theorem bound_of_none {context : Context} {stage : ContextStage} {rest : List ContextStage}
    (tasks : context.tasks = stage :: rest) (none : stage.records? = none) :
    context.bound = context.nextToken := by
  rw [bound, tasks, List.head?_cons, Option.bind_some, none, Option.map_none, Option.getD_none]

theorem bound_recording {context : Context} {token : Token} {descriptor : Descriptor}
    {interest : Interest} {callback : CallbackId} {rest : List ContextStage}
    (tasks : context.tasks = .recording token descriptor interest callback :: rest) :
    context.bound = token := by
  rw [bound, tasks]
  rfl

theorem bound_of_records {context : Context} {stage : ContextStage} {rest : List ContextStage}
    {entry : Token × CallbackId} (tasks : context.tasks = stage :: rest)
    (records : stage.records? = some entry) : context.bound = entry.1 := by
  rw [bound, tasks, List.head?_cons, Option.bind_some, records, Option.map_some, Option.getD_some]

theorem bound_of_callsOut {context : Context}
    (below : ∀ stage ∈ context.tasks, stage.callsOut = true) :
    context.bound = context.nextToken := by
  cases tasks : context.tasks with
  | nil =>
    rw [bound, tasks]
    rfl
  | cons stage rest =>
    have outside := ContextStage.outside (below stage (tasks ▸ List.mem_cons_self))
      context.nextToken
    exact bound_of_none tasks outside.2.1

/-- Tokens are handed out in order. No two watches of the table have the same one. -/
structure Numbered (context : Context) : Prop where
  nodup : context.table.tokens.Nodup
  table : ∀ token ∈ context.table.tokens, token < context.bound
  carried : ∀ entry ∈ context.carried, entry.1 < context.bound
  latest : ∀ stage, context.tasks.head? = some stage → stage.Latest context.nextToken

variable {context next : Context} {stage : ContextStage} {rest : List ContextStage}
  {answer : ContextAnswer} {moved? : Option ContextStage}

/-- What is read off the operations before a step. -/
theorem filterMap_tasks {Fact : Type} (read : ContextStage → Option Fact)
    (tasks : context.tasks = stage :: rest) :
    context.tasks.filterMap read = (read stage).toList ++ rest.filterMap read := by
  rw [tasks, Machine.filterMap_cons_toList]

/-- What is read off the operations after a step. -/
theorem filterMap_moved {Fact : Type} (read : ContextStage → Option Fact)
    (after : next.tasks = moved?.toList ++ rest) :
    next.tasks.filterMap read = (moved?.bind read).toList ++ rest.filterMap read := by
  cases moved? with
  | none =>
    rw [after]
    rfl
  | some moved => exact filterMap_tasks read after

theorem bound_begin (yields : context.yields = true) (orderly : context.Orderly)
    (call : ContextCall) : (context.begin call).bound = context.bound := by
  rw [bound_of_callsOut (orderly.callsOut yields), begin_eq]
  exact bound_of_none rfl (call.first_owned? context.nextToken).2.2.1

theorem carried_begin (context : Context) (call : ContextCall) :
    (context.begin call).carried = context.carried := by
  rw [begin_eq, carried, filterMap_tasks _ rfl, (call.first_owned? context.nextToken).2.1]
  rfl

theorem Orderly.callsOut_rest (orderly : context.Orderly) (tasks : context.tasks = stage :: rest) :
    ∀ stage ∈ rest, stage.callsOut = true := by
  have below := orderly.below
  rwa [tasks] at below

/-- A token is handed out when a watch enters the table, and not by any other step. -/
theorem Handles.bound (handles : context.Handles next stage answer moved?)
    (tasks : context.tasks = stage :: rest) (after : next.tasks = moved?.toList ++ rest)
    (orderly : context.Orderly) (latest : stage.Latest context.nextToken)
    (quiet : stage.records? = none) : next.bound = context.bound := by
  rw [bound_of_none tasks quiet]
  cases handles with
  | accepted token descriptor interest callback table nextToken =>
    exact (bound_recording after).trans latest
  | recorded => cases quiet
  | deleted watch answer result table nextToken =>
    obtain ⟨-, -, -, quiet, -⟩ := ContextStage.afterDelete_owned? watch result
    exact nextToken ▸ bound_of_none after quiet
  | destroyed callback discarded answer moved none table nextToken =>
    exact nextToken ▸ bound_of_none after (ContextStage.idle none).2.2.2
  | aloof _ _ _ none still _ _ table nextToken =>
    rw [← nextToken]
    cases moved? with
    | none => exact bound_of_callsOut (after ▸ orderly.callsOut_rest tasks)
    | some moved => exact bound_of_none after (ContextStage.idle (still moved rfl)).2.2.2
  | refused _ _ _ _ _ table nextToken | amended _ _ _ table nextToken
  | removed _ _ _ table nextToken | taken _ _ _ _ _ _ _ table nextToken
  | returned _ _ _ _ table nextToken | panicked _ _ _ _ _ table nextToken
  | replaced _ _ _ _ _ table nextToken | orphaned _ _ _ _ table nextToken =>
    exact nextToken ▸ bound_of_none after rfl

theorem Handles.bound_recorded {token : Token} {descriptor : Descriptor} {interest : Interest}
    {callback : CallbackId} (handles : context.Handles next
      (.recording token descriptor interest callback) answer moved?)
    (after : next.tasks = moved?.toList ++ rest) (latest : token + 1 = context.nextToken) :
    next.bound = token + 1 := by
  cases handles with
  | recorded _ _ _ _ table nextToken =>
    rw [bound_of_none after rfl, nextToken, latest]
  | aloof _ _ _ idle => cases idle

theorem Handles.grows (handles : context.Handles next stage answer moved?)
    (tasks : context.tasks = stage :: rest) (after : next.tasks = moved?.toList ++ rest)
    (orderly : context.Orderly) (latest : stage.Latest context.nextToken) :
    context.bound ≤ next.bound := by
  by_cases quiet : stage.records? = none
  · exact Nat.le_of_eq (handles.bound tasks after orderly latest quiet).symm
  · cases stage with
    | recording token descriptor interest callback =>
      rw [bound_recording tasks, handles.bound_recorded after latest]
      exact Nat.le_succ _
    | _ => exact absurd rfl quiet

/-- The tokens of the table change when a watch enters it or leaves it. -/
theorem Handles.tokens (handles : context.Handles next stage answer moved?) :
    next.table.tokens = context.table.tokens ∨
      (∃ token descriptor interest callback,
        stage = .recording token descriptor interest callback ∧ next.table =
          context.table.insert token { descriptor, interest, callback := some callback }) ∨
      ∃ token, stage = .removing token ∧ next.table = context.table.remove token := by
  cases handles with
  | recorded token descriptor interest callback table nextToken =>
    exact Or.inr (Or.inl ⟨token, descriptor, interest, callback, rfl, table⟩)
  | removed token watch present table nextToken =>
    exact Or.inr (Or.inr ⟨token, rfl, table⟩)
  | amended _ _ _ table | taken _ _ _ _ _ _ _ table | replaced _ _ _ _ _ table =>
    exact Or.inl (table ▸ WatchTable.tokens_update _ _ _)
  | accepted _ _ _ _ table | refused _ _ _ _ _ table | deleted _ _ _ table
  | returned _ _ _ _ table | panicked _ _ _ _ _ table | orphaned _ _ _ _ table
  | destroyed _ _ _ _ _ table | aloof _ _ _ _ _ _ _ table => exact Or.inl (congrArg _ table)

/-- What an operation carries it has carried before, or it has just been taken out of the table. -/
theorem Handles.carries (handles : context.Handles next stage answer moved?)
    {entry : Token × CallbackId} (carries : moved?.bind ContextStage.carries? = some entry) :
    stage.carries? = some entry ∨ ∃ watch, context.table.find? entry.1 = some watch ∧
      watch.callback = some entry.2 := by
  cases handles with
  | taken token readiness ready callback watch present holds =>
    cases carries
    exact Or.inr ⟨watch, present, holds⟩
  | returned token readiness callback ready => exact Or.inl carries
  | deleted watch answer result =>
    rw [Option.bind_some, (ContextStage.afterDelete_owned? watch result).2.1] at carries
    cases carries
  | destroyed _ _ _ moved idle =>
    rw [Option.bind_some, (ContextStage.idle idle).1] at carries
    cases carries
  | aloof _ _ _ _ still =>
    obtain ⟨moved, moves, own⟩ := Option.bind_eq_some_iff.mp carries
    rw [(ContextStage.idle (still moved moves)).1] at own
    cases own
  | accepted | refused | recorded | amended | removed | panicked | replaced | orphaned =>
    cases carries

theorem Handles.latest (handles : context.Handles next stage answer moved?)
    (latest : stage.Latest context.nextToken) {moved : ContextStage} (moves : moved? = some moved) :
    moved.Latest next.nextToken := by
  cases handles with
  | accepted token descriptor interest callback table nextToken =>
    cases moves
    exact nextToken.symm
  | deleted watch answer result =>
    cases moves
    exact (ContextStage.afterDelete_owned? watch result).2.2.2.2 _
  | destroyed _ _ _ moved idle =>
    cases moves
    exact ContextStage.latest_of_idle idle _
  | aloof _ _ _ _ still => exact ContextStage.latest_of_idle (still moved moves) _
  | refused | recorded | amended | removed | taken | returned | panicked | replaced | orphaned =>
    cases moves
    exact trivial

theorem History.numbered {capacity : Nat} {past : List ContextTransition}
    (history : History capacity past context) : context.Numbered := by
  refine history.handling (motive := fun _ context => context.Numbered)
    ⟨.nil, nofun, nofun, nofun⟩ ?_ ?_
  · intro past context call history yields numbered
    have bound := bound_begin yields history.orderly call
    refine ⟨context.begin_eq call ▸ numbered.nodup, ?_, ?_, ?_⟩
    · rw [bound, begin_eq]
      exact numbered.table
    · rw [bound, carried_begin]
      exact numbered.carried
    · rw [begin_eq]
      rintro stage same
      exact Option.some.inj same ▸ (call.first_owned? context.nextToken).2.2.2
  · intro past context stage rest answer moved? next history tasks after handles numbered
    have latest : stage.Latest context.nextToken := numbered.latest stage (tasks ▸ rfl)
    have grows := handles.grows tasks after history.orderly latest
    have nodup := numbered.nodup
    have kept := numbered.table
    refine ⟨?_, ?_, ?_, ?_⟩
    · rcases handles.tokens with same | ⟨token, _, _, _, rfl, table⟩ | ⟨token, rfl, table⟩
      · rwa [same]
      · have fresh : token ∉ context.table.tokens := by
          intro member
          have below := kept token member
          rw [bound_recording tasks] at below
          exact Nat.lt_irrefl _ below
        rw [table, WatchTable.insert_of_absent fresh, WatchTable.tokens, List.map_append,
          List.map_singleton, ← List.concat_eq_append]
        exact nodup.concat fresh
      · rw [table]
        exact nodup.sublist (List.filter_sublist.map _)
    · intro token member
      rcases handles.tokens with same | ⟨added, _, _, _, rfl, table⟩ | ⟨removed, rfl, table⟩
      · exact Nat.lt_of_lt_of_le (kept token (same ▸ member)) grows
      · rw [table, WatchTable.insert, WatchTable.tokens, List.map_append] at member
        rcases List.mem_append.mp member with member | member
        · exact Nat.lt_of_lt_of_le (kept token ((List.filter_sublist.map _).mem member)) grows
        · rw [List.mem_singleton.mp member, handles.bound_recorded after latest]
          exact Nat.lt_succ_self _
      · rw [table] at member
        exact Nat.lt_of_lt_of_le (kept token ((List.filter_sublist.map _).mem member)) grows
    · intro entry member
      have carried := numbered.carried
      rw [Context.carried, filterMap_tasks _ tasks] at carried
      rw [Context.carried, filterMap_moved _ after] at member
      refine Nat.lt_of_lt_of_le ?_ grows
      rcases List.mem_append.mp member with member | member
      · rcases handles.carries (Option.mem_toList.mp member) with same | ⟨watch, present, -⟩
        · exact carried entry (List.mem_append_left _ (Option.mem_toList.mpr same))
        · exact kept _ (WatchTable.token_mem present)
      · exact carried entry (List.mem_append_right _ member)
    · intro top same
      rw [after] at same
      cases moved? with
      | none =>
        have outside := history.orderly.callsOut_rest tasks top (List.mem_of_mem_head? same)
        exact (ContextStage.outside outside _).2.2
      | some moved =>
        cases same
        exact handles.latest latest rfl

/-- What a step does, told once more for a transition of a history. -/
theorem History.handles {capacity : Nat} {past : List ContextTransition}
    (history : History capacity past context)
    (accepted : machine.after? context (.answered answer) = some next) :
    ∃ stage rest moved?, context.tasks = stage :: rest ∧ next.tasks = moved?.toList ++ rest ∧
      context.Handles next stage answer moved? := by
  obtain ⟨stage, rest, tasks, step⟩ := machine_answered accepted
  obtain ⟨moved?, after, handles⟩ := step.handles (history.orderly.step tasks step).sound
  exact ⟨stage, rest, moved?, tasks, after, handles⟩

/-- Tokens are never taken back. -/
theorem History.grows {capacity : Nat} {past : List ContextTransition}
    {event : MachineEvent ContextCall ContextAnswer} (history : History capacity past context)
    (accepted : machine.after? context event = some next) : context.bound ≤ next.bound := by
  cases event with
  | called call =>
    obtain ⟨yields, rfl⟩ := machine_called accepted
    exact Nat.le_of_eq (bound_begin yields history.orderly call).symm
  | answered answer =>
    obtain ⟨stage, rest, moved?, tasks, after, handles⟩ := history.handles accepted
    exact handles.grows tasks after history.orderly (history.numbered.latest stage (tasks ▸ rfl))

end Context

end MessagePump

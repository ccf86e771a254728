/-
This file proves that the table of a context and the interest list of its poller stay the same
thing, turn by turn.

`watch` asks the system first and writes the table afterwards, `rewatch` holds the table while it
asks, and `unwatch` writes the table first and asks afterwards. So the interest list is compared
with a table of its own, `Wired.Agrees`: that of the context, but for the watch that the innermost
operation has registered and not recorded yet, or removed and not deregistered yet. Neither of these
two moments is one at which other code has the thread.

From the agreement it follows that the system never refuses to change or to forget what is in the
table, so a turn of an operation does one of the few things that `Wired.Proceeds` lists. What is
proved of the operations later goes by that list.
-/

import MessagePump.Proofs.InterestLists
import MessagePump.Proofs.Sessions

namespace MessagePump

/-! ### What turns do to the table -/

/-- Whether only a poll can be at this stage, or end so. -/
def ContextStage.ofPoll : ContextStage → Bool
  | .preparing _ | .waiting _ | .collecting .. | .dispatching _ | .calling .. | .replacing ..
  | .discarding _ (.dispatch _) | .discarding _ (.finish (.panicked _)) | .aborting => true
  | .ended (.watched _) | .ended .changed | .ended .removed => false
  | .ended _ => true
  | _ => false

/-- Table, next token and interest list are the same. -/
structure Wired.Same (poller : PollerId) (first second : Wired) : Prop where
  table : second.context.table = first.context.table
  nextToken : second.context.nextToken = first.context.nextToken
  registrations : second.kernel.registrations poller = first.kernel.registrations poller

theorem Wired.Same.trans {poller : PollerId} {first second third : Wired}
    (same : first.Same poller second) (next : second.Same poller third) : first.Same poller third :=
  ⟨next.table.trans same.table, next.nextToken.trans same.nextToken,
    next.registrations.trans same.registrations⟩

/-- What a turn of an operation at some stage can do to the table and to the next token, and where
the operation stands afterwards, unless it was its last turn. -/
inductive Wired.Proceeds (poller : PollerId) (wired next : Wired) :
    ContextStage → Option ContextStage → Prop
  | added (token : Token) (descriptor : Descriptor) (interest : Interest) (callback : CallbackId)
      (latest : token = wired.context.nextToken)
      (table : next.context.table = wired.context.table)
      (nextToken : next.context.nextToken = token + 1) :
    Proceeds poller wired next (.adding token descriptor interest callback)
      (some (.recording token descriptor interest callback))
  | refused (token : Token) (descriptor : Descriptor) (interest : Interest)
      (callback : CallbackId) (cause : IoError) (same : Same poller wired next) :
    Proceeds poller wired next (.adding token descriptor interest callback)
      (some (.discarding callback (.finish (.failed cause))))
  | recorded (token : Token) (descriptor : Descriptor) (interest : Interest)
      (callback : CallbackId) (latest : token + 1 = wired.context.nextToken)
      (table : next.context.table =
        wired.context.table ++ [(token, ⟨descriptor, interest, some callback⟩)])
      (nextToken : next.context.nextToken = wired.context.nextToken) :
    Proceeds poller wired next (.recording token descriptor interest callback)
      (some (.ended (.watched token)))
  | found (token : Token) (interest : Interest) (watch : Watch)
      (present : wired.context.table.find? token = some watch)
      (same : Same poller wired next) :
    Proceeds poller wired next (.finding token interest)
      (some (.modifying token watch.descriptor interest))
  | notFound (token : Token) (interest : Interest)
      (absent : wired.context.table.find? token = none) (same : Same poller wired next) :
    Proceeds poller wired next (.finding token interest) (some (.ended (.failed unknownToken)))
  | modified (token : Token) (descriptor : Descriptor) (interest : Interest)
      (table : next.context.table =
        wired.context.table.update token fun watch => { watch with interest })
      (nextToken : next.context.nextToken = wired.context.nextToken) :
    Proceeds poller wired next (.modifying token descriptor interest) (some (.ended .changed))
  | removed (token : Token) (watch : Watch)
      (present : wired.context.table.find? token = some watch)
      (table : next.context.table = wired.context.table.remove token)
      (nextToken : next.context.nextToken = wired.context.nextToken) :
    Proceeds poller wired next (.removing token) (some (.deleting watch))
  | notThere (token : Token) (absent : wired.context.table.find? token = none)
      (same : Same poller wired next) :
    Proceeds poller wired next (.removing token) (some (.ended (.failed unknownToken)))
  | deleted (watch : Watch) (moved : ContextStage)
      (after : moved = .ended .removed ∨
        ∃ callback, moved = .discarding callback (.finish .removed))
      (table : next.context.table = wired.context.table)
      (nextToken : next.context.nextToken = wired.context.nextToken) :
    Proceeds poller wired next (.deleting watch) (some moved)
  | discarded (callback : CallbackId) (result : ContextResult) (moved : ContextStage)
      (after : moved = .ended result ∨ ∃ message, moved = .ended (.panicked message))
      (refused : ∀ token, result ≠ .watched token)
      (same : Same poller wired next) :
    Proceeds poller wired next (.discarding callback (.finish result)) (some moved)
  | polled (stage moved : ContextStage) (before : stage.ofPoll = true)
      (busy : ∀ result, stage ≠ .ended result) (after : moved.ofPoll = true)
      (terms : next.context.table.terms = wired.context.table.terms)
      (nextToken : next.context.nextToken = wired.context.nextToken) :
    Proceeds poller wired next stage (some moved)
  | returned (result : ContextResult)
      (latest : ∀ token, result = .watched token → token + 1 = wired.context.nextToken)
      (same : Same poller wired next) :
    Proceeds poller wired next (.ended result) none

/-- A step of a poll changes nothing but callbacks in the table. -/
theorem Context.Step.polls {context next : Context} {rest : List ContextStage}
    {stage : ContextStage} {answer : ContextAnswer} (step : context.Step rest stage answer next)
    (orderly : next.Orderly) (polls : stage.ofPoll = true)
    (busy : ∀ result, stage ≠ .ended result) :
    ∃ moved, next.tasks = moved :: rest ∧ moved.ofPoll = true ∧
      next.table.terms = context.table.terms ∧ next.nextToken = context.nextToken := by
  cases step
  case finish result => exact absurd rfl (busy result)
  case conflict => exact absurd rfl orderly.sound
  case discard callback result =>
    cases result with
    | panicked message => exact ⟨_, rfl, rfl, rfl, rfl⟩
    | _ => cases polls
  case take token _ _ _ _ _ => exact ⟨_, rfl, rfl, WatchTable.terms_recall _ token none, rfl⟩
  case replace token callback _ _ _ _ =>
    exact ⟨_, rfl, rfl, WatchTable.terms_recall _ token (some callback), rfl⟩
  all_goals first
    | exact ⟨_, rfl, rfl, rfl, rfl⟩
    | cases polls

/-! ### Callbacks that are destroyed -/

/-- Whether a watch that has been accepted is to be announced when its callback has been destroyed.
That never happens. -/
def ContextStage.forfeits : ContextStage → Bool
  | .discarding _ (.finish (.watched _)) => true
  | _ => false

theorem ContextCall.Opens.forfeits {nextToken : Token} {call : ContextCall}
    {stage : ContextStage} (opens : call.Opens nextToken stage) : stage.forfeits = false := by
  cases opens <;> rfl

theorem Context.Step.forfeits {context next : Context} {rest : List ContextStage}
    {stage : ContextStage} {answer : ContextAnswer} (step : context.Step rest stage answer next)
    (kept : ∀ stage ∈ rest, stage.forfeits = false) :
    ∀ stage ∈ next.tasks, stage.forfeits = false := by
  have moved : ∀ moved : ContextStage, moved.forfeits = false →
      ∀ stage ∈ moved :: rest, stage.forfeits = false := by
    intro moved own stage member
    rcases List.mem_cons.mp member with rfl | member
    · exact own
    · exact kept stage member
  cases step
  case finish => exact kept
  case delete watch | deleteFailed watch cause =>
    rcases ContextStage.afterDelete_cases watch _ with ⟨-, same⟩ | ⟨callback, -, same⟩ <;>
      exact moved _ (same ▸ rfl)
  all_goals exact moved _ rfl

theorem Session.forfeits {poller : PollerId} {history : List Turn} {wired : Wired}
    (session : Session poller history wired) :
    ∀ stage ∈ wired.context.tasks, stage.forfeits = false := by
  induction session with
  | start => exact fun _ member => absurd member List.not_mem_nil
  | @step earlier before event next session possible inductionHypothesis =>
    have below : ∀ {stage rest}, before.context.tasks = stage :: rest →
        ∀ stage ∈ rest, stage.forfeits = false := fun tasks stage member =>
      inductionHypothesis stage (tasks ▸ List.mem_cons_of_mem _ member)
    cases Wired.after?_some possible with
    | called call yields =>
      rw [Context.begin_eq]
      intro stage member
      rcases List.mem_cons.mp member with rfl | member
      · exact (call.first_opens _).forfeits
      · exact inductionHypothesis stage member
    | answered tasks _ step | served tasks _ _ step => exact step.forfeits (below tasks)
    | @interrupted timeout _ _ tasks =>
      exact (Context.Step.interrupt timeout).forfeits (below tasks)
    | @timedOut timeout _ _ tasks =>
      exact (Context.Step.report timeout []).forfeits (below tasks)
    | _ => exact inductionHypothesis

/-! ### Agreement -/

/-- How the table of a context relates to that of the interest list, with the innermost operation at
some stage. A watch that has been registered is not in the table of the context before it has been
recorded, and one that has been removed is in the list until it has been deregistered. -/
def Context.Covers (context : Context) (table : WatchTable) : ContextStage → Prop
  | .adding token .. => token = context.nextToken ∧ context.table = table
  | .recording token descriptor interest callback =>
    token + 1 = context.nextToken ∧
      context.table ++ [(token, ⟨descriptor, interest, some callback⟩)] = table
  | .modifying token descriptor _ =>
    (∃ watch, context.table.find? token = some watch ∧ watch.descriptor = descriptor) ∧
      context.table = table
  | .deleting watch =>
    ∃ token, table.find? token = some watch ∧ context.table = table.remove token
  | .ended (.watched token) => token + 1 = context.nextToken ∧ context.table = table
  | _ => context.table = table

theorem Context.covers_of_callsOut {context : Context} {table : WatchTable} {stage : ContextStage}
    (outside : stage.callsOut = true) :
    context.Covers table stage ↔ context.table = table := by
  cases stage <;> first | exact Iff.rfl | cases outside

theorem Context.covers_of_ofPoll {context : Context} {table : WatchTable} {stage : ContextStage}
    (polls : stage.ofPoll = true) : context.Covers table stage ↔ context.table = table := by
  cases stage with
  | ended result => cases result <;> first | exact Iff.rfl | cases polls
  | _ => first | exact Iff.rfl | cases polls

/-- The two tables differ only while a watch is in between. -/
theorem Context.Covers.cases {context : Context} {table : WatchTable} {stage : ContextStage}
    (covers : context.Covers table stage) :
    context.table = table ∨
      (∃ token descriptor interest callback,
        stage = .recording token descriptor interest callback ∧
          context.table ++ [(token, ⟨descriptor, interest, some callback⟩)] = table) ∨
      ∃ watch token, stage = .deleting watch ∧ table.find? token = some watch ∧
        context.table = table.remove token := by
  cases stage with
  | recording => exact Or.inr (Or.inl ⟨_, _, _, _, rfl, covers.2⟩)
  | deleting watch =>
    obtain ⟨token, present, same⟩ := covers
    exact Or.inr (Or.inr ⟨watch, token, rfl, present, same⟩)
  | adding | modifying => exact Or.inl covers.2
  | ended result => cases result <;> first | exact Or.inl covers.2 | exact Or.inl covers
  | _ => exact Or.inl covers

/-- The descriptor that is watched by the operation at a stage: it is about to be recorded, or it
has just been removed. -/
def ContextStage.holds? : ContextStage → Option Descriptor
  | .recording _ descriptor .. => some descriptor
  | .deleting watch => some watch.descriptor
  | _ => none

/-- Where other code has the thread, no operation is between the two halves of its work. -/
theorem Context.holds?_of_yields {context : Context} (yields : context.yields = true) :
    context.tasks.head?.bind ContextStage.holds? = none := by
  unfold Context.yields at yields
  cases top : context.tasks.head? with
  | none => rfl
  | some stage =>
    rw [top] at yields
    cases stage <;> first | rfl | cases yields

/-- The interest list is a table, and the table of the context agrees with it. All tokens are below
the next one. -/
structure Wired.Agrees (poller : PollerId) (wired : Wired) (table : WatchTable) : Prop where
  lists : wired.kernel.Lists poller table
  bounded : ∀ token ∈ table.tokens, token < wired.context.nextToken
  idle : wired.context.tasks = [] → wired.context.table = table
  covers : ∀ stage rest, wired.context.tasks = stage :: rest → wired.context.Covers table stage

namespace Wired

variable {poller : PollerId} {wired next : Wired} {event : SessionEvent} {table : WatchTable}
  {stage moved : ContextStage} {rest : List ContextStage}

/-- The innermost operation has come to another stage. -/
theorem Agrees.of_covers (lists : next.kernel.Lists poller table)
    (bounded : ∀ token ∈ table.tokens, token < next.context.nextToken)
    (tasks : next.context.tasks = moved :: rest) (covers : next.context.Covers table moved) :
    Agrees poller next table := by
  refine ⟨lists, bounded, ?_, ?_⟩ <;> rw [tasks]
  · exact nofun
  · rintro stage rest same
    exact (List.cons.inj same).1 ▸ covers

/-- Unless the innermost operation is between the two halves of its work, the two tables are the
same. -/
theorem Agrees.settled (agrees : Agrees poller wired table)
    (between : wired.context.tasks.head?.bind ContextStage.holds? = none) :
    wired.context.table = table := by
  cases tasks : wired.context.tasks with
  | nil => exact agrees.idle tasks
  | cons stage rest =>
    rw [tasks] at between
    obtain same | ⟨_, _, _, _, rfl, -⟩ | ⟨_, _, rfl, -⟩ := (agrees.covers stage rest tasks).cases
    · exact same
    · cases between
    · cases between

/-- No two watches share a descriptor, and all tokens are below the next one. -/
theorem Agrees.nodup (agrees : Agrees poller wired table) :
    wired.context.table.descriptors.Nodup ∧ ∀ token ∈ wired.context.table.tokens,
      token < wired.context.nextToken := by
  have fewer : wired.context.table.Sublist table := by
    cases tasks : wired.context.tasks with
    | nil => rw [agrees.idle tasks]
    | cons stage rest =>
      obtain same | ⟨_, _, _, _, -, same⟩ | ⟨_, _, -, -, same⟩ :=
        (agrees.covers stage rest tasks).cases
      · rw [same]
      · exact same ▸ List.sublist_append_left _ _
      · exact same ▸ List.filter_sublist
  exact ⟨agrees.lists.descriptors.sublist (fewer.map _),
    fun token member => agrees.bounded token ((fewer.map _).subset member)⟩

/-! ### Turns of the operations -/

/-- A turn of the innermost operation, with the agreement after it. -/
def Advances (poller : PollerId) (wired next : Wired) (stage : ContextStage)
    (rest : List ContextStage) : Prop :=
  ∃ moved? after, next.context.tasks = moved?.toList ++ rest ∧ Agrees poller next after ∧
    Proceeds poller wired next stage moved?

/-- A turn of a poll. -/
theorem Agrees.polled (agrees : Agrees poller wired table)
    (tasks : wired.context.tasks = stage :: rest) (before : stage.ofPoll = true)
    (busy : ∀ result, stage ≠ .ended result)
    (lists : next.kernel.Lists poller table) (tasks' : next.context.tasks = moved :: rest)
    (after : moved.ofPoll = true) (terms : next.context.table.terms = wired.context.table.terms)
    (nextToken : next.context.nextToken = wired.context.nextToken) :
    Advances poller wired next stage rest := by
  have same := (Context.covers_of_ofPoll before).mp (agrees.covers stage rest tasks)
  have listed : next.context.table.terms = table.terms := terms.trans (congrArg _ same)
  refine ⟨some moved, next.context.table, tasks', ?_,
    .polled stage moved before busy after terms nextToken⟩
  refine .of_covers (lists.congr listed) ?_ tasks' ((Context.covers_of_ofPoll after).mpr rfl)
  rw [WatchTable.tokens_eq, listed, ← WatchTable.tokens_eq, nextToken]
  exact agrees.bounded

/-- A turn that changes nothing but the stage. -/
theorem Agrees.goes (agrees : Agrees poller wired table) (context : Context)
    (table' : context.table = wired.context.table)
    (nextToken : context.nextToken = wired.context.nextToken)
    (tasks : context.tasks = moved :: rest) (covers : context.Covers table moved)
    (proceeds : Same poller wired { wired with context } →
      Proceeds poller wired { wired with context } stage (some moved)) :
    Advances poller wired { wired with context } stage rest :=
  ⟨some moved, table, tasks, .of_covers agrees.lists (nextToken ▸ agrees.bounded) tasks covers,
    proceeds ⟨table', nextToken, rfl⟩⟩

/-- A turn that needs nothing from the system. -/
theorem Agrees.answered (agrees : Agrees poller wired table) (orderly : wired.context.Orderly)
    (tasks : wired.context.tasks = stage :: rest) (kept : stage.forfeits = false)
    {answer : ContextAnswer} {context : Context}
    (own : (wired.context.stageRequest stage).asksSystem = false)
    (step : wired.context.Step rest stage answer context) :
    Advances poller wired { wired with context } stage rest := by
  have orderly' := orderly.step tasks step
  have below := orderly.below
  have covers := agrees.covers stage rest tasks
  rw [tasks] at below
  have ended : ∀ result, stage = .ended result → context = { wired.context with tasks := rest } →
      Advances poller wired { wired with context } stage rest := by
    rintro result rfl rfl
    have same : wired.context.table = table := by
      cases result <;> first | exact covers.2 | exact covers
    refine ⟨none, table, rfl, ⟨agrees.lists, agrees.bounded, fun _ => same, ?_⟩,
      .returned result ?_ ⟨rfl, rfl, rfl⟩⟩
    · rintro stage rest rfl
      exact (Context.covers_of_callsOut (below stage List.mem_cons_self)).mpr same
    · rintro token rfl
      exact covers.1
  by_cases polls : stage.ofPoll = true
  · by_cases busy : ∀ result, stage ≠ .ended result
    · obtain ⟨moved, tasks', after, terms, nextToken⟩ := step.polls orderly' polls busy
      exact agrees.polled tasks polls busy agrees.lists tasks' after terms nextToken
    · obtain ⟨result, same⟩ := not_forall_not.mp busy
      subst same
      cases step with
      | finish => exact ended _ rfl rfl
      | conflict => exact absurd rfl orderly'.sound
  cases step
  case finish result => exact ended result rfl rfl
  case conflict => exact absurd rfl orderly'.sound
  case record token descriptor interest callback free =>
    obtain ⟨latest, same⟩ := covers
    have unused : token ∉ wired.context.table.tokens := by
      have nodup := agrees.lists.tokens
      rw [← same, WatchTable.tokens, List.map_append] at nodup
      exact List.disjoint_singleton.mp (List.disjoint_of_nodup_append nodup)
    have table' := WatchTable.insert_of_absent unused ⟨descriptor, interest, some callback⟩
    exact ⟨_, table, rfl, .of_covers agrees.lists agrees.bounded rfl ⟨latest, table'.trans same⟩,
      .recorded token descriptor interest callback latest table' rfl⟩
  case find token interest watch free present =>
    exact agrees.goes _ rfl rfl rfl ⟨⟨watch, present, rfl⟩, covers⟩
      (.found token interest watch present)
  case findNone token interest free absent =>
    exact agrees.goes _ rfl rfl rfl covers (.notFound token interest absent)
  case remove token watch free present =>
    have same : wired.context.table = table := covers
    refine ⟨_, table, rfl, .of_covers agrees.lists agrees.bounded rfl ⟨token, same ▸ present, ?_⟩,
      .removed token watch present rfl rfl⟩
    exact congrArg (fun table => WatchTable.remove table token) same
  case removeNone token free absent =>
    exact agrees.goes _ rfl rfl rfl covers (.notThere token absent)
  case discard callback result =>
    have covers' : wired.context.Covers table (.ended result) := by
      cases result <;> first | exact covers | cases kept
    have refused : ∀ token, result ≠ .watched token := by
      rintro token rfl
      cases kept
    exact agrees.goes _ rfl rfl rfl covers' (.discarded callback result _ (Or.inl rfl) refused)
  case discardPanicked callback after message single =>
    cases after with
    | dispatch ready => exact absurd rfl polls
    | finish result =>
      have refused : ∀ token, result ≠ .watched token := by
        rintro token rfl
        cases kept
      exact agrees.goes _ rfl rfl rfl covers
        (.discarded callback result _ (Or.inr ⟨message, rfl⟩) refused)
  all_goals first
    | exact absurd rfl polls
    | cases own

/-- What a poll asks of the system. -/
theorem edits_of_ofPoll {context : Context} (polls : stage.ofPoll = true) :
    (context.stageRequest stage).edits = false := by
  cases stage with
  | collecting events =>
    cases events with
    | nil => rfl
    | cons event events =>
      simp only [Context.stageRequest]
      split <;> rfl
  | _ => first | rfl | cases polls

/-- A turn that is an answer of the system. Nothing that is in the table is refused. -/
theorem Agrees.served (agrees : Agrees poller wired table) (orderly : wired.context.Orderly)
    (tasks : wired.context.tasks = stage :: rest) {answer : ContextAnswer} {context : Context}
    {kernel : Kernel}
    (responds : wired.kernel.respond? poller (wired.context.stageRequest stage) =
      some (answer, kernel))
    (step : wired.context.Step rest stage answer context) :
    Advances poller wired { context, kernel } stage rest := by
  have orderly' := orderly.step tasks step
  have answers := Kernel.respond?_some responds
  have covers := agrees.covers stage rest tasks
  by_cases polls : stage.ofPoll = true
  · have lists := (agrees.lists.answers answers (edits_of_ofPoll polls)).1
    have busy : ∀ result, stage ≠ .ended result := by
      rintro result rfl
      cases responds
    obtain ⟨moved, tasks', after, terms, nextToken⟩ := step.polls orderly' polls busy
    exact agrees.polled tasks polls busy lists tasks' after terms nextToken
  cases step
  case conflict => exact absurd rfl orderly'.sound
  case add token descriptor interest callback =>
    obtain ⟨latest, same⟩ := covers
    cases answers with
    | added _ _ _ file pollable fresh =>
      have unused : token ∉ table.tokens := fun member =>
        absurd (agrees.bounded token member) (latest ▸ Nat.lt_irrefl _)
      refine ⟨_, _, rfl, .of_covers (agrees.lists.add _ pollable fresh unused interest
        (some callback)) ?_ rfl ⟨rfl, congrArg (· ++ _) same⟩,
        .added token descriptor interest callback latest rfl rfl⟩
      intro other member
      rw [WatchTable.tokens, List.map_append] at member
      rcases List.mem_append.mp member with member | member
      · exact Nat.lt_succ_of_lt (latest ▸ agrees.bounded other member)
      · cases List.mem_singleton.mp member
        exact Nat.lt_succ_self token
  case addFailed token descriptor interest callback cause =>
    cases answers with
    | addFailed =>
      exact agrees.goes _ rfl rfl rfl covers.2 (.refused token descriptor interest callback cause)
  case modify token descriptor interest =>
    obtain ⟨⟨watch, present, rfl⟩, same⟩ := covers
    rw [same] at present
    cases answers with
    | modified _ _ _ file pollable =>
      refine ⟨_, _, rfl, .of_covers (agrees.lists.modify _ present pollable interest) ?_ rfl ?_,
        .modified token watch.descriptor interest rfl rfl⟩
      · rw [WatchTable.tokens_update]
        exact agrees.bounded
      · exact congrArg (fun table => WatchTable.update table token fun watch =>
          { watch with interest }) same
  case modifyFailed token descriptor interest cause =>
    obtain ⟨⟨watch, present, rfl⟩, same⟩ := covers
    cases answers with
    | modifyFailed _ _ _ _ refused =>
      exact absurd refused (agrees.lists.reregister_ok (same ▸ present) _ cause)
  case delete watch =>
    obtain ⟨token, present, same⟩ := covers
    cases answers with
    | deleted _ file pollable =>
      have lists := agrees.lists.forget present pollable
      have bounded : ∀ other ∈ (table.remove token).tokens, other < wired.context.nextToken :=
        fun other member => agrees.bounded other ((List.filter_sublist.map _).subset member)
      rcases ContextStage.afterDelete_cases watch .removed with ⟨-, after⟩ | ⟨callback, -, after⟩
      · exact ⟨_, _, rfl, .of_covers lists bounded rfl (after ▸ same),
          .deleted watch _ (Or.inl after) rfl rfl⟩
      · exact ⟨_, _, rfl, .of_covers lists bounded rfl (after ▸ same),
          .deleted watch _ (Or.inr ⟨callback, after⟩) rfl rfl⟩
  case deleteFailed watch cause =>
    obtain ⟨token, present, -⟩ := covers
    cases answers with
    | deleteFailed _ _ refused => exact absurd refused (agrees.lists.deregister_ok present cause)
  all_goals first
    | exact absurd rfl polls
    | cases responds

/-- Every turn of an operation keeps the agreement and does one of the listed things. -/
theorem Agrees.own (agrees : Agrees poller wired table) (orderly : wired.context.Orderly)
    (tasks : wired.context.tasks = stage :: rest) (kept : stage.forfeits = false)
    (happens : wired.Happens poller event next) (own : event.isOwn = true) :
    Advances poller wired next stage rest := by
  have waits : ∀ {timeout kernel},
      wired.kernel.respond? poller (.wait wired.context.maxEvents (waitMillis timeout)) =
        some (.events [], kernel) → kernel.Lists poller table := fun responds =>
    (agrees.lists.answers (Kernel.respond?_some responds) rfl).1
  cases happens with
  | answered tasks' asks step =>
    obtain ⟨rfl, rfl⟩ := List.cons.inj (tasks'.symm.trans tasks)
    exact agrees.answered orderly tasks kept asks step
  | served tasks' responds found step =>
    obtain ⟨rfl, rfl⟩ := List.cons.inj (tasks'.symm.trans tasks)
    exact agrees.served orderly tasks responds step
  | waits tasks' responds =>
    obtain ⟨rfl, rfl⟩ := List.cons.inj (tasks'.symm.trans tasks)
    exact agrees.polled tasks rfl nofun (waits responds) tasks rfl rfl rfl
  | interrupted tasks' responds | timedOut tasks' _ responds =>
    obtain ⟨rfl, rfl⟩ := List.cons.inj (tasks'.symm.trans tasks)
    exact agrees.polled tasks rfl nofun (waits responds) rfl rfl rfl rfl
  | _ => cases own

end Wired

/-! ### The rest of the program -/

/-- Whether a descriptor is watched. -/
def Context.holds (context : Context) (descriptor : Descriptor) : Bool :=
  context.table.descriptors.contains descriptor ||
    context.tasks.head?.any fun stage => stage.holds? == some descriptor

/-- Whether an event leaves alone what a context relies on: its poller stays what it is, and no
watched descriptor is closed. -/
def Turn.harmless (turn : Turn) : Bool :=
  match turn.event with
  | .broken => false
  | .changed call => call.closes?.all fun descriptor => !turn.before.context.holds descriptor
  | _ => true

namespace Wired

variable {poller : PollerId} {wired next : Wired} {event : SessionEvent} {table : WatchTable}

/-- What is in the interest list is watched. -/
theorem Agrees.holds (agrees : Agrees poller wired table) {descriptor : Descriptor}
    (member : descriptor ∈ table.descriptors) : wired.context.holds descriptor = true := by
  rw [Context.holds, Bool.or_eq_true, List.contains_iff_mem]
  cases tasks : wired.context.tasks with
  | nil =>
    rw [agrees.idle tasks]
    exact Or.inl member
  | cons stage rest =>
    rw [List.head?_cons, Option.any_some]
    obtain same | ⟨token, own, _, _, rfl, same⟩ | ⟨watch, token, rfl, present, same⟩ :=
      (agrees.covers stage rest tasks).cases
    · exact Or.inl (same ▸ member)
    · rw [← same, WatchTable.descriptors, List.map_append] at member
      rcases List.mem_append.mp member with member | member
      · exact Or.inl member
      · cases List.mem_singleton.mp member
        exact Or.inr (beq_self_eq_true _)
    · obtain ⟨entry, listed, rfl⟩ := List.mem_map.mp member
      by_cases own : entry.1 = token
      · cases agrees.lists.entry_eq present listed own
        exact Or.inr (beq_self_eq_true _)
      · rw [same]
        exact Or.inl (List.mem_map_of_mem (List.mem_filter.mpr ⟨listed, bne_iff_ne.mpr own⟩))

/-- The rest of the program does nothing to the registrations. -/
theorem Agrees.aside (agrees : Agrees poller wired table)
    (happens : wired.Happens poller event next) (other : event.isOwn = false)
    (harmless : Turn.harmless { before := wired, event, after := next } = true) :
    Agrees poller next table ∧ Same poller wired next := by
  have changed : ∀ {kernel : Kernel}, kernel.Lists poller table ∧
      kernel.registrations poller = wired.kernel.registrations poller →
      Agrees poller { wired with kernel } table ∧ Same poller wired { wired with kernel } :=
    fun lists => ⟨⟨lists.1, agrees.bounded, agrees.idle, agrees.covers⟩, rfl, rfl, lists.2⟩
  cases happens with
  | called call yields =>
    have same := agrees.settled (Context.holds?_of_yields yields)
    rw [Context.begin_eq]
    have opens := call.first_opens wired.context.nextToken
    refine ⟨.of_covers agrees.lists agrees.bounded rfl ?_, rfl, rfl, rfl⟩
    generalize call.first wired.context.nextToken = stage at opens
    cases opens with
    | add => exact ⟨rfl, same⟩
    | _ => exact same
  | signalled => exact changed agrees.lists.signal
  | changed call =>
    obtain ⟨news, serves⟩ := wired.kernel.perform_serves call
    refine changed (agrees.lists.serves serves fun descriptor member closes => ?_)
    simp only [Turn.harmless, closes, Option.all_some, agrees.holds member] at harmless
    cases harmless
  | reordered ready same =>
    refine changed ⟨agrees.lists.setPoller rfl rfl, ?_⟩
    rw [Kernel.registrations, Kernel.reorder, Kernel.withList,
      Kernel.poller_setPoller agrees.lists.inside]
    rfl
  | elsewhere pollers inside =>
    have same : (wired.kernel.withOthers poller pollers).poller poller =
        wired.kernel.poller poller := Kernel.poller_withOthers inside
    obtain ⟨-, usable, regular, listed, pollable, tokens, descriptors⟩ := agrees.lists
    have registrations : (wired.kernel.withOthers poller pollers).registrations poller =
        wired.kernel.registrations poller := congrArg (fun poller => poller.list.registrations) same
    exact changed ⟨⟨Nat.lt_of_lt_of_eq inside List.length_set.symm, same ▸ usable, regular,
      registrations.trans listed, pollable, tokens, descriptors⟩, registrations⟩
  | broken => cases harmless
  | _ => cases other

end Wired

/-- In a session in which nothing harms the context, its table agrees with the interest list at
every moment. -/
theorem Session.agrees {poller : PollerId} {history : List Turn} {wired : Wired}
    (session : Session poller history wired) (harmless : ∀ turn ∈ history, turn.harmless = true) :
    ∃ table, wired.Agrees poller table := by
  induction session with
  | start connection =>
    have regular : Kernel.Regular { pollers := connection.others } := nofun
    exact ⟨[], .created (Kernel.regular_perform regular connection.calls) connection.created, nofun,
      fun _ => rfl, nofun⟩
  | step session possible inductionHypothesis =>
    obtain ⟨table, agrees⟩ :=
      inductionHypothesis fun turn member => harmless turn (List.mem_cons_of_mem _ member)
    have happens := Wired.after?_some possible
    cases own : SessionEvent.isOwn _ with
    | true =>
      obtain ⟨stage, rest, tasks, -⟩ := happens.own_cases own
      obtain ⟨-, after, -, agrees', -⟩ := agrees.own (Session.orderly session) tasks
        (Session.forfeits session stage (tasks ▸ List.mem_cons_self)) happens own
      exact ⟨after, agrees'⟩
    | false => exact ⟨table, (agrees.aside happens own (harmless _ List.mem_cons_self)).1⟩

/-- In such a session every turn of an operation does one of the listed things. -/
theorem Session.advances {poller : PollerId} {history : List Turn} {wired next : Wired}
    {event : SessionEvent} {stage : ContextStage} {rest : List ContextStage}
    (session : Session poller history wired) (harmless : ∀ turn ∈ history, turn.harmless = true)
    (tasks : wired.context.tasks = stage :: rest) (happens : wired.Happens poller event next)
    (own : event.isOwn = true) : wired.Advances poller next stage rest := by
  obtain ⟨table, agrees⟩ := session.agrees harmless
  exact agrees.own session.orderly tasks (session.forfeits stage (tasks ▸ List.mem_cons_self))
    happens own

end MessagePump

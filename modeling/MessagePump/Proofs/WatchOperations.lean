/-
This file follows each call of `watch`, `rewatch` and `unwatch` up to its result, in sessions in
which nothing harms the context.

A call that fails has changed nothing: whatever is different when it returns was done by operations
that were called while its callback was destroyed. A call for a token that is in the table does not
fail: the system cannot refuse it, and no other operation can come between its turns. Such a call
takes three turns at most before it returns, and only the code of others that it waits for can keep
it from returning.
-/

import MessagePump.Proofs.InterestAgreement

namespace MessagePump

/-! ### Turns -/

/-- What needs no answer of the system can always go on. -/
theorem Context.advanceTop?_done (context : Context) (rest : List ContextStage)
    {stage : ContextStage} (own : (context.stageRequest stage).asksSystem = false)
    (sound : stage ≠ .conflicted) (running : stage ≠ .aborting) :
    ∃ advanced, context.advanceTop? rest stage .done = some advanced := by
  cases stage with
  | collecting events | dispatching events => cases events <;> exact ⟨_, rfl⟩
  | discarding callback after =>
    cases after with
    | dispatch ready => exact ⟨_, rfl⟩
    | finish result => cases result <;> exact ⟨_, rfl⟩
  | conflicted => exact absurd rfl sound
  | aborting => exact absurd rfl running
  | adding | modifying | deleting | waiting => cases own
  | _ => exact ⟨_, rfl⟩

namespace Wired

variable {poller : PollerId} {wired next : Wired} {event : SessionEvent}
  {stage moved : ContextStage} {rest : List ContextStage}

/-- An operation that goes on from its turn has come to one of the listed stages. -/
theorem Advances.proceeds (advances : Advances poller wired next stage rest)
    (tasks : next.context.tasks = moved :: rest) :
    Proceeds poller wired next stage (some moved) := by
  obtain ⟨moved?, table, tasks', -, proceeds⟩ := advances
  cases moved? with
  | none =>
    have length := congrArg List.length (tasks'.symm.trans tasks)
    exact absurd length (Nat.ne_of_lt (Nat.lt_succ_self _))
  | some other =>
    obtain ⟨rfl, -⟩ := List.cons.inj (tasks'.symm.trans tasks)
    exact proceeds

/-- Only an operation that has ended returns. -/
theorem Proceeds.ended (proceeds : Proceeds poller wired next stage none) :
    ∃ result, stage = .ended result := by
  cases proceeds with
  | returned result => exact ⟨result, rfl⟩

/-- An operation that has ended returns with its next turn. -/
theorem Proceeds.of_ended {result : ContextResult} {moved? : Option ContextStage}
    (proceeds : Proceeds poller wired next (.ended result) moved?) : moved? = none := by
  cases proceeds with
  | polled _ _ _ busy => exact absurd rfl (busy result)
  | returned => rfl

/-- An operation is never stuck: it can go on by itself or the system has an answer for it, unless
it has aborted the program. -/
theorem after?_possible (poller : PollerId) (orderly : wired.context.Orderly)
    (tasks : wired.context.tasks = stage :: rest) (running : stage ≠ .aborting) :
    ∃ event next, event.isOwn = true ∧ wired.after? poller event = some next := by
  have sound : stage ≠ .conflicted := by
    rintro rfl
    exact orderly.sound (tasks ▸ rfl)
  cases asks : (wired.context.stageRequest stage).asksSystem with
  | false =>
    obtain ⟨advanced, done⟩ := wired.context.advanceTop?_done rest asks sound running
    refine ⟨.answered .done, { wired with context := advanced.1 }, rfl, ?_⟩
    simp only [after?, request?_cons tasks, Option.any_some, asks, Bool.false_eq_true, if_false,
      answer?, Context.advance?, tasks, done, Option.map_some]
  | true =>
    have change : ∀ result, wired.kernel.respond? poller (wired.context.stageRequest stage) =
        some (wired.kernel.answerChange result) →
        (∃ advanced, wired.context.advanceTop? rest stage .done = some advanced) →
        (∀ cause, ∃ advanced,
          wired.context.advanceTop? rest stage (.failed cause) = some advanced) →
        ∃ next, wired.after? poller .served = some next := by
      rintro (cause | after) responds ⟨advanced, done⟩ failed
      · obtain ⟨advanced, failed⟩ := failed cause
        exact ⟨_, after?_served tasks responds (by simp) failed⟩
      · exact ⟨_, after?_served tasks responds (by simp) done⟩
    refine ⟨.served, ?_⟩
    suffices ∃ next, wired.after? poller .served = some next from this.imp fun _ => And.intro rfl
    cases stage with
    | adding | modifying | deleting => exact change _ rfl ⟨_, rfl⟩ fun _ => ⟨_, rfl⟩
    | collecting events ready =>
      cases events with
      | nil => cases asks
      | cons event events =>
        simp only [Context.stageRequest] at asks
        split at asks
        · next wake =>
          have responds : wired.kernel.respond? poller
              (wired.context.stageRequest (.collecting (event :: events) ready)) =
              some (wired.kernel.answerChange (wired.kernel.drainWake poller)) := by
            simp only [Context.stageRequest, if_pos wake, Kernel.respond?]
          exact change _ responds ⟨_, rfl⟩ fun cause => ⟨_, if_pos wake⟩
        · cases asks
    | waiting timeout =>
      cases waits : wired.kernel.wait poller wired.context.maxEvents with
      | error cause =>
        have responds : wired.kernel.respond? poller
            (wired.context.stageRequest (.waiting timeout)) =
            some (.failed cause, wired.kernel) := by
          simp only [Context.stageRequest, Kernel.respond?, waits]
        exact ⟨_, after?_served tasks responds (by simp) rfl⟩
      | ok found =>
        obtain ⟨events, kernel⟩ := found
        have responds : wired.kernel.respond? poller
            (wired.context.stageRequest (.waiting timeout)) =
            some (.events events, kernel) := by
          simp only [Context.stageRequest, Kernel.respond?, waits]
        cases events with
        | nil => exact ⟨_, after?_waits tasks responds⟩
        | cons event events => exact ⟨_, after?_served tasks responds (by simp) rfl⟩
    | _ => cases asks

end Wired

/-! ### Tokens -/

/-- Whether a watch has been accepted and has not returned yet. -/
def ContextStage.accepts? : ContextStage → Option Token
  | .recording token .. | .ended (.watched token) => some token
  | _ => none

/-- The number of tokens that have been handed out. A watch that the system has accepted has its
token before it returns. -/
def Context.issued (context : Context) : Nat :=
  (context.tasks.head?.bind ContextStage.accepts?).getD context.nextToken

theorem Context.issued_cons {context : Context} {stage : ContextStage} {rest : List ContextStage}
    (tasks : context.tasks = stage :: rest) :
    context.issued = stage.accepts?.getD context.nextToken := by
  rw [issued, tasks, List.head?_cons, Option.bind_some]

theorem ContextStage.accepts?_of_callsOut {stage : ContextStage} (outside : stage.callsOut = true) :
    stage.accepts? = none := by
  cases stage <;> first | rfl | cases outside

theorem ContextStage.accepts?_of_ofPoll {stage : ContextStage} (polls : stage.ofPoll = true) :
    stage.accepts? = none := by
  cases stage with
  | ended result => cases result <;> first | rfl | cases polls
  | _ => first | rfl | cases polls

theorem ContextStage.accepts?_ended {result : ContextResult}
    (refused : ∀ token, result ≠ .watched token) : accepts? (.ended result) = none := by
  cases result with
  | watched token => exact absurd rfl (refused token)
  | _ => rfl

/-- Where other code has the thread all tokens have been handed out. -/
theorem Context.issued_of_callsOut {context : Context}
    (below : ∀ stage ∈ context.tasks, stage.callsOut = true) :
    context.issued = context.nextToken := by
  cases tasks : context.tasks with
  | nil => rw [issued, tasks, List.head?_nil, Option.bind_none, Option.getD_none]
  | cons stage rest =>
    have outside := below stage (tasks ▸ List.mem_cons_self)
    rw [issued_cons tasks, ContextStage.accepts?_of_callsOut outside, Option.getD_none]

theorem ContextCall.Opens.accepts? {nextToken : Token} {call : ContextCall}
    {stage : ContextStage} (opens : call.Opens nextToken stage) : stage.accepts? = none := by
  cases opens <;> rfl

namespace Wired

variable {poller : PollerId} {wired next : Wired} {event : SessionEvent} {stage : ContextStage}
  {moved? : Option ContextStage} {rest : List ContextStage}

/-- Whatever has been handed out is below the next token. -/
theorem Agrees.issued_le {table : WatchTable} (agrees : Agrees poller wired table) :
    wired.context.issued ≤ wired.context.nextToken := by
  cases tasks : wired.context.tasks with
  | nil => exact Nat.le_of_eq (by rw [Context.issued, tasks]; rfl)
  | cons stage rest =>
    have covers := agrees.covers stage rest tasks
    rw [Context.issued_cons tasks]
    cases stage with
    | recording token => exact covers.1 ▸ Nat.le_succ token
    | ended result =>
      cases result with
      | watched token => exact covers.1 ▸ Nat.le_succ token
      | _ => exact Nat.le_refl _
    | _ => exact Nat.le_refl _

/-- A token is handed out when a watch returns, and at no other moment. -/
theorem Proceeds.issued (proceeds : Proceeds poller wired next stage moved?)
    (tasks : wired.context.tasks = stage :: rest)
    (tasks' : next.context.tasks = moved?.toList ++ rest)
    (below : ∀ stage ∈ rest, stage.callsOut = true) :
    next.context.issued = wired.context.issued ∧ (∀ token, stage ≠ .ended (.watched token)) ∨
      ∃ token, stage = .ended (.watched token) ∧ wired.context.issued = token ∧
        next.context.issued = token + 1 := by
  have goes : ∀ moved, moved? = some moved → stage.accepts? = none → moved.accepts? = none →
      next.context.nextToken = wired.context.nextToken →
      next.context.issued = wired.context.issued := by
    rintro moved rfl before after nextToken
    rw [Context.issued_cons tasks', Context.issued_cons tasks, before, after, nextToken]
  cases proceeds with
  | added token _ _ _ latest _ nextToken =>
    refine Or.inl ⟨?_, nofun⟩
    rw [Context.issued_cons tasks', Context.issued_cons tasks]
    exact latest
  | recorded =>
    refine Or.inl ⟨?_, nofun⟩
    rw [Context.issued_cons tasks', Context.issued_cons tasks]
    rfl
  | refused _ _ _ _ _ same | found _ _ _ _ same | notFound _ _ _ same | notThere _ _ same =>
    exact Or.inl ⟨goes _ rfl rfl rfl same.nextToken, nofun⟩
  | modified _ _ _ _ nextToken | removed _ _ _ _ nextToken =>
    exact Or.inl ⟨goes _ rfl rfl rfl nextToken, nofun⟩
  | deleted watch moved after _ nextToken =>
    obtain rfl | ⟨callback, rfl⟩ := after <;> exact Or.inl ⟨goes _ rfl rfl rfl nextToken, nofun⟩
  | discarded callback result moved after refused same =>
    obtain rfl | ⟨message, rfl⟩ := after
    · exact Or.inl ⟨goes _ rfl rfl (ContextStage.accepts?_ended refused) same.nextToken, nofun⟩
    · exact Or.inl ⟨goes _ rfl rfl rfl same.nextToken, nofun⟩
  | polled stage moved before busy after _ nextToken =>
    refine Or.inl ⟨goes _ rfl (ContextStage.accepts?_of_ofPoll before)
      (ContextStage.accepts?_of_ofPoll after) nextToken, fun token => busy _⟩
  | returned result latest same =>
    have after : next.context.issued = wired.context.nextToken :=
      (Context.issued_of_callsOut (tasks' ▸ below)).trans same.nextToken
    rw [after, Context.issued_cons tasks]
    cases result with
    | watched token => exact Or.inr ⟨token, rfl, rfl, (latest token rfl).symm⟩
    | _ => exact Or.inl ⟨rfl, nofun⟩

/-- What others do hands out no token, nor does the call of an operation. -/
theorem Happens.issued_other (orderly : wired.context.Orderly)
    (happens : wired.Happens poller event next) (other : event.isOwn = false) :
    next.context.issued = wired.context.issued := by
  obtain ⟨call, rfl, yields, rfl⟩ | ⟨-, same⟩ := happens.other_cases other
  · have first := (call.first_opens wired.context.nextToken).accepts?
    rw [Context.issued_of_callsOut (orderly.callsOut yields), Context.begin_eq,
      Context.issued_cons rfl, first, Option.getD_none]
  · rw [same]

end Wired

/-- The number of tokens that have been handed out never shrinks. -/
theorem Session.issued_le {poller : PollerId} {history : List Turn} {wired next : Wired}
    {event : SessionEvent} (session : Session poller history wired)
    (harmless : ∀ turn ∈ history, turn.harmless = true)
    (happens : wired.Happens poller event next) :
    wired.context.issued ≤ next.context.issued := by
  cases own : event.isOwn with
  | true =>
    obtain ⟨stage, rest, tasks, -⟩ := happens.own_cases own
    have below := session.orderly.below
    rw [tasks] at below
    obtain ⟨moved?, after, tasks', -, proceeds⟩ := session.advances harmless tasks happens own
    obtain ⟨same, -⟩ | ⟨token, -, before, after⟩ := proceeds.issued tasks tasks' below
    · exact Nat.le_of_eq same.symm
    · rw [before, after]
      exact Nat.le_succ token
  | false => exact Nat.le_of_eq (happens.issued_other session.orderly own).symm

/-! ### Operations on watches -/

/-- The interest that a call declares. -/
def ContextCall.interest? : ContextCall → Option Interest
  | .watch _ interest _ | .rewatch _ interest => some interest
  | _ => none

/-- The token that a call names. -/
def ContextCall.token? : ContextCall → Option Token
  | .rewatch token _ | .unwatch token => some token
  | _ => none

/-- None of the turns that an operation has taken has changed anything. -/
def Operation.Quiet (poller : PollerId) (operation : Operation) : Prop :=
  ∀ turn ∈ operation.own, turn.before.Same poller turn.after

/-- Where an operation can stand in a session in which nothing harms the context, and what is known
of it then: which turns have changed nothing, how many there were, and that only what was asked for
without need is refused. -/
inductive Operation.Fits (poller : PollerId) (wired : Wired) (operation : Operation) :
    ContextStage → Prop
  | adding (token : Token) (descriptor : Descriptor) (interest : Interest) (callback : CallbackId)
      (call : operation.call = .watch descriptor interest callback)
      (quiet : operation.Quiet poller) :
    Fits poller wired operation (.adding token descriptor interest callback)
  | recording (token : Token) (descriptor : Descriptor) (interest : Interest)
      (callback : CallbackId) (call : operation.call = .watch descriptor interest callback) :
    Fits poller wired operation (.recording token descriptor interest callback)
  | watched (token : Token) (descriptor : Descriptor) (interest : Interest)
      (callback : CallbackId) (call : operation.call = .watch descriptor interest callback) :
    Fits poller wired operation (.ended (.watched token))
  | rejected (descriptor : Descriptor) (interest : Interest) (callback : CallbackId)
      (cause : IoError) (call : operation.call = .watch descriptor interest callback)
      (quiet : operation.Quiet poller) :
    Fits poller wired operation (.discarding callback (.finish (.failed cause)))
  | notWatched (descriptor : Descriptor) (interest : Interest) (callback : CallbackId)
      (result : ContextResult) (call : operation.call = .watch descriptor interest callback)
      (failed : ∀ token, result ≠ .watched token) (quiet : operation.Quiet poller) :
    Fits poller wired operation (.ended result)
  | finding (token : Token) (interest : Interest) (call : operation.call = .rewatch token interest)
      (fresh : operation.own = [])
      (table : wired.context.table = operation.start.context.table) :
    Fits poller wired operation (.finding token interest)
  | modifying (token : Token) (descriptor : Descriptor) (interest : Interest)
      (call : operation.call = .rewatch token interest) (quiet : operation.Quiet poller)
      (short : operation.own.length ≤ 1) :
    Fits poller wired operation (.modifying token descriptor interest)
  | changed (token : Token) (interest : Interest) (call : operation.call = .rewatch token interest)
      (short : operation.own.length ≤ 2) :
    Fits poller wired operation (.ended .changed)
  | notChanged (token : Token) (interest : Interest) (cause : IoError)
      (call : operation.call = .rewatch token interest) (quiet : operation.Quiet poller)
      (dead : interest.isEmpty = true ∨ operation.start.context.table.find? token = none)
      (short : operation.own.length ≤ 1) :
    Fits poller wired operation (.ended (.failed cause))
  | removing (token : Token) (call : operation.call = .unwatch token) (fresh : operation.own = [])
      (table : wired.context.table = operation.start.context.table) :
    Fits poller wired operation (.removing token)
  | deleting (token : Token) (watch : Watch) (call : operation.call = .unwatch token)
      (older : token < wired.context.issued) (short : operation.own.length ≤ 1) :
    Fits poller wired operation (.deleting watch)
  | forgetting (token : Token) (callback : CallbackId) (call : operation.call = .unwatch token)
      (older : token < wired.context.issued) (short : operation.own.length ≤ 2) :
    Fits poller wired operation (.discarding callback (.finish .removed))
  | removed (token : Token) (result : ContextResult) (call : operation.call = .unwatch token)
      (gone : result = .removed ∨ ∃ message, result = .panicked message)
      (short : operation.own.length ≤ 3) :
    Fits poller wired operation (.ended result)
  | notRemoved (token : Token) (cause : IoError) (call : operation.call = .unwatch token)
      (dead : operation.start.context.table.find? token = none)
      (short : operation.own.length ≤ 1) :
    Fits poller wired operation (.ended (.failed cause))
  | polling (timeout : Option Duration) (stage : ContextStage)
      (call : operation.call = .poll timeout) (polls : stage.ofPoll = true) :
    Fits poller wired operation stage

namespace Operation

variable {poller : PollerId} {wired next : Wired} {operation : Operation} {stage : ContextStage}

theorem Fits.first {call : ContextCall} (start : Wired)
    (opens : call.Opens start.context.nextToken stage) :
    Fits poller { start with context := start.context.begin call } { call, start, own := [] }
      stage := by
  have quiet : Quiet poller { call, start, own := [] } := fun _ member =>
    absurd member List.not_mem_nil
  have table : (start.context.begin call).table = start.context.table := by
    rw [Context.begin_eq]
  cases opens with
  | refuseWatch descriptor interest callback =>
    exact .rejected descriptor interest callback _ rfl quiet
  | add descriptor interest callback => exact .adding _ descriptor interest callback rfl quiet
  | refuseRewatch token interest empty =>
    exact .notChanged token interest _ rfl quiet (Or.inl empty) (Nat.zero_le 1)
  | find token interest => exact .finding token interest rfl rfl table
  | remove token => exact .removing token rfl rfl table
  | prepare timeout => exact .polling timeout _ rfl rfl

/-- Each turn of an operation takes it to the next of its stages. -/
theorem Fits.turn {table : WatchTable} {event : SessionEvent} {moved : ContextStage}
    {rest : List ContextStage} (fits : operation.Fits poller wired stage)
    (agrees : wired.Agrees poller table) (orderly : wired.context.Orderly)
    (tasks : wired.context.tasks = stage :: rest)
    (tasks' : next.context.tasks = moved :: rest)
    (proceeds : wired.Proceeds poller next stage (some moved)) :
    Fits poller next
      { operation with own := { before := wired, event, after := next } :: operation.own }
      moved := by
  have below := orderly.below
  rw [tasks] at below
  have older : ∀ token : Token, token < wired.context.issued → token < next.context.issued := by
    intro token earlier
    obtain ⟨same, -⟩ | ⟨_, rfl, -, -⟩ := proceeds.issued tasks tasks' below
    · exact Nat.lt_of_lt_of_eq earlier same.symm
    · cases proceeds.of_ended
  have quiet : wired.Same poller next → operation.Quiet poller → Quiet poller
      { operation with own := { before := wired, event, after := next } :: operation.own } := by
    intro same quiet turn member
    rcases List.mem_cons.mp member with rfl | member
    · exact same
    · exact quiet turn member
  cases fits with
  | adding token descriptor interest callback call kept =>
    cases proceeds with
    | added => exact .recording token descriptor interest callback call
    | refused _ _ _ _ cause same =>
      exact .rejected descriptor interest callback cause call (quiet same kept)
    | polled _ _ polls => cases polls
  | recording token descriptor interest callback call =>
    cases proceeds with
    | recorded => exact .watched token descriptor interest callback call
    | polled _ _ polls => cases polls
  | rejected descriptor interest callback cause call kept =>
    cases proceeds with
    | discarded _ _ _ after _ same =>
      obtain rfl | ⟨message, rfl⟩ := after <;>
        exact .notWatched descriptor interest callback _ call nofun (quiet same kept)
    | polled _ _ polls => cases polls
  | finding token interest call fresh table =>
    have none : operation.Quiet poller := fun _ member => absurd (fresh ▸ member) List.not_mem_nil
    have short : operation.own.length + 1 ≤ 1 := by rw [fresh]; exact Nat.le_refl 1
    cases proceeds with
    | found _ _ watch present same =>
      exact .modifying token _ interest call (quiet same none) short
    | notFound _ _ absent same =>
      exact .notChanged token interest _ call (quiet same none) (Or.inr (table ▸ absent)) short
    | polled _ _ polls => cases polls
  | modifying token descriptor interest call kept short =>
    cases proceeds with
    | modified => exact .changed token interest call (Nat.succ_le_succ short)
    | polled _ _ polls => cases polls
  | removing token call fresh table =>
    have short : operation.own.length + 1 ≤ 1 := by rw [fresh]; exact Nat.le_refl 1
    cases proceeds with
    | removed _ watch present =>
      have known := agrees.nodup.2 token (WatchTable.token_mem present)
      have all : wired.context.issued = wired.context.nextToken := Context.issued_cons tasks
      exact .deleting token watch call (older token (all ▸ known)) short
    | notThere _ absent same =>
      exact .notRemoved token _ call (table ▸ absent) short
    | polled _ _ polls => cases polls
  | deleting token watch call earlier short =>
    cases proceeds with
    | deleted _ _ after =>
      obtain rfl | ⟨callback, rfl⟩ := after
      · exact .removed token _ call (Or.inl rfl) (Nat.succ_le_succ (Nat.le_succ_of_le short))
      · exact .forgetting token callback call (older token earlier) (Nat.succ_le_succ short)
    | polled _ _ polls => cases polls
  | forgetting token callback call earlier short =>
    cases proceeds with
    | discarded _ _ _ after =>
      obtain rfl | ⟨message, rfl⟩ := after
      · exact .removed token _ call (Or.inl rfl) (Nat.succ_le_succ short)
      · exact .removed token _ call (Or.inr ⟨message, rfl⟩) (Nat.succ_le_succ short)
    | polled _ _ polls => cases polls
  | polling timeout stage call polls =>
    cases proceeds with
    | polled _ _ _ _ after => exact .polling timeout moved call after
    | discarded callback result _ after =>
      cases result with
      | panicked message =>
        obtain rfl | ⟨message, rfl⟩ := after <;> exact .polling timeout _ call rfl
      | _ => cases polls
    | _ => cases polls
  | watched | notWatched | changed | notChanged | removed | notRemoved => cases proceeds.of_ended

/-- What is known of an operation stays so while it calls out, and while the context is as it is. -/
theorem Fits.mono (fits : operation.Fits poller wired stage)
    (kept : stage.callsOut = true ∨ next.context.table = wired.context.table)
    (older : wired.context.issued ≤ next.context.issued) : operation.Fits poller next stage := by
  cases fits with
  | finding token interest call fresh table =>
    rcases kept with outside | kept
    · cases outside
    · exact .finding token interest call fresh (kept.trans table)
  | removing token call fresh table =>
    rcases kept with outside | kept
    · cases outside
    · exact .removing token call fresh (kept.trans table)
  | deleting token watch call earlier short =>
    exact .deleting token watch call (Nat.lt_of_lt_of_le earlier older) short
  | forgetting token callback call earlier short =>
    exact .forgetting token callback call (Nat.lt_of_lt_of_le earlier older) short
  | adding token descriptor interest callback call quiet =>
    exact .adding token descriptor interest callback call quiet
  | recording token descriptor interest callback call =>
    exact .recording token descriptor interest callback call
  | watched token descriptor interest callback call =>
    exact .watched token descriptor interest callback call
  | rejected descriptor interest callback cause call quiet =>
    exact .rejected descriptor interest callback cause call quiet
  | notWatched descriptor interest callback result call failed quiet =>
    exact .notWatched descriptor interest callback result call failed quiet
  | modifying token descriptor interest call quiet short =>
    exact .modifying token descriptor interest call quiet short
  | changed token interest call short => exact .changed token interest call short
  | notChanged token interest cause call quiet dead short =>
    exact .notChanged token interest cause call quiet dead short
  | removed token result call gone short => exact .removed token result call gone short
  | notRemoved token cause call dead short => exact .notRemoved token cause call dead short
  | polling timeout stage call polls => exact .polling timeout stage call polls

/-- Every operation is where it can stand. -/
theorem fits_followed (poller : PollerId) :
    Followed poller (fun turn => turn.harmless = true)
      (fun wired operation stage => operation.Fits poller wired stage) where
  fresh call _ _ _ := .first _ (call.first_opens _)
  own session harmless _ tasks fits happens own tasks' := by
    obtain ⟨table, agrees⟩ := session.agrees harmless
    exact fits.turn agrees session.orderly tasks tasks'
      ((session.advances harmless tasks happens own).proceeds tasks')
  aside session harmless _ happens other fits :=
    fits.mono (other.imp_right fun other => congrArg Context.table other.2)
      (session.issued_le harmless happens)

/-! ### Results -/

/-- A watch or a rewatch that fails has changed nothing. -/
theorem Fits.quiet {cause : IoError} (fits : operation.Fits poller wired (.ended (.failed cause)))
    (asks : operation.call.interest? ≠ none) : operation.Quiet poller := by
  cases fits with
  | notWatched _ _ _ _ _ _ quiet | notChanged _ _ _ _ quiet => exact quiet
  | removed _ _ call | notRemoved _ _ call | polling _ _ call => exact absurd (call ▸ rfl) asks

/-- A rewatch of a token in the table is done, if it asks for something. -/
theorem Fits.rewatched {result : ContextResult} {token : Token} {interest : Interest}
    (fits : operation.Fits poller wired (.ended result))
    (call : operation.call = .rewatch token interest) (some : interest.isEmpty = false)
    (live : operation.start.context.table.find? token ≠ none) : result = .changed := by
  cases fits with
  | changed => rfl
  | notChanged _ _ _ own _ dead =>
    cases own.symm.trans call
    rcases dead with empty | dead
    · cases empty.symm.trans some
    · exact absurd dead live
  | watched _ _ _ _ own | notWatched _ _ _ _ own | removed _ _ own | notRemoved _ _ own
  | polling _ _ own => cases own.symm.trans call

/-- An unwatch of a token in the table is done, whatever the destruction of the callback does. -/
theorem Fits.unwatched {result : ContextResult} {token : Token}
    (fits : operation.Fits poller wired (.ended result)) (call : operation.call = .unwatch token)
    (live : operation.start.context.table.find? token ≠ none) :
    result = .removed ∨ ∃ message, result = .panicked message := by
  cases fits with
  | removed _ _ _ gone => exact gone
  | notRemoved _ _ own dead =>
    cases own.symm.trans call
    exact absurd dead live
  | changed _ _ own | notChanged _ _ _ own | watched _ _ _ _ own | notWatched _ _ _ _ own
  | polling _ _ own => cases own.symm.trans call

/-- Neither takes more than three turns before it returns, nor does it abort the program. -/
theorem Fits.short (fits : operation.Fits poller wired stage)
    (names : operation.call.token? ≠ none) :
    operation.own.length ≤ 3 ∧ stage ≠ .aborting := by
  cases fits with
  | finding _ _ _ fresh | removing _ _ fresh =>
    rw [fresh]
    exact ⟨Nat.zero_le 3, nofun⟩
  | modifying _ _ _ _ _ short | notChanged _ _ _ _ _ _ short | deleting _ _ _ _ short
  | notRemoved _ _ _ _ short =>
    exact ⟨Nat.le_trans short (by decide), nofun⟩
  | changed _ _ _ short | forgetting _ _ _ _ short => exact ⟨Nat.le_succ_of_le short, nofun⟩
  | removed _ _ _ _ short => exact ⟨short, nofun⟩
  | adding _ _ _ _ call | recording _ _ _ _ call | watched _ _ _ _ call | rejected _ _ _ _ call
  | notWatched _ _ _ _ call | polling _ _ call => exact absurd (call ▸ rfl) names

end Operation

end MessagePump

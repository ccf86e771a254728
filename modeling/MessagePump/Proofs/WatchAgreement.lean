/-
This file proves what the callers of a context can rely on: the watches that the system has
registered are those in the table, and the table is what the calls that have returned amount to.

What the callers know is only what has been returned to them: `accepted` goes by the results alone,
without a look at the context. The table can be ahead of it, by the operation that is about to
return, and by every `unwatch` that is still destroying a callback, maybe with other operations
inside. `reported` says by how much at every moment, so that where the callers have the thread only
the unwatches in progress make a difference.
-/

import MessagePump.Proofs.WatchOperations

namespace MessagePump

/-! ### What has been accepted -/

/-- The watches with their interests after a call has returned. An unwatch that panics does so after
the watch has been removed. -/
def ContextCall.settle (watched : List (Token × Interest)) :
    ContextCall → ContextResult → List (Token × Interest)
  | .watch _ interest _, .watched token => watched ++ [(token, interest)]
  | .rewatch token interest, .changed =>
    watched.map fun entry => if entry.1 == token then (entry.1, interest) else entry
  | .unwatch token, .removed | .unwatch token, .panicked _ =>
    watched.filter fun entry => entry.1 != token
  | _, _ => watched

/-- The watches by the results that have been returned: their tokens, with the interests last
accepted. -/
def accepted (history : List Turn) : List (Token × Interest) :=
  (outcomes history).foldr (fun outcome watched => outcome.1.call.settle watched outcome.2) []

/-- The tokens that have been returned, the latest first. -/
def granted (history : List Turn) : List Token :=
  (outcomes history).filterMap fun outcome =>
    match outcome.2 with
    | .watched token => some token
    | _ => none

/-- Whether none of some operations is an unwatch of the token. -/
def spared (operations : List Operation) (entry : Token × Interest) : Bool :=
  operations.all fun operation => operation.call != .unwatch entry.1

/-- The result of an operation that the table shows already. -/
def ContextStage.shows? : ContextStage → Option ContextResult
  | .deleting _ => some .removed
  | .discarding _ (.finish result) => some result
  | .ended result => some result
  | _ => none

/-- The watches when the table shows what an operation at some stage has done. -/
def ContextCall.shown (watched : List (Token × Interest)) (call : ContextCall)
    (stage : ContextStage) : List (Token × Interest) :=
  stage.shows?.elim watched (call.settle watched)

/-- The watches that the table should hold, given what has happened. -/
def reported (history : List Turn) (context : Context) : List (Token × Interest) :=
  match operations history, context.tasks with
  | operation :: others, stage :: _ =>
    (operation.call.shown (accepted history) stage).filter (spared others)
  | _, _ => accepted history

/-- The tokens of a table with their interests. -/
def WatchTable.interests (table : WatchTable) : List (Token × Interest) :=
  table.map fun entry => (entry.1, entry.2.interest)

namespace WatchTable

variable {table : WatchTable}

theorem interests_of_terms {other : WatchTable} (same : other.terms = table.terms) :
    other.interests = table.interests := by
  have projected : ∀ table : WatchTable,
      table.interests = table.terms.map fun term => (term.1, term.2.2) := fun table => by
    simp only [interests, terms, List.map_map, Function.comp_def]
  rw [projected, projected, same]

theorem interests_amend (table : WatchTable) (token : Token) (interest : Interest) :
    (table.update token fun watch => { watch with interest }).interests =
      table.interests.map fun entry => if entry.1 == token then (entry.1, interest) else entry := by
  simp only [interests, update, List.map_map]
  refine List.map_congr_left fun entry _ => ?_
  simp only [Function.comp_apply]
  split <;> rfl

theorem interests_remove (table : WatchTable) (token : Token) :
    (table.remove token).interests = table.interests.filter fun entry => entry.1 != token := by
  rw [interests, interests, List.filter_map, remove]
  rfl

theorem find?_interests (table : WatchTable) (token : Token) :
    (table.find? token).map Watch.interest = table.interests.lookup token := by
  induction table with
  | nil => rfl
  | cons entry table inductionHypothesis =>
    rw [find?_cons, interests, List.map_cons, List.lookup_cons]
    split
    · next same => rw [same, beq_self_eq_true]; rfl
    · next other => rw [beq_false_of_ne other]; exact inductionHypothesis

end WatchTable

/-! ### One turn of an operation -/

/-- An event that is no answer returns from no operation. -/
theorem outcomes_open {earlier : List Turn} {turn : Turn}
    (busy : ∀ result, turn.before.context.tasks.head? ≠ some (.ended result)) :
    outcomes (turn :: earlier) = outcomes earlier := by
  rw [outcomes]
  split
  · next asked _ =>
    obtain ⟨stage, top, finishes⟩ := Option.map_eq_some_iff.mp asked
    exact absurd (Context.stageRequest_finish finishes ▸ top) (busy _)
  · rfl

theorem outcomes_other {earlier : List Turn} {turn : Turn} (other : turn.event.isOwn = false) :
    outcomes (turn :: earlier) = outcomes earlier := by
  obtain ⟨before, event, after⟩ := turn
  cases event <;> first | rfl | cases other

/-- An operation that has ended returns its result. -/
theorem outcomes_returned {earlier : List Turn} {turn : Turn} {answer : ContextAnswer}
    {result : ContextResult} {rest : List ContextStage} {operation : Operation}
    {others : List Operation} (event : turn.event = .answered answer)
    (tasks : turn.before.context.tasks = .ended result :: rest)
    (progress : operations earlier = operation :: others) :
    outcomes (turn :: earlier) = (operation, result) :: outcomes earlier := by
  simp only [outcomes, event, Wired.request?_cons tasks, Context.stageRequest, progress]

/-- What is known of a turn of an operation in a session in which nothing harms the context: it goes
on or it returns its result. -/
structure OwnTurn (poller : PollerId) (earlier : List Turn) (wired : Wired) (event : SessionEvent)
    (next : Wired) (stage : ContextStage) (rest : List ContextStage) (operation : Operation)
    (others : List Operation) (moved? : Option ContextStage) : Prop where
  tasks : wired.context.tasks = stage :: rest
  progress : operations earlier = operation :: others
  after : next.context.tasks = moved?.toList ++ rest
  proceeds : wired.Proceeds poller next stage moved?
  fits : operation.Fits poller wired stage
  around : ∀ pair ∈ others.zip rest, pair.1.Fits poller wired pair.2
  below : ∀ stage ∈ rest, stage.callsOut = true
  length : others.length = rest.length
  course : (∃ moved, moved? = some moved ∧ (∀ result, stage ≠ .ended result) ∧
      operations ({ before := wired, event, after := next } :: earlier) =
        { operation with
          own := { before := wired, event, after := next } :: operation.own } :: others ∧
      outcomes ({ before := wired, event, after := next } :: earlier) = outcomes earlier) ∨
    ∃ result, moved? = none ∧ stage = .ended result ∧
      operations ({ before := wired, event, after := next } :: earlier) = others ∧
      outcomes ({ before := wired, event, after := next } :: earlier) =
        (operation, result) :: outcomes earlier

theorem Session.own_turn {poller : PollerId} {earlier : List Turn} {wired next : Wired}
    {event : SessionEvent} (session : Session poller earlier wired)
    (harmless : ∀ turn ∈ earlier, turn.harmless = true)
    (possible : wired.after? poller event = some next) (own : event.isOwn = true) :
    ∃ stage rest operation others moved?,
      OwnTurn poller earlier wired event next stage rest operation others moved? := by
  have happens := Wired.after?_some possible
  obtain ⟨stage, rest, tasks, ends⟩ := happens.own_cases own
  obtain ⟨moved?, after, tasks', -, proceeds⟩ := session.advances harmless tasks happens own
  have length := session.operations_length
  have follow := session.follow (Operation.fits_followed poller) harmless
  have below := session.orderly.below
  rw [tasks] at length follow below
  obtain ⟨operation, others, progress⟩ := List.exists_cons_of_length_eq_add_one length
  rw [progress] at length
  rw [progress, List.zip_cons_cons] at follow
  refine ⟨stage, rest, operation, others, moved?, tasks, progress, tasks', proceeds,
    follow _ List.mem_cons_self, fun pair member => follow pair (List.mem_cons_of_mem _ member),
    below, Nat.succ.inj length, ?_⟩
  cases moved? with
  | some moved =>
    have busy : ∀ result, stage ≠ .ended result := by
      rintro result rfl
      cases proceeds.of_ended
    refine Or.inl ⟨moved, rfl, busy, operations_own own progress (by rw [tasks, tasks']; rfl),
      outcomes_open fun result top => ?_⟩
    rw [tasks] at top
    exact busy result (Option.some.inj top)
  | none =>
    obtain ⟨result, rfl⟩ := proceeds.ended
    have shorter : next.context.tasks.length < wired.context.tasks.length := by
      rw [tasks, tasks']
      exact Nat.lt_succ_self _
    have others' := (operations_ended own shorter).trans (congrArg List.tail progress)
    refine Or.inr ⟨result, rfl, rfl, others', ?_⟩
    obtain ⟨moved, goes⟩ | ⟨_, -, answered, -⟩ := ends
    · rw [goes, tasks] at shorter
      exact absurd shorter (Nat.lt_irrefl _)
    · exact outcomes_returned answered tasks progress

/-! ### Tokens -/

/-- The tokens that have been returned are those that have been handed out, in order. -/
theorem Session.granted_eq {poller : PollerId} {history : List Turn} {wired : Wired}
    (session : Session poller history wired) (harmless : ∀ turn ∈ history, turn.harmless = true) :
    granted history = (List.range wired.context.issued).reverse := by
  induction session with
  | start => rfl
  | @step earlier before event next session possible inductionHypothesis =>
    have past : ∀ turn ∈ earlier, Turn.harmless turn = true := fun turn member =>
      harmless turn (List.mem_cons_of_mem _ member)
    have same := inductionHypothesis past
    cases own : event.isOwn with
    | true =>
      obtain ⟨stage, rest, operation, others, moved?, turn⟩ := Session.own_turn session past possible own
      obtain ⟨kept, refused⟩ | ⟨token, rfl, issued, later⟩ :=
        turn.proceeds.issued turn.tasks turn.after turn.below
      · rw [kept, ← same]
        obtain ⟨moved, -, -, -, outcome⟩ | ⟨result, -, rfl, -, outcome⟩ := turn.course
        · rw [granted, outcome, granted]
        · rw [granted, outcome, List.filterMap_cons, granted]
          cases result with
          | watched token => exact absurd rfl (refused token)
          | _ => rfl
      · obtain ⟨-, -, busy, -⟩ | ⟨result, -, ended, -, outcome⟩ := turn.course
        · exact absurd rfl (busy _)
        · cases ended
          rw [later, List.range_succ, List.reverse_concat, ← issued, ← same, granted, outcome,
            issued]
          rfl
    | false =>
      rw [granted, outcomes_other own, ← granted, same]
      rw [(Wired.after?_some possible).issued_other (Session.orderly session) own]

/-! ### Interests -/

/-- What fails is not accepted. -/
theorem ContextCall.settle_failed (watched : List (Token × Interest)) (call : ContextCall)
    (cause : IoError) : call.settle watched (.failed cause) = watched := by
  cases call <;> rfl

/-- A poll watches nothing. -/
theorem ContextCall.shown_poll (watched : List (Token × Interest)) (timeout : Option Duration)
    (stage : ContextStage) : shown watched (.poll timeout) stage = watched := by
  rw [shown]
  cases stage.shows? <;> rfl

/-- What an operation that calls out has done to the table: an unwatch has removed its watch. -/
theorem Operation.Fits.shown {poller : PollerId} {wired : Wired} {operation : Operation}
    {stage : ContextStage} (fits : operation.Fits poller wired stage)
    (outside : stage.callsOut = true) (watched : List (Token × Interest)) :
    operation.call.shown watched stage =
      watched.filter fun entry => operation.call != .unwatch entry.1 := by
  have all : ∀ call : ContextCall, (∀ token, call ≠ .unwatch token) →
      watched = watched.filter fun entry => call != .unwatch entry.1 := fun call other =>
    (List.filter_eq_self.mpr fun entry _ => bne_iff_ne.mpr (other entry.1)).symm
  cases fits with
  | rejected _ _ _ _ call =>
    rw [call]
    exact all _ nofun
  | forgetting token callback call =>
    rw [call]
    refine List.filter_congr fun entry _ => ?_
    by_cases same : entry.1 = token
    · rw [same, bne_self_eq_false, bne_self_eq_false]
    · rw [bne_iff_ne.mpr same, bne_iff_ne.mpr fun call => same (ContextCall.unwatch.inj call).symm]
  | polling timeout stage call =>
    rw [call]
    exact (ContextCall.shown_poll watched timeout stage).trans (all _ nofun)
  | _ => cases outside

/-- Where other code has the thread, only the unwatches in progress are missing from what has been
accepted. -/
theorem Session.reported_eq {poller : PollerId} {history : List Turn} {wired : Wired}
    (session : Session poller history wired) (harmless : ∀ turn ∈ history, turn.harmless = true)
    (yields : wired.context.yields = true) :
    reported history wired.context = (accepted history).filter (spared (operations history)) := by
  have all : accepted history = (accepted history).filter (spared []) :=
    (List.filter_eq_self.mpr fun _ _ => rfl).symm
  cases tasks : wired.context.tasks with
  | nil =>
    have none : operations history = [] :=
      List.length_eq_zero_iff.mp (session.operations_length.trans (congrArg List.length tasks))
    rw [reported, none]
    exact all
  | cons stage rest =>
    obtain ⟨operation, others, progress, fits⟩ :=
      session.follow_top (Operation.fits_followed poller) harmless tasks
    have outside := session.orderly.callsOut yields stage (tasks ▸ List.mem_cons_self)
    simp only [reported, progress, tasks]
    rw [fits.shown outside, List.filter_filter]
    exact List.filter_congr fun entry _ => Bool.and_comm _ _

/-- A turn with which an operation goes on does to the table what it does to the accepted watches. A
watch that is recorded has a newer token than every unwatch around it. -/
theorem Operation.Fits.settles {poller : PollerId} {wired next : Wired} {operation : Operation}
    {stage moved : ContextStage} (fits : operation.Fits poller wired stage)
    (proceeds : wired.Proceeds poller next stage (some moved)) {watched : List (Token × Interest)}
    {others : List Operation}
    (newer : ∀ token, stage.accepts? = some token →
      ∀ interest, spared others (token, interest) = true)
    (before : wired.context.table.interests =
      (operation.call.shown watched stage).filter (spared others)) :
    next.context.table.interests = (operation.call.shown watched moved).filter (spared others) := by
  cases proceeds with
  | added _ _ _ _ _ table => rw [table, before]; rfl
  | found _ _ _ _ same => rw [same.table, before]; rfl
  | refused _ _ _ _ _ same | notFound _ _ _ same | notThere _ _ same =>
    rw [same.table, before]
    exact congrArg (List.filter _) (ContextCall.settle_failed watched _ _).symm
  | recorded token descriptor interest callback _ table =>
    cases fits with
    | recording _ _ _ _ call =>
      rw [call] at before ⊢
      rw [table, WatchTable.interests, List.map_append, ← WatchTable.interests, before]
      change _ = (watched ++ [(token, interest)]).filter _
      rw [List.filter_append, List.filter_cons_of_pos (newer token rfl interest)]
      rfl
    | polling _ _ _ polls => cases polls
  | modified token _ interest table =>
    cases fits with
    | modifying _ _ _ call =>
      rw [call] at before ⊢
      rw [table, WatchTable.interests_amend, before]
      change (watched.filter _).map _ = (watched.map _).filter _
      rw [List.filter_map]
      refine congrArg _ (List.filter_congr fun entry _ => ?_)
      simp only [Function.comp_apply, spared]
      split <;> rfl
    | polling _ _ _ polls => cases polls
  | removed token _ _ table =>
    cases fits with
    | removing _ call =>
      rw [call] at before ⊢
      rw [table, WatchTable.interests_remove, before]
      change (watched.filter _).filter _ = (watched.filter _).filter _
      rw [List.filter_filter, List.filter_filter]
      exact List.filter_congr fun entry _ => Bool.and_comm _ _
    | polling _ _ _ polls => cases polls
  | deleted _ _ after table =>
    rw [table, before]
    obtain rfl | ⟨callback, rfl⟩ := after <;> rfl
  | discarded callback result _ after _ same =>
    rw [same.table, before]
    obtain rfl | ⟨message, rfl⟩ := after
    · rfl
    · cases fits with
      | rejected _ _ _ _ call | forgetting _ _ call => rw [call]; rfl
      | polling _ _ call => rw [call, ContextCall.shown_poll, ContextCall.shown_poll]
  | polled _ _ polls busy after terms =>
    cases fits with
    | polling _ _ call =>
      rw [call] at before ⊢
      rw [ContextCall.shown_poll] at before ⊢
      rw [WatchTable.interests_of_terms terms, before]
    | watched | notWatched | changed | notChanged | removed | notRemoved =>
      exact absurd rfl (busy _)
    | _ => cases polls

/-- An unwatch that is destroying a callback has had a token that was handed out. -/
theorem Operation.Fits.older {poller : PollerId} {wired : Wired} {operation : Operation}
    {stage : ContextStage} {token : Token} (fits : operation.Fits poller wired stage)
    (outside : stage.callsOut = true) (call : operation.call = .unwatch token) :
    token < wired.context.issued := by
  cases fits with
  | forgetting _ _ own older =>
    cases own.symm.trans call
    exact older
  | rejected _ _ _ _ own | polling _ _ own => cases own.symm.trans call
  | _ => cases outside

/-- Nothing is shown of an operation that has just been called. -/
theorem ContextCall.Opens.shown {nextToken : Token} {call : ContextCall} {stage : ContextStage}
    (opens : call.Opens nextToken stage) (watched : List (Token × Interest)) :
    call.shown watched stage = watched := by
  cases opens <;> rfl

/-- The table is what has been accepted, together with what the operations in progress have done
already. -/
theorem Session.interests_eq {poller : PollerId} {history : List Turn} {wired : Wired}
    (session : Session poller history wired) (harmless : ∀ turn ∈ history, turn.harmless = true) :
    wired.context.table.interests = reported history wired.context := by
  induction session with
  | start => rfl
  | @step earlier before event next session possible inductionHypothesis =>
    have past : ∀ turn ∈ earlier, Turn.harmless turn = true := fun turn member =>
      harmless turn (List.mem_cons_of_mem _ member)
    have same := inductionHypothesis past
    have happens := Wired.after?_some possible
    cases own : event.isOwn with
    | true =>
      obtain ⟨stage, rest, operation, others, moved?, turn⟩ := Session.own_turn session past possible own
      obtain ⟨tasks, progress, after, proceeds, fits, around, below, length, course⟩ := turn
      simp only [reported, progress, tasks] at same
      obtain ⟨moved, rfl, -, ops, outcome⟩ | ⟨result, rfl, rfl, ops, outcome⟩ := course
      · have newer : ∀ token, stage.accepts? = some token →
            ∀ interest, spared others (token, interest) = true := by
          intro token accepts interest
          refine List.all_eq_true.mpr fun operation member => bne_iff_ne.mpr fun call => ?_
          rw [← List.map_fst_zip (Nat.le_of_eq length)] at member
          obtain ⟨pair, zipped, rfl⟩ := List.mem_map.mp member
          have older := (around pair zipped).older (below _ (List.of_mem_zip zipped).2) call
          rw [Context.issued_cons tasks, accepts] at older
          exact Nat.lt_irrefl token older
        have settled := fits.settles proceeds newer same
        simp only [reported, ops, after, accepted, outcome]
        exact settled
      · have yields : next.context.yields = true := by
          unfold Context.yields
          rw [after]
          cases rest with
          | nil => rfl
          | cons top rest => exact below top List.mem_cons_self
        rw [Session.reported_eq (.step session possible) harmless yields, ops, accepted, outcome]
        cases proceeds with
        | returned _ _ kept =>
          rw [kept.table, same]
          rfl
    | false =>
      have unchanged : ∀ after, accepted ({ before, event, after } :: earlier) =
          accepted earlier := fun after => congrArg (List.foldr _ []) (outcomes_other own)
      obtain ⟨call, rfl, yields, rfl⟩ | ⟨silent, kept⟩ := happens.other_cases own
      · simp only [reported, operations_called, unchanged, Context.begin_eq]
        rw [(call.first_opens _).shown, ← Session.reported_eq session past yields]
        exact same
      · have progress : operations ({ before, event, after := next } :: earlier) =
            operations earlier := operations_other own silent
        simp only [reported, progress, unchanged, kept]
        exact same

/-! ### Calls that nobody disturbs -/

/-- As long as no other operation is called, what has changed since the call of an operation was
changed by its own turns. -/
theorem Session.undisturbed {poller : PollerId} {later earlier : List Turn} {turn : Turn}
    {wired : Wired} {call : ContextCall} (session : Session poller (later ++ turn :: earlier) wired)
    (harmless : ∀ other ∈ later ++ turn :: earlier, other.harmless = true)
    (called : turn.event = .called call)
    (alone : ∀ other ∈ later, ∀ call, other.event ≠ .called call)
    (busy : turn.before.context.tasks.length < wired.context.tasks.length) :
    wired.context.tasks.length = turn.before.context.tasks.length + 1 ∧
      ∃ operation, operations (later ++ turn :: earlier) = operation :: operations earlier ∧
        operation.call = call ∧
        (operation.Quiet poller → turn.before.Same poller wired) := by
  induction later generalizing wired with
  | nil =>
    cases session with
    | step session possible =>
      obtain rfl : _ = SessionEvent.called call := called
      cases Wired.after?_some possible
      rw [Context.begin_eq]
      exact ⟨rfl, _, rfl, rfl, fun _ => ⟨rfl, rfl, rfl⟩⟩
  | cons other later inductionHypothesis =>
    cases session with
    | @step _ before event next session possible =>
      have past : ∀ turn' ∈ later ++ turn :: earlier, turn'.harmless = true := fun _ member =>
        harmless _ (List.mem_cons_of_mem _ member)
      have happens := Wired.after?_some possible
      have silent : ∀ other ∈ later, ∀ call, other.event ≠ .called call := fun other member =>
        alone other (List.mem_cons_of_mem _ member)
      cases own : event.isOwn with
      | true =>
        obtain ⟨stage, rest, operation, others, moved?, turn'⟩ :=
          Session.own_turn session past possible own
        obtain ⟨tasks, progress, after, -, -, -, -, -, course⟩ := turn'
        have longer : wired.context.tasks.length ≤ before.context.tasks.length := by
          rw [tasks, after]
          cases moved? with
          | none => exact Nat.le_succ _
          | some moved => exact Nat.le_refl _
        obtain ⟨length, innermost, progress', call', kept⟩ :=
          inductionHypothesis session past silent (Nat.lt_of_lt_of_le busy longer)
        obtain ⟨rfl, rfl⟩ := List.cons.inj (progress.symm.trans progress')
        obtain ⟨moved, rfl, -, ops, -⟩ | ⟨result, rfl, -⟩ := course
        · refine ⟨?_, _, ops, call', fun quiet => ?_⟩
          · rw [after]
            rw [tasks] at length
            exact length
          · exact (kept fun own member => quiet own (List.mem_cons_of_mem _ member)).trans
              (quiet _ List.mem_cons_self)
        · have shorter : wired.context.tasks.length = rest.length := congrArg List.length after
          rw [tasks, List.length_cons] at length
          rw [shorter, Nat.succ.inj length] at busy
          exact absurd busy (Nat.lt_irrefl _)
      | false =>
        obtain ⟨call', rfl, -⟩ | ⟨other, same⟩ := happens.other_cases own
        · exact absurd rfl (alone _ List.mem_cons_self call')
        · obtain ⟨table, agrees⟩ := Session.agrees session past
          have aside := (agrees.aside happens own (harmless _ List.mem_cons_self)).2
          rw [same] at busy ⊢
          obtain ⟨length, operation, progress, call', kept⟩ :=
            inductionHypothesis session past silent busy
          exact ⟨length, operation, (operations_other own other).trans progress, call',
            fun quiet => (kept quiet).trans aside⟩

/-! ### What callers can rely on -/

/-- The watches that the callers have, with the interests last accepted: what has been accepted
without the tokens that are being unwatched. -/
def standing (history : List Turn) : List (Token × Interest) :=
  (accepted history).filter (spared (operations history))

/-- The watches of a context agree with the registrations of its poller, as long as the poller stays
what it is and no descriptor is closed while it is watched.

Unless the innermost operation is between the two halves of its work, the interest list is the wake
signal and what is in the table, and no two watches share a descriptor. The tokens that have been
returned are the numbers from zero on, so none is returned twice, and the wake token is out of
reach. What others do, and the turns of a watch or a rewatch that fails, change nothing; if no other
operation is called meanwhile everything is as it was. A rewatch that asks for something and an
unwatch are done if the token is in the table, after three turns at most, each of which is possible.
What a context tells of its watches is what has been accepted. -/
theorem Session.watches_agree {poller : PollerId} {history : List Turn} {wired : Wired}
    (session : Session poller history wired) (harmless : ∀ turn ∈ history, turn.harmless = true) :
    (wired.context.tasks.head?.bind ContextStage.holds? = none →
      wired.kernel.registrations poller =
          Kernel.wakeRegistration :: wired.context.table.map wired.kernel.registrationOf ∧
        ∀ descriptor ∈ wired.context.table.descriptors, wired.kernel.Pollable descriptor) ∧
    wired.context.table.descriptors.Nodup ∧
    (wired.context.yields = true →
      granted history = (List.range wired.context.nextToken).reverse) ∧
    (granted history).Nodup ∧ (∀ token ∈ granted history, token < wired.context.nextToken) ∧
    ((granted history).length < wakeToken → wakeToken ∉ granted history) ∧
    (∀ turn ∈ history, turn.event.isOwn = false → turn.before.Same poller turn.after) ∧
    (∀ operation cause, (operation, .failed cause) ∈ outcomes history →
      operation.call.interest? ≠ none →
      ∀ turn ∈ operation.own, turn.before.Same poller turn.after) ∧
    (∀ later turn earlier call cause, history = later ++ turn :: earlier →
      turn.event = .called call → call.interest? ≠ none →
      (∀ other ∈ later, ∀ call, other.event ≠ .called call) →
      wired.context.tasks = .ended (.failed cause) :: turn.before.context.tasks →
      turn.before.Same poller wired) ∧
    (∀ operation result token, (operation, result) ∈ outcomes history →
      operation.start.context.interest? token ≠ none →
      (∀ interest, operation.call = .rewatch token interest → interest.isEmpty = false →
        result = .changed) ∧
      (operation.call = .unwatch token →
        result = .removed ∨ ∃ message, result = .panicked message)) ∧
    (∀ operation others, operations history = operation :: others →
      operation.call.token? ≠ none → operation.own.length ≤ 3 ∧
        ∃ event next, event.isOwn = true ∧ wired.after? poller event = some next) ∧
    (wired.context.yields = true →
      (∀ token, wired.context.interest? token = (standing history).lookup token) ∧
        wired.context.watchCount = (standing history).length) := by
  have followed := Operation.fits_followed poller
  obtain ⟨table, agrees⟩ := session.agrees harmless
  have tokens := session.granted_eq harmless
  refine ⟨fun between => ?_, agrees.nodup.1, fun yields => ?_, ?_, fun token member => ?_,
    fun few member => ?_, fun turn member other => ?_, ?_, ?_, ?_, ?_, fun yields => ?_⟩
  · rw [agrees.settled between]
    exact ⟨agrees.lists.listed, agrees.lists.pollable⟩
  · rw [tokens, Context.issued_of_callsOut (session.orderly.callsOut yields)]
  · rw [tokens]
    exact List.nodup_reverse.mpr List.nodup_range
  · rw [tokens, List.mem_reverse, List.mem_range] at member
    exact Nat.lt_of_lt_of_le member agrees.issued_le
  · rw [tokens, List.length_reverse, List.length_range] at few
    rw [tokens, List.mem_reverse, List.mem_range] at member
    exact Nat.lt_asymm few member
  · obtain ⟨later, earlier, rfl⟩ := List.append_of_mem member
    have past : ∀ turn ∈ earlier, turn.harmless = true := fun turn member =>
      harmless turn (List.mem_append_right later (List.mem_cons_of_mem _ member))
    obtain ⟨_, agrees⟩ := session.before.agrees past
    exact (agrees.aside (Wired.after?_some session.possible) other (harmless turn member)).2
  · intro operation cause returned asks
    obtain ⟨_, fits⟩ := session.follow_outcomes followed harmless _ returned
    exact fits.quiet asks
  · rintro later turn earlier call cause rfl called asks alone tasks
    obtain ⟨-, operation, progress, rfl, kept⟩ :=
      session.undisturbed harmless called alone (tasks ▸ Nat.lt_succ_self _)
    obtain ⟨_, _, progress', fits⟩ := session.follow_top followed harmless tasks
    obtain ⟨rfl, -⟩ := List.cons.inj (progress.symm.trans progress')
    exact kept (fits.quiet asks)
  · intro operation result token returned live
    obtain ⟨_, fits⟩ := session.follow_outcomes followed harmless _ returned
    have live := mt Option.map_eq_none_iff.mpr live
    exact ⟨fun interest call some => fits.rewatched call some live,
      fun call => fits.unwatched call live⟩
  · intro operation others progress names
    obtain ⟨stage, rest, tasks⟩ : ∃ stage rest, wired.context.tasks = stage :: rest :=
      List.exists_cons_of_length_eq_add_one
        (session.operations_length.symm.trans (congrArg List.length progress))
    obtain ⟨_, _, progress', fits⟩ := session.follow_top followed harmless tasks
    obtain ⟨rfl, -⟩ := List.cons.inj (progress.symm.trans progress')
    obtain ⟨short, running⟩ := fits.short names
    exact ⟨short, Wired.after?_possible poller session.orderly tasks running⟩
  · have interests := session.interests_eq harmless
    rw [session.reported_eq harmless yields, ← standing] at interests
    refine ⟨fun token => ?_, ?_⟩
    · rw [Context.interest?, WatchTable.find?_interests, interests]
    · rw [Context.watchCount, ← interests, WatchTable.interests, List.length_map]

/-- Two event counters, of which the first has something to read. -/
def twoCounters : List SystemCall := [.openFile (.counter 1), .openFile (.counter 0)]

/-- The first descriptor is watched, then once more, which the system refuses, and the second one is
watched. The callback of the first gives the second another interest and removes its own watch. -/
def ownRemoval : List SessionEvent :=
  [.called (.watch 0 .readable 7), .served, .answered .done, .answered .done,
    .called (.watch 0 .readable 8), .served, .answered .done, .answered .done,
    .called (.watch 1 .readable 9), .served, .answered .done, .answered .done,
    .called (.poll none), .answered .done, .served, .answered .done, .answered .done,
    .answered .done, .called (.rewatch 1 .both), .answered .done, .served, .answered .done,
    .called (.unwatch 0), .answered .done, .served, .answered .done]

theorem Session.watches_agree_ownRemoval :
    (∀ turn ∈ (played twoCounters 64 ownRemoval).1, turn.harmless = true) ∧
      (played twoCounters 64 ownRemoval).2.kernel.registrations 0 =
        [Kernel.wakeRegistration,
          { source := .file 1 1, wanted := Interest.both.flags, token := 1 }] ∧
      granted (played twoCounters 64 ownRemoval).1 = [1, 0] ∧
      standing (played twoCounters 64 ownRemoval).1 = [(1, .both)] ∧
      (played twoCounters 64 ownRemoval).2.context.interest? 1 = some .both := by
  have harmless : ∀ turn ∈ (played twoCounters 64 ownRemoval).1, turn.harmless = true := by decide
  have session := Session.of_played twoCounters 64 ownRemoval rfl rfl
  obtain ⟨registered, -, tokens, -, -, -, -, -, -, -, -, told⟩ :=
    Session.watches_agree session harmless
  refine ⟨harmless, ?_, ?_, by decide, ?_⟩
  · rw [(registered (by decide)).1]
    decide
  · rw [tokens (by decide)]
    decide
  · rw [(told (by decide)).1]
    decide

end MessagePump

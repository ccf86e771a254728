/-
This file follows the calls of `watch`, `rewatch` and `unwatch` that fail. The system may refuse
whatever it is asked, as it does when a watched descriptor has been closed.

A watch and a rewatch ask the system first and change the watches once it has agreed, so if they
fail nothing has changed. An unwatch takes its watch out of the table first. If the system then
refuses to forget the descriptor the call fails, but the watch is gone and stays gone; this is the
one change that a call that fails can have made.
-/

import MessagePump.Proofs.Dispatching
import MessagePump.Proofs.WatchOperations

namespace MessagePump

/-! ### Changes -/

/-- Whether the watches or the next token are other ones after a transition. -/
def ContextTransition.changes (transition : ContextTransition) : Bool :=
  decide (transition.after.table ≠ transition.before.table ∨
    transition.after.nextToken ≠ transition.before.nextToken)

theorem ContextTransition.changes_eq_false {transition : ContextTransition} :
    transition.changes = false ↔ transition.after.table = transition.before.table ∧
      transition.after.nextToken = transition.before.nextToken := by
  rw [changes, decide_eq_false_iff_not, not_or, not_ne_iff, not_ne_iff]

theorem WatchTable.remove_ne {table : WatchTable} {token : Token} {watch : Watch}
    (present : table.find? token = some watch) : table.remove token ≠ table := by
  intro same
  have gone := table.find?_remove_self token
  rw [same, present] at gone
  cases gone

theorem WatchTable.length_remove {table : WatchTable} {token : Token} {watch : Watch}
    (nodup : table.tokens.Nodup) (present : table.find? token = some watch) :
    (table.remove token).length + 1 = table.length := by
  induction table with
  | nil => cases present
  | cons entry table inductionHypothesis =>
    obtain ⟨fresh, nodup⟩ := List.nodup_cons.mp nodup
    rw [find?_cons] at present
    rw [remove_cons]
    split at present
    · next same =>
      rw [if_pos same.symm, same, (update_of_absent fresh id).2, List.length_cons]
    · next other =>
      rw [if_neg (Ne.symm other), List.length_cons, inductionHypothesis nodup present,
        List.length_cons]

namespace ContextCourse

/-- The transitions with which the operation has changed the watches or the next token. -/
def changes (course : ContextCourse) : List ContextTransition :=
  course.own.filter ContextTransition.changes

/-- A transition takes the watch under a token out of the table as it was at the call. -/
structure Removes (course : ContextCourse) (token : Token) (removal : ContextTransition) :
    Prop where
  before : removal.before.table = course.start.table
  after : removal.after.table = course.start.table.remove token
  nextToken : removal.after.nextToken = course.start.nextToken

/-- Nothing has happened between the call and the last transition but the transitions of the
operation: no other operation has been called meanwhile. -/
def Alone (course : ContextCourse) (past : List ContextTransition)
    (last : ContextTransition) : Prop :=
  ∃ later call, past = later ++ last :: (course.own ++ call :: course.past)

/-- Why a call fails: it asks for nothing, it names no watch, or the system has refused. -/
inductive Refusal (course : ContextCourse) (cause : IoError) : Prop
  | empty (interest : Interest) (asks : course.call.interest? = some interest)
      (empty : interest.isEmpty = true) (same : cause = emptyInterest)
  | unknown (token : Token) (names : course.call.token? = some token)
      (absent : course.start.table.find? token = none) (same : cause = unknownToken)
  | system (transition : ContextTransition) (own : transition ∈ course.own)
      (answer : transition.event = .answered (.failed cause))

variable {course : ContextCourse} {transition : ContextTransition}

theorem Refusal.move {cause : IoError} (refusal : course.Refusal cause) :
    (course.move transition).Refusal cause := by
  cases refusal with
  | empty interest asks empty same => exact .empty interest asks empty same
  | unknown token names absent same => exact .unknown token names absent same
  | system refused own answer => exact .system refused (List.mem_cons_of_mem _ own) answer

theorem Removes.move {token : Token} {removal : ContextTransition}
    (removes : course.Removes token removal) : (course.move transition).Removes token removal :=
  ⟨removes.before, removes.after, removes.nextToken⟩

theorem changes_first (own : course.own = []) (changed : transition.changes = true) :
    (course.move transition).changes = [transition] := by
  rw [changes, move, own, List.filter_cons_of_pos changed, List.filter_nil]

theorem changes_still (table : transition.after.table = transition.before.table)
    (nextToken : transition.after.nextToken = transition.before.nextToken) :
    (course.move transition).changes = course.changes :=
  List.filter_cons_of_neg (Bool.eq_false_iff.mp
    (ContextTransition.changes_eq_false.mpr ⟨table, nextToken⟩))

end ContextCourse

/-! ### Failing calls, stage by stage -/

namespace ContextStage

/-- The error with which an operation is about to fail. -/
def fails? : ContextStage → Option IoError
  | .discarding _ (.finish (.failed cause)) | .ended (.failed cause) => some cause
  | _ => none

/-- Whether an unwatch can stand here when it has taken its watch out of the table. -/
def forgets : ContextStage → Bool
  | .deleting _ | .discarding _ (.finish _) | .ended _ | .aborting => true
  | _ => false

/-- Whether an operation that stands here does not fail. -/
def passes : ContextStage → Bool
  | .recording .. | .aborting => true
  | .ended (.failed _) => false
  | .ended _ => true
  | _ => false

theorem afterDelete_fails? (watch : Watch) (result : ContextResult) :
    (afterDelete watch result).fails? = (ended result).fails? ∧
      (afterDelete watch result).forgets = true := by
  rcases afterDelete_cases watch result with ⟨-, same⟩ | ⟨callback, -, same⟩ <;> rw [same]
  · exact ⟨rfl, rfl⟩
  · cases result <;> exact ⟨rfl, rfl⟩

end ContextStage

/-- Where an operation on the watches can stand, and what it has changed by then. -/
inductive Attempts (context : Context) (course : ContextCourse) : ContextStage → Prop
  | adding (token : Token) (descriptor : Descriptor) (interest : Interest) (callback : CallbackId)
      (call : course.call = .watch descriptor interest callback) (own : course.own = []) :
    Attempts context course (.adding token descriptor interest callback)
  | finding (token : Token) (interest : Interest) (call : course.call = .rewatch token interest)
      (own : course.own = []) (unmoved : course.Unmoved context) :
    Attempts context course (.finding token interest)
  | modifying (token : Token) (descriptor : Descriptor) (interest : Interest)
      (call : course.call = .rewatch token interest) (still : course.changes = []) :
    Attempts context course (.modifying token descriptor interest)
  | removing (token : Token) (call : course.call = .unwatch token) (own : course.own = [])
      (unmoved : course.Unmoved context) : Attempts context course (.removing token)
  | removed (stage : ContextStage) (token : Token) (watch : Watch) (removal : ContextTransition)
      (call : course.call = .unwatch token)
      (present : course.start.table.find? token = some watch) (changes : course.changes = [removal])
      (removes : course.Removes token removal) (forgets : stage.forgets = true)
      (why : ∀ cause, stage.fails? = some cause → course.Refusal cause) :
    Attempts context course stage
  | refused (stage : ContextStage) (cause : IoError) (fails : stage.fails? = some cause)
      (why : course.Refusal cause) (still : course.changes = [])
      (unknown : ∀ token, course.call = .unwatch token → course.start.table.find? token = none) :
    Attempts context course stage
  | passed (stage : ContextStage) (passes : stage.passes = true) : Attempts context course stage
  | polling (stage : ContextStage) (timeout : Option Duration)
      (call : course.call = .poll timeout) : Attempts context course stage

namespace Attempts

variable {context next : Context} {course : ContextCourse} {stage moved : ContextStage}
  {rest : List ContextStage} {answer : ContextAnswer}

/-- While code outside has the thread, the context is of no concern for what is known of an
operation. -/
theorem outside (attempts : Attempts context course stage) (callsOut : stage.callsOut = true) :
    Attempts next course stage := by
  cases attempts with
  | removed _ token watch removal call present changes removes forgets why =>
    exact .removed stage token watch removal call present changes removes forgets why
  | refused _ cause fails why still unknown => exact .refused stage cause fails why still unknown
  | passed _ passes => exact .passed stage passes
  | polling _ timeout call => exact .polling stage timeout call
  | adding | finding | modifying | removing => cases callsOut

/-- A request without an interest is refused at once; every other call starts its work. -/
theorem first {call : ContextCall} (past : List ContextTransition) (start : Context)
    (opens : call.Opens start.nextToken stage) :
    Attempts (start.begin call) { call, past, start, own := [] } stage := by
  have unmoved : ContextCourse.Unmoved { call, past, start, own := [] } (start.begin call) := by
    rw [Context.begin_eq]
    exact ⟨rfl, rfl⟩
  cases opens with
  | refuseWatch descriptor interest callback empty =>
    exact .refused _ emptyInterest rfl (.empty interest rfl empty rfl) rfl nofun
  | add descriptor interest callback => exact .adding _ descriptor interest callback rfl rfl
  | refuseRewatch token interest empty =>
    exact .refused _ emptyInterest rfl (.empty interest rfl empty rfl) rfl nofun
  | find token interest => exact .finding token interest rfl rfl unmoved
  | remove token => exact .removing token rfl rfl unmoved
  | prepare timeout => exact .polling _ timeout rfl

/-- The system has refused what a watch or a rewatch has asked for. -/
theorem of_system {cause : IoError} (failed : answer = .failed cause)
    (fails : moved.fails? = some cause) (table : next.table = context.table)
    (nextToken : next.nextToken = context.nextToken) (kept : course.changes = [])
    (other : ∀ token, course.call ≠ .unwatch token) :
    Attempts next (course.move ⟨context, .answered answer, next⟩) moved :=
  .refused _ cause fails (.system _ List.mem_cons_self (congrArg MachineEvent.answered failed))
    ((ContextCourse.changes_still table nextToken).trans kept)
    fun token call => absurd call (other token)

section Step

variable (after : next.tasks = moved :: rest) (step : context.Step rest stage answer next)
  (sound : next.tasks.head? ≠ some .conflicted)

include after step sound

/-- An unwatch takes its watch out of the table if there is one, and otherwise it is refused. -/
theorem step_removing {token : Token} (call : course.call = .unwatch token)
    (own : course.own = []) (unmoved : course.Unmoved context)
    (removing : stage = .removing token) :
    Attempts next (course.move ⟨context, .answered answer, next⟩) moved := by
  subst removing
  have untouched : course.changes = [] := by rw [ContextCourse.changes, own, List.filter_nil]
  cases step with
  | remove _ watch _ present =>
    cases after
    have removes : course.Removes token ⟨context, .answered .done,
        { context with table := context.table.remove token, tasks := .deleting watch :: rest }⟩ :=
      ⟨unmoved.table, congrArg (WatchTable.remove · token) unmoved.table, unmoved.nextToken⟩
    exact .removed _ token watch _ call (unmoved.table ▸ present)
      (ContextCourse.changes_first own (decide_eq_true (Or.inl (WatchTable.remove_ne present))))
      removes.move rfl nofun
  | removeNone _ _ absent =>
    cases after
    have absent := unmoved.table ▸ absent
    refine .refused _ unknownToken rfl
      (.unknown token (congrArg ContextCall.token? call) absent rfl)
      ((ContextCourse.changes_still rfl rfl).trans untouched) fun named same => ?_
    cases call.symm.trans same
    exact absent
  | conflict => exact absurd rfl sound

/-- An unwatch that has taken its watch out changes nothing any more. If the system refuses to
forget the descriptor, that is why it fails. -/
theorem step_removed {token : Token} {watch : Watch} {removal : ContextTransition}
    (call : course.call = .unwatch token) (present : course.start.table.find? token = some watch)
    (changes : course.changes = [removal]) (removes : course.Removes token removal)
    (forgets : stage.forgets = true)
    (why : ∀ cause, stage.fails? = some cause → course.Refusal cause) :
    Attempts next (course.move ⟨context, .answered answer, next⟩) moved := by
  have on : next.table = context.table → next.nextToken = context.nextToken →
      moved.forgets = true → (∀ cause, moved.fails? = some cause →
        (course.move ⟨context, .answered answer, next⟩).Refusal cause) →
      Attempts next (course.move ⟨context, .answered answer, next⟩) moved :=
    fun table nextToken forgets why => .removed _ token watch removal call present
      ((ContextCourse.changes_still table nextToken).trans changes)
      removes.move forgets why
  cases step with
  | delete gone =>
    cases after
    obtain ⟨fails, forgets⟩ := ContextStage.afterDelete_fails? gone .removed
    refine on rfl rfl forgets fun cause failed => ?_
    rw [fails] at failed
    cases failed
  | deleteFailed gone cause =>
    cases after
    obtain ⟨fails, forgets⟩ := ContextStage.afterDelete_fails? gone (.failed cause)
    refine on rfl rfl forgets fun other failed => ?_
    rw [fails] at failed
    exact Option.some.inj failed ▸ .system _ List.mem_cons_self rfl
  | discard callback result =>
    cases after
    refine on rfl rfl rfl fun cause failed => (why cause ?_).move
    cases result with
    | failed other => exact failed
    | _ => cases failed
  | discardPanicked | abort =>
    cases after
    exact on rfl rfl rfl nofun
  | finish => exact absurd (congrArg List.length after) (Nat.ne_of_lt (Nat.lt_succ_self _))
  | conflict => exact absurd rfl sound
  | _ => cases forgets

/-- An operation that has been refused has only its callback to destroy. -/
theorem step_refused {cause : IoError} (fails : stage.fails? = some cause)
    (why : course.Refusal cause) (kept : course.changes = [])
    (unknown : ∀ token, course.call = .unwatch token → course.start.table.find? token = none) :
    Attempts next (course.move ⟨context, .answered answer, next⟩) moved := by
  cases step with
  | discard callback result =>
    cases after
    cases result with
    | failed other =>
      exact .refused _ cause fails why.move ((ContextCourse.changes_still rfl rfl).trans kept)
        unknown
    | _ => cases fails
  | discardPanicked | abort =>
    cases after
    exact .passed _ rfl
  | finish => exact absurd (congrArg List.length after) (Nat.ne_of_lt (Nat.lt_succ_self _))
  | conflict => exact absurd rfl sound
  | _ => cases fails

/-- Each transition of an operation takes it to the next of its stages. -/
theorem move (attempts : Attempts context course stage) :
    Attempts next (course.move ⟨context, .answered answer, next⟩) moved := by
  have untouched : course.own = [] → course.changes = [] := fun own => by
    rw [ContextCourse.changes, own, List.filter_nil]
  cases attempts with
  | adding token descriptor interest callback call own =>
    cases step with
    | add =>
      cases after
      exact .passed _ rfl
    | addFailed =>
      cases after
      exact .of_system rfl rfl rfl rfl (untouched own) fun _ named => nomatch call.symm.trans named
    | conflict => exact absurd rfl sound
  | finding token interest call own unmoved =>
    cases step with
    | find _ _ watch =>
      cases after
      exact .modifying token watch.descriptor interest call
        ((ContextCourse.changes_still rfl rfl).trans (untouched own))
    | findNone _ _ _ absent =>
      cases after
      refine .refused _ unknownToken rfl
        (.unknown token (congrArg ContextCall.token? call) (unmoved.table ▸ absent) rfl)
        ((ContextCourse.changes_still rfl rfl).trans (untouched own)) fun token named => ?_
      cases call.symm.trans named
    | conflict => exact absurd rfl sound
  | modifying token descriptor interest call kept =>
    cases step with
    | modify =>
      cases after
      exact .passed _ rfl
    | modifyFailed =>
      cases after
      exact .of_system rfl rfl rfl rfl kept fun _ named => nomatch call.symm.trans named
    | conflict => exact absurd rfl sound
  | removing token call own unmoved => exact step_removing after step sound call own unmoved rfl
  | removed _ token watch removal call present changes removes forgets why =>
    exact step_removed after step sound call present changes removes forgets why
  | refused _ cause fails why kept unknown =>
    exact step_refused after step sound fails why kept unknown
  | passed _ passes =>
    cases step with
    | record =>
      cases after
      exact .passed _ rfl
    | finish => exact absurd (congrArg List.length after) (Nat.ne_of_lt (Nat.lt_succ_self _))
    | conflict => exact absurd rfl sound
    | _ => cases passes
  | polling _ timeout call => exact .polling moved timeout call

end Step

end Attempts

namespace Context

variable {capacity : Nat} {past : List ContextTransition} {context : Context}
  {course : ContextCourse} {last : ContextTransition}

/-- Each operation of a history is followed from its call on. -/
theorem attempts_followed (capacity : Nat) :
    machine.Followed { capacity } Attempts where
  idle := rfl
  fresh := by
    intro past context call next first history begun tasks
    obtain ⟨-, rfl⟩ := machine_called begun
    rw [begin_eq] at tasks
    exact (List.cons.inj tasks).1 ▸ .first past context (call.first_opens context.nextToken)
  own := by
    intro past context answer next stage moved rest course history advanced tasks after _ attempts
    obtain ⟨stage, rest, tasks', step⟩ := machine_answered advanced
    cases tasks.symm.trans tasks'
    exact attempts.move after step ((History.orderly history).step tasks step).sound
  aside := by
    intro past context event next stage course history accepted aside attempts
    refine attempts.outside ?_
    rcases aside with member | member
    · exact (History.orderly history).below stage member
    · exact (History.orderly (history.step accepted)).below stage member

/-- As long as nothing changes the watches or the next token, they are the same. -/
theorem History.unchanged {later earlier : List ContextTransition} {first : ContextTransition}
    (history : History capacity (later ++ first :: earlier) context)
    (still : ∀ other ∈ later, other.changes = false) :
    context.table = first.after.table ∧ context.nextToken = first.after.nextToken := by
  refine (history.lasting_while (motive := fun context => context.table = first.after.table ∧
    context.nextToken = first.after.nextToken) ?_ still ⟨rfl, rfl⟩).1
  intro past state event next _ _ same held
  obtain ⟨table, nextToken⟩ := ContextTransition.changes_eq_false.mp same
  exact ⟨table.trans held.1, nextToken.trans held.2⟩

/-- If no other operation has been called meanwhile, the own changes of an operation are all that
is different when it returns. -/
theorem History.alone {stage : ContextStage} {answer : ContextAnswer}
    (history : History capacity past context)
    (ended : machine.Ended Attempts past course last stage answer)
    (alone : course.Alone past last) :
    (course.changes = [] → course.Unmoved last.before) ∧
      ∀ removal token, course.changes = [removal] → course.Removes token removal →
        last.before.table = course.start.table.remove token ∧
          last.before.nextToken = course.start.nextToken := by
  obtain ⟨later, call, rfl⟩ := alone
  obtain ⟨since, first, split, start, called⟩ := ended.called
  have joined := (List.append_assoc later (last :: course.own) _).trans split
  obtain ⟨-, rfl⟩ := Machine.split_unique joined
  have before := history.before
  have begun := before.possible
  rw [called] at begun
  obtain ⟨-, begun⟩ := machine_called begun
  have opened : call.after.table = course.start.table ∧
      call.after.nextToken = course.start.nextToken := by
    rw [begun, begin_eq, start]
    exact ⟨rfl, rfl⟩
  refine ⟨fun none => ?_, fun removal token one removes => ?_⟩
  · obtain ⟨table, nextToken⟩ := History.unchanged before fun other member =>
      Bool.eq_false_iff.mpr (List.filter_eq_nil_iff.mp none other member)
    exact ⟨table.trans opened.1, nextToken.trans opened.2⟩
  · obtain ⟨newer, older, own, still, -, -⟩ := List.filter_eq_cons_iff.mp one
    rw [own, List.append_assoc] at before
    obtain ⟨table, nextToken⟩ := History.unchanged before fun other member =>
      Bool.eq_false_iff.mpr (still other member)
    exact ⟨table.trans removes.after, nextToken.trans removes.nextToken⟩

/-- A call of `watch`, `rewatch` or `unwatch` that fails has changed nothing, unless it is an
unwatch of a watch that there was: that one has been taken out of the table, and nothing else has
been changed. It fails because it asks for nothing, because it names no watch, or with the error
with which the system has refused. What else is different when it returns has been done by
operations that were called meanwhile. -/
theorem History.refused_operation (history : History capacity past context) {cause : IoError}
    (ended : (course, last) ∈ machine.endings past)
    (watching : ∀ timeout, course.call ≠ .poll timeout)
    (failed : last.result? = some (.failed cause)) :
    course.Refusal cause ∧ last.changes = false ∧
    ((∀ token, course.call = .unwatch token → course.start.interest? token = none) →
      course.changes = [] ∧
        (course.Alone past last → last.after.table = course.start.table ∧
          last.after.nextToken = course.start.nextToken)) ∧
    ∀ token, course.call = .unwatch token → course.start.interest? token ≠ none →
      ∃ removal, course.changes = [removal] ∧ course.Removes token removal ∧
        (course.Alone past last → last.after.nextToken = course.start.nextToken ∧
          last.after.watchCount + 1 = course.start.watchCount ∧
          ∀ key, last.after.interest? key =
            if key = token then none else course.start.interest? key) := by
  obtain ⟨stage, answer, ended⟩ :=
    Machine.History.follow_endings (attempts_followed capacity) history ended
  obtain ⟨result, rfl, returned, table, nextToken⟩ := result_of_ended ended
  cases returned.symm.trans failed
  have alone := fun alone => History.alone history ended alone
  refine ⟨?_, ContextTransition.changes_eq_false.mpr ⟨table, nextToken⟩, ?_⟩
  · cases ended.fits with
    | removed _ _ _ _ _ _ _ _ _ why => exact why cause rfl
    | refused _ _ fails why => exact Option.some.inj fails ▸ why
    | passed _ passes => cases passes
    | polling _ timeout call => exact absurd call (watching timeout)
  · cases ended.fits with
    | removed _ token watch removal call present changes removes =>
      have known : course.start.interest? token ≠ none := by
        rw [interest?, present, Option.map_some]
        exact Option.some_ne_none _
      refine ⟨fun unknown => absurd (unknown token call) known, fun named same _ => ?_⟩
      cases call.symm.trans same
      refine ⟨removal, changes, removes, fun undisturbed => ?_⟩
      obtain ⟨gone, same⟩ := (alone undisturbed).2 removal token changes removes
      obtain ⟨since, first, split, start, -⟩ := ended.called
      have nodup : course.start.table.tokens.Nodup := by
        rw [split] at history
        exact start ▸ (History.numbered history.before).nodup
      refine ⟨nextToken.trans same, ?_, fun key => ?_⟩
      · rw [watchCount, table, gone, watchCount, WatchTable.length_remove nodup present]
      · rw [interest?, table, gone, interest?]
        split
        · next same => rw [same, WatchTable.find?_remove_self, Option.map_none]
        · next other => rw [WatchTable.find?_remove_other _ other]
    | refused _ _ _ _ still unknown =>
      refine ⟨fun _ => ⟨still, fun undisturbed => ?_⟩, fun token call known => ?_⟩
      · obtain ⟨same, kept⟩ := (alone undisturbed).1 still
        exact ⟨table.trans same, nextToken.trans kept⟩
      · exact absurd (Option.map_eq_none_iff.mpr (unknown token call)) known
    | passed _ passes => cases passes
    | polling _ timeout call => exact absurd call (watching timeout)

/-- A watch is made. The system refuses to change its interest, and later to forget its descriptor;
what is destroyed with its callback makes another watch. -/
def refusedTwice : List (MachineEvent ContextCall ContextAnswer) :=
  [.called (.watch 5 .readable 10), .answered .done, .answered .done, .answered .done,
    .called (.rewatch 0 .both), .answered .done, .answered (.failed .badDescriptor),
    .answered .done,
    .called (.unwatch 0), .answered .done, .answered (.failed .badDescriptor),
    .called (.watch 6 .writable 11), .answered .done, .answered .done, .answered .done,
    .answered .done, .answered .done]

theorem History.refused_operation_twice :
    (∃ (course : ContextCourse) (last : ContextTransition),
      (course, last) ∈ machine.endings (played refusedTwice).1 ∧ course.call = .rewatch 0 .both ∧
        last.result? = some (.failed .badDescriptor) ∧ course.changes = [] ∧
        last.after.table = course.start.table) ∧
      ∃ (course : ContextCourse) (last removal : ContextTransition),
        (course, last) ∈ machine.endings (played refusedTwice).1 ∧ course.call = .unwatch 0 ∧
          last.result? = some (.failed .badDescriptor) ∧ course.changes = [removal] ∧
          course.Removes 0 removal := by
  have rewatched : ∃ (course : ContextCourse) (last : ContextTransition),
      (machine.endings (played refusedTwice).1)[2]? = some (course, last) ∧
        course.call = .rewatch 0 .both ∧ last.result? = some (.failed .badDescriptor) ∧
        (played refusedTwice).1 = (played refusedTwice).1.take 9 ++ last ::
          (course.own ++ (played refusedTwice).1[12] :: course.past) :=
    ⟨_, _, rfl, by decide, by decide, by decide⟩
  have unwatched : ∃ (course : ContextCourse) (last : ContextTransition),
      (machine.endings (played refusedTwice).1)[0]? = some (course, last) ∧
        course.call = .unwatch 0 ∧ last.result? = some (.failed .badDescriptor) ∧
        course.start.interest? 0 ≠ none :=
    ⟨_, _, rfl, by decide, by decide, by decide⟩
  obtain ⟨course, last, place, call, failed, alone⟩ := rewatched
  obtain ⟨gone, final, place', call', failed', known⟩ := unwatched
  have member := List.mem_of_getElem? place
  have member' := List.mem_of_getElem? place'
  refine ⟨⟨course, last, member, call, failed, ?_⟩, gone, final, ?_⟩
  · obtain ⟨-, -, kept, -⟩ := History.refused_operation (.of_played refusedTwice) member
      (fun _ same => nomatch call.symm.trans same) failed
    obtain ⟨still, unmoved⟩ := kept fun _ same => nomatch call.symm.trans same
    exact ⟨still, (unmoved ⟨_, _, alone⟩).1⟩
  · obtain ⟨-, -, -, removed⟩ := History.refused_operation (.of_played refusedTwice) member'
      (fun _ same => nomatch call'.symm.trans same) failed'
    obtain ⟨removal, changes, removes, -⟩ := removed 0 call' known
    exact ⟨removal, member', call', failed', changes, removes⟩

end Context

/-! ### A watch that is gone although its removal has failed -/

/-- An event counter is watched and closed. Then its watch is to be removed, which the system
refuses, and the same is tried once more. -/
def closedUnderneath : List SessionEvent :=
  [.called (.watch 0 .readable 7), .served, .answered .done, .answered .done, .changed (.close 0),
    .called (.unwatch 0), .answered .done, .served, .answered .done, .answered .done,
    .called (.unwatch 0), .answered .done, .answered .done]

/-- It is not so that a call that fails changes nothing. When the descriptor of a watch has been
closed, an unwatch fails, and the watch that was there before is not there any more. -/
theorem Session.lost_by_failure :
    ((outcomes (played [.openFile (.counter 0)] 64 closedUnderneath).1).map fun outcome =>
        (outcome.1.call, outcome.2, outcome.1.start.context.interest? 0,
          outcome.1.start.context.watchCount)) =
        [(.unwatch 0, .failed unknownToken, none, 0),
          (.unwatch 0, .failed .badDescriptor, some .readable, 1),
          (.watch 0 .readable 7, .watched 0, none, 0)] := by
  decide

end MessagePump

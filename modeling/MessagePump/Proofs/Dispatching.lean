/-
This file says which callbacks a poll starts, and what becomes of the watches whose callback
panics.

At its turn an event starts the callback of its watch exactly if the watch holds it. A watch that
is in the table holds its callback unless it is running or has panicked, so without panics a poll
starts the callbacks of those watches that are in the table and do not run. A callback that has
panicked has been destroyed, although its watch stays in the table: it is reported again and again,
and nothing is started.
-/

import MessagePump.Proofs.PollCycles

namespace MessagePump

/-! ### Turns and starts -/

theorem WatchTable.slot?_join (table : WatchTable) (token : Token) :
    (table.slot? token).join = (table.find? token).bind Watch.callback := by
  rw [slot?]
  cases table.find? token <;> rfl

namespace Context

variable {capacity : Nat} {past : List ContextTransition} {context next : Context} {token : Token}
  {event : MachineEvent ContextCall ContextAnswer}

/-- At its turn an event starts the callback that its watch holds; nothing else starts one. -/
theorem History.starts?_eq (history : History capacity past context)
    (accepted : machine.after? context event = some next) :
    ContextTransition.starts? ⟨context, event, next⟩ =
      (ContextTransition.turn? ⟨context, event, next⟩).bind fun entry =>
        (context.table.slot? entry.1).join.map fun callback => ⟨entry.1, entry.2, callback⟩ := by
  cases event with
  | called call => rfl
  | answered answer =>
    obtain ⟨stage, rest, tasks, step⟩ := machine_answered accepted
    have sound := (history.orderly.step tasks step).sound
    have turn : ContextTransition.turn? ⟨context, .answered answer, next⟩ = stage.turn? :=
      Machine.told?_answered tasks _ answer next
    rw [turn]
    simp only [ContextTransition.starts?, tasks]
    cases step with
    | take token readiness ready callback free present =>
      rw [ContextStage.turn?, Option.bind_some, WatchTable.slot?_join, present]
      rfl
    | skip token readiness ready free absent =>
      rw [ContextStage.turn?, Option.bind_some, WatchTable.slot?_join, absent]
      rfl
    | conflict => exact absurd rfl sound
    | _ => rfl

/-- While no callback is about to be put back, those that are out of the table are running. -/
theorem mem_carried_iff
    (same : ∀ stage ∈ context.tasks, stage.carries?.map Prod.fst = stage.executes?) :
    token ∈ context.carried.map Prod.fst ↔ context.executing token = true := by
  rw [executing_iff, carried, List.map_filterMap, List.mem_filterMap]
  refine exists_congr fun stage => and_congr_right fun member => ?_
  rw [same stage member]

theorem executes?_of_callsOut {stage : ContextStage} (outside : stage.callsOut = true) :
    stage.carries?.map Prod.fst = stage.executes? := by
  cases stage with
  | calling | discarding => rfl
  | _ => cases outside

theorem interest?_isSome (context : Context) (token : Token) :
    (context.interest? token).isSome = (context.table.slot? token).isSome := by
  rw [interest?, WatchTable.slot?, Option.isSome_map, Option.isSome_map]

/-- A watch in the table is without its callback if that is running or has panicked. -/
theorem History.empty_iff (history : History capacity past context)
    (same : ∀ stage ∈ context.tasks, stage.carries?.map Prod.fst = stage.executes?)
    {content : Option CallbackId} (present : context.table.slot? token = some content) :
    content = none ↔ context.executing token = true ∨ token ∈ lost past := by
  rw [history.staffed.empty token content present, missing, List.mem_append, mem_carried_iff same]

theorem tasks_of_turn {entry : Token × Readiness}
    (turn : ContextTransition.turn? ⟨context, event, next⟩ = some entry) :
    ∃ ready rest, context.tasks = .dispatching (entry :: ready) :: rest := by
  obtain ⟨answer, stage, rest, -, tasks, turn⟩ := Machine.stage_of_told? turn
  cases stage with
  | dispatching events =>
    cases events with
    | nil => cases turn
    | cons first ready =>
      cases turn
      exact ⟨ready, rest, tasks⟩
  | _ => cases turn

/-- At its turn an event starts a callback exactly if the watch is in the table and the callback
neither runs nor has panicked before. -/
theorem History.starts?_due (history : History capacity past context)
    (accepted : machine.after? context event = some next) :
    (ContextTransition.starts? ⟨context, event, next⟩).map Activation.entry =
      (ContextTransition.due? ⟨context, event, next⟩).filter fun entry => entry.1 ∉ lost past := by
  rw [history.starts?_eq accepted, ContextTransition.due?]
  cases turn : ContextTransition.turn? ⟨context, event, next⟩ with
  | none => rfl
  | some entry =>
    obtain ⟨ready, rest, tasks⟩ := tasks_of_turn turn
    have same : ∀ stage ∈ context.tasks, stage.carries?.map Prod.fst = stage.executes? := by
      rw [tasks]
      refine List.forall_mem_cons.mpr ⟨rfl, fun stage member => ?_⟩
      exact executes?_of_callsOut (history.orderly.callsOut_rest tasks stage member)
    rw [Option.bind_some, Option.filter_some, interest?_isSome]
    cases present : context.table.slot? entry.1 with
    | none => rfl
    | some content =>
      have empty := history.empty_iff same present
      cases content with
      | none =>
        rcases empty.mp rfl with running | gone
        · rw [running]
          rfl
        · cases context.executing entry.1 with
          | true => rfl
          | false => exact (if_neg (by simpa using gone)).symm
      | some callback =>
        obtain ⟨idle, kept⟩ := not_or.mp (mt empty.mpr nofun)
        rw [Bool.not_eq_true] at idle
        rw [idle]
        exact (if_pos (by simpa using kept)).symm

/-! ### What a poll has done -/

/-- Nothing has panicked: no callback, and no destructor of what a callback owns. -/
def Calm (past : List ContextTransition) : Prop := ∀ transition ∈ past, transition.panics = false

theorem Calm.lost (calm : Calm past) : Context.lost past = [] := by
  refine List.filterMap_eq_nil_iff.mpr fun transition member => ?_
  have unharmed := calm transition member
  obtain ⟨before, event, after⟩ := transition
  cases event with
  | called call => rfl
  | answered answer =>
    refine Option.bind_eq_none_iff.mpr fun stage _ => ?_
    cases answer with
    | panicked message => cases unharmed
    | _ => cases stage <;> rfl

theorem Calm.of_suffix {earlier : List ContextTransition} (calm : Calm past)
    (suffix : earlier <:+ past) : Calm earlier :=
  fun transition member => calm transition (suffix.subset member)

variable {course : ContextCourse} {last : ContextTransition} {timeout : Option Duration}

/-- An operation that has ended has returned a result, and its last step did nothing else. -/
theorem result_of_ended {fits : Context → ContextCourse → ContextStage → Prop}
    {stage : ContextStage} {answer : ContextAnswer}
    (ended : machine.Ended fits past course last stage answer) :
    ∃ result, stage = .ended result ∧ last.result? = some result ∧
      last.after.table = last.before.table ∧ last.after.nextToken = last.before.nextToken := by
  obtain ⟨event, advanced, before, after⟩ := ended
  obtain ⟨stage, rest, tasks, step⟩ := machine_answered advanced
  cases before.symm.trans tasks
  rcases step.tasks_cases with ⟨moved, goes⟩ | ⟨⟨result, rfl⟩, -, same⟩
  · have longer := congrArg List.length (after.symm.trans goes)
    exact absurd longer (Nat.ne_of_lt (Nat.lt_succ_self _))
  · refine ⟨result, rfl, ?_, same ▸ rfl, same ▸ rfl⟩
    rw [ContextTransition.result?, Machine.told?, event]
    change (last.before.tasks.head?.bind fun stage => stage.results?) = some result
    rw [tasks]
    rfl

/-- A watch keeps its callback unless that panics. Wherever outside code has the thread, a watch of
the table is without its callback exactly if the callback is running or has panicked, whatever
panics have been caught and wherever. A poll that returns without an error has given each reported
event its turn, and at its turn an event starts a callback exactly if the watch is in the table and
the callback neither runs nor has panicked. -/
theorem History.kept_unless_panicked (history : History capacity past context) :
    (context.yields = true → ∀ token, (context.interest? token).isSome = true →
      (context.table.slot? token = some none ↔
        context.executing token = true ∨ token ∈ lost past)) ∧
    (∀ (course : ContextCourse) (last : ContextTransition) (timeout : Option Duration),
      (course, last) ∈ machine.endings past → course.call = .poll timeout →
        last.result? = some .polled → course.turns = natives course.reported) ∧
    ∀ (later earlier : List ContextTransition) (transition : ContextTransition),
      past = later ++ transition :: earlier →
        transition.starts?.map Activation.entry =
          transition.due?.filter fun entry => entry.1 ∉ lost earlier := by
  refine ⟨?_, ?_, ?_⟩
  · intro yields token present
    rw [interest?_isSome] at present
    obtain ⟨content, present⟩ := Option.isSome_iff_exists.mp present
    have outside := history.orderly.callsOut yields
    rw [present, Option.some_inj]
    exact history.empty_iff (fun stage member => executes?_of_callsOut (outside stage member))
      present
  · intro course last timeout member call polled
    obtain ⟨stage, answer, ended⟩ :=
      Machine.History.follow_endings (polls_followed capacity) history member
    obtain ⟨result, rfl, returned, -, -⟩ := result_of_ended ended
    cases returned.symm.trans polled
    cases ended.fits timeout call with
    | polled reply waits completes drains turns =>
      rw [turns, ContextCourse.reported, waits, List.flatMap_singleton]
    | panicked _ unwinds => cases unwinds
    | visiting _ _ pending => cases pending
  · rintro later earlier transition rfl
    exact History.starts?_due history.before history.possible

/-- A descriptor is watched and reported, and the callback panics. The panic is caught outside the
poll, and the descriptor, which is still watched, is reported to another poll. -/
def panickedOnce : List (MachineEvent ContextCall ContextAnswer) :=
  [.called (.watch 5 .readable 10), .answered .done, .answered .done, .answered .done,
    .called (.poll none), .answered .done, .answered (.events [⟨0, .onlyInput⟩]),
    .answered .done, .answered .done, .answered .done, .answered (.panicked "boom"),
    .answered .done, .answered .done,
    .called (.poll none), .answered .done, .answered (.events [⟨0, .onlyInput⟩]),
    .answered .done, .answered .done, .answered .done, .answered .done, .answered .done]

theorem History.kept_unless_panicked_once :
    ((played panickedOnce).2.table.slot? 0 = some none ↔
        (played panickedOnce).2.executing 0 = true ∨ 0 ∈ lost (played panickedOnce).1) ∧
      lost (played panickedOnce).1 = [0] := by
  have lost : lost (played panickedOnce).1 = [0] := by decide
  exact ⟨(History.kept_unless_panicked (.of_played panickedOnce)).1 (by decide) 0 (by decide), lost⟩

/-- It is not so that each watch of the table has its callback whenever no callback runs, nor that a
watch that is still there is called by each poll that reports its descriptor. -/
theorem History.callback_lost :
    (played panickedOnce).2.tasks = [] ∧
      (played panickedOnce).2.interest? 0 = some .readable ∧
      (played panickedOnce).2.watchCount = 1 ∧
      (played panickedOnce).2.table.slot? 0 = some none ∧
      ((machine.endings (played panickedOnce).1).head?.map fun ended =>
        (ended.1.call, ContextTransition.result? ended.2, ContextCourse.waits ended.1,
          ContextCourse.starts ended.1)) =
        some (.poll none, some .polled, [.events [⟨0, .onlyInput⟩]], []) := by
  decide

end Context

end MessagePump

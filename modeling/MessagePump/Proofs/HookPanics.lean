/-
This file proves what becomes of a hook that panics.

A hook that runs is not in its slot, and only if it returns it is put back. One that panics is
destroyed while the panic goes through the notification that has started it. While a hook runs and
no other one is set the slot stays empty, so after the panic there is nothing in it: the line of
succession goes on with the hooks that run further out, and if there are none, nothing is started
and nothing is found by a clear until another hook is set.
-/

import MessagePump.Proofs.HookSuccession

namespace MessagePump

/-- Whether a stage belongs to a notification that is looking for a hook or has one. -/
def HookStage.fetches : HookStage → Bool
  | .taking | .running _ | .returning _ | .settling _ => true
  | _ => false

namespace HookSlot

variable {slot next : HookSlot} {stage : HookStage} {rest : List HookStage} {answer : HookAnswer}
  {past later earlier : List HookTransition} {transition panic : HookTransition}

/-! ### Where a running hook comes from -/

/-- What is known of an operation that runs a hook: it is a notification, and the hook was installed
when it was called. -/
structure Fetches (slot : HookSlot) (course : HookCourse) (stage : HookStage) : Prop where
  call : stage.fetches = true → course.call = .notify
  looking : stage = .taking → slot.installed = course.start.installed
  found : ∀ hook, stage.carries? = some hook → course.start.installed = some hook

theorem Fetches.idle {course : HookCourse} (none : stage.fetches = false) :
    Fetches slot course stage := by
  cases stage with
  | taking | running | returning | settling => cases none
  | _ => exact ⟨nofun, nofun, nofun⟩

/-- Each operation of a history is followed from its call on. -/
theorem fetches_followed : machine.Followed {} Fetches where
  idle := rfl
  fresh := by
    intro past slot call next first history begun tasks
    obtain ⟨-, rfl⟩ := machine_called begun
    rw [begin_eq] at tasks ⊢
    obtain rfl := (List.cons.inj tasks).1
    cases call with
    | notify => exact ⟨fun _ => rfl, fun _ => rfl, nofun⟩
    | set | clear => exact .idle rfl
  own := by
    intro past slot answer next stage moved rest course history advanced tasks after _ fetches
    obtain ⟨stage, rest, tasks', step⟩ := machine_answered advanced
    cases tasks.symm.trans tasks'
    have sound := ((History.orderly history).step tasks step).sound
    cases step with
    | take hook free present =>
      cases after
      refine ⟨fun _ => fetches.call rfl, nofun, fun other same => ?_⟩
      cases same
      exact (fetches.looking rfl).symm.trans present
    | hookReturned hook | borrow hook =>
      cases after
      exact ⟨fun _ => fetches.call rfl, nofun, fetches.found⟩
    | store | clear =>
      obtain rfl := List.head_eq_of_cons_eq after
      cases slot.installed <;> exact .idle rfl
    | finish => exact absurd (congrArg List.length after) (Nat.ne_of_lt (Nat.lt_succ_self _))
    | conflict => exact absurd rfl sound
    | _ =>
      cases after
      exact .idle rfl
  aside := by
    intro past slot event next stage course history accepted aside fetches
    have outside : stage.callsOut = true := aside.elim ((History.orderly history).below stage)
      ((History.orderly (history.step accepted)).below stage)
    refine ⟨fetches.call, fun same => ?_, fetches.found⟩
    cases same ▸ outside

/-- A hook that runs has been started by the notification that is the innermost operation, and it
was installed when that was called. -/
theorem History.fetched {hook : HookId} (history : History past slot)
    (tasks : slot.tasks = .running hook :: rest) :
    ∃ course others, machine.courses past = course :: others ∧ course.call = .notify ∧
      rest = course.start.tasks ∧ course.start.installed = some hook ∧ started course = [hook] := by
  obtain ⟨course, others, progress, below, fetches⟩ := history.innermost fetches_followed tasks
  obtain ⟨_, stages, notifies⟩ := history.follow_top notifies_followed progress
  obtain ⟨rfl, -⟩ := List.cons.inj (tasks.symm.trans stages)
  have present := fetches.found hook rfl
  refine ⟨course, others, progress, fetches.call rfl, below.symm, present, ?_⟩
  cases notifies (fetches.call rfl) with
  | found _ _ started => rw [started, present, Option.toList_some]

/-! ### While no hook is set -/

/-- As long as no hook is set the line of succession only gets shorter. -/
theorem History.line_since (history : History (later ++ transition :: earlier) slot)
    (unset : ∀ other ∈ later, other.stores? = none) :
    slot.line.Sublist transition.after.line ∧
      ∀ other ∈ later, other.before.line.Sublist transition.after.line :=
  Chronicle.lasting_while (motive := fun slot => slot.line.Sublist transition.after.line)
    (fun _ accepted none held => (line_sublist accepted none).trans held) history unset (.refl _)

/-- While an operation is in progress and no hook has been set since it was called, the line is no
longer than it was then. -/
theorem History.line_at_call {course : HookCourse} {others : List HookCourse}
    {since : List HookTransition} {call : HookTransition} (history : History past slot)
    (progress : machine.courses past = course :: others)
    (split : past = since ++ call :: course.past)
    (unset : ∀ other ∈ since, other.stores? = none) : slot.line.Sublist course.start.line := by
  obtain ⟨⟨newer, first, split', start, called⟩, -⟩ :=
    Machine.mem_courses (progress ▸ List.mem_cons_self)
  obtain ⟨rfl, rfl⟩ := Machine.split_unique (split.symm.trans split')
  rw [split] at history
  have begun := history.possible
  rw [called] at begun
  obtain ⟨-, begun⟩ := machine_called begun
  have opened := line_begin call.before course.call
  rw [← begun, start] at opened
  exact opened ▸ (history.line_since unset).1

/-- While a hook runs the slot stays empty, if no hook is set. -/
theorem History.empty_while_running {course : HookCourse} {others : List HookCourse}
    {since : List HookTransition} {call : HookTransition} {hook : HookId}
    (history : History past slot) (progress : machine.courses past = course :: others)
    (tasks : slot.tasks = .running hook :: course.start.tasks)
    (present : course.start.installed = some hook) (split : past = since ++ call :: course.past)
    (unset : ∀ other ∈ since, other.stores? = none) : slot.installed = none := by
  have fewer := (history.line_at_call progress split unset).length_le
  have now : slot.line =
      slot.installed.toList ++ hook :: course.start.tasks.filterMap HookStage.carries? :=
    line_of_tasks tasks
  rw [now, line, present, List.length_append, List.length_cons, List.length_append,
    Option.toList_some, List.length_singleton] at fewer
  refine Option.toList_eq_nil_iff.mp (List.length_eq_zero_iff.mp ?_)
  omega

/-- A hook that is started comes from the front of the line. -/
theorem History.started_in_line {hook : HookId}
    (history : History (later ++ transition :: earlier) slot)
    (starts : transition.starts? = some hook) : hook ∈ transition.before.line := by
  have takes : transition.takes = true := by
    unfold HookTransition.starts? at starts
    exact (Option.ite_none_right_eq_some.mp starts).1
  have installed := (starts?_of_takes history.before history.possible takes).symm.trans starts
  rw [line, installed]
  exact List.mem_cons_self

/-- An operation is called where outside code has the thread; until then no hook has been set. -/
theorem History.installed_at_call {course : HookCourse} {between : List HookTransition}
    (history : History (later ++ transition :: earlier) slot)
    (called : ∃ since call, later ++ transition :: earlier = since ++ call :: course.past ∧
      call.before = course.start ∧ call.event = .called course.call)
    (since : course.past = between ++ transition :: earlier)
    (unset : ∀ other ∈ later, other.stores? = none) (none : transition.after.line = []) :
    course.start.installed = .none := by
  obtain ⟨newer, call, split, start, -⟩ := called
  have inside : later = newer ++ call :: between := by
    rw [since, ← List.cons_append, ← List.append_assoc] at split
    exact List.append_cancel_right split
  rw [split] at history
  have shorter : History course.past call.before := history.before
  rw [since, start] at shorter
  have fewer := (shorter.line_since fun other member =>
    unset other (inside ▸ List.mem_append_right _ (List.mem_cons_of_mem _ member))).1
  rw [none, List.sublist_nil, line] at fewer
  exact Option.toList_eq_nil_iff.mp (List.append_eq_nil_iff.mp fewer).1

/-! ### Panics -/

/-- A hook that panics is running in the innermost operation, and it is destroyed next. -/
theorem hook_of_panics {event : MachineEvent HookCall HookAnswer}
    (accepted : machine.after? slot event = some next)
    (panics : HookTransition.panics ⟨slot, event, next⟩ = true) :
    ∃ hook message rest, slot.tasks = .running hook :: rest ∧
      next = { slot with tasks := .discarding hook (.panicked message) :: rest } := by
  cases event with
  | called call => cases panics
  | answered answer =>
    obtain ⟨stage, rest, tasks, step⟩ := machine_answered accepted
    rw [HookTransition.panics, HookTransition.step?_answered tasks] at panics
    cases step with
    | hookPanicked hook message => exact ⟨hook, message, rest, tasks, rfl⟩
    | conflict stage => cases stage <;> cases panics
    | _ => cases panics

/-- A hook that panics is gone. The notification that has started it destroys it and does not put it
back. If no other hook has been set since that notification was called the slot is empty then, and
until another one is set only the hooks that were running further out are started or installed. If
there are none, every clear returns false and every notification starts nothing. -/
theorem History.gone_with_panic (history : History (later ++ panic :: earlier) slot)
    (panics : panic.panics = true) :
    ∃ (course : HookCourse) (others : List HookCourse) (hook : HookId) (message : String),
      machine.courses earlier = course :: others ∧ course.call = .notify ∧
      started course = [hook] ∧
      panic.after.tasks = .discarding hook (.panicked message) :: course.start.tasks ∧
      ∀ since call, earlier = since ++ call :: course.past →
        (∀ transition ∈ since, HookTransition.stores? transition = none) →
        panic.after.installed = none ∧
        ((∀ transition ∈ later, transition.stores? = none) →
          (∀ other, slot.installed = some other → other ∈ course.start.executing) ∧
          (∀ transition ∈ later, ∀ other, transition.starts? = some other →
            other ∈ course.start.executing) ∧
          (course.start.executing = [] → ∀ operation last between,
            (operation, last) ∈ machine.endings (later ++ panic :: earlier) →
            operation.past = between ++ panic :: earlier →
              (operation.call = .clear →
                HookTransition.result? last = some (.cleared false)) ∧
              (operation.call = .notify → started operation = []))) := by
  have shorter : History earlier panic.before := history.before
  obtain ⟨hook, message, rest, tasks, after⟩ := hook_of_panics history.possible panics
  obtain ⟨course, others, progress, call, rfl, present, started⟩ := shorter.fetched tasks
  refine ⟨course, others, hook, message, progress, call, started, congrArg HookSlot.tasks after,
    fun since call split unset => ?_⟩
  have empty := shorter.empty_while_running progress tasks present split unset
  have left : panic.after.line = course.start.executing := by
    rw [executing, ← carries_eq_executes (shorter.orderly.callsOut_rest tasks), after]
    exact congrArg (·.toList ++ _) empty
  refine ⟨after ▸ empty, fun unset => ?_⟩
  have fewer := history.line_since unset
  rw [left] at fewer
  refine ⟨fun other installed => ?_, fun transition member other starts => ?_,
    fun alone operation last between member since => ?_⟩
  · refine fewer.1.subset ?_
    rw [line, installed]
    exact List.mem_cons_self
  · refine (fewer.2 transition member).subset ?_
    obtain ⟨newer, between, rfl⟩ := List.append_of_mem member
    rw [List.append_assoc, List.cons_append] at history
    exact history.started_in_line starts
  · obtain ⟨stage, answer, ended⟩ :=
      Machine.History.follow_endings notifies_followed history member
    have nothing := history.installed_at_call ended.called since unset (left.trans alone)
    refine ⟨fun call => ?_, fun call => ?_⟩
    · cases (history.clear_outcome member call).1 with
      | empty _ _ result => exact result
      | removed _ present | panicked _ _ present => cases nothing.symm.trans present
    · obtain ⟨result, rfl, -⟩ := result_of_ended ended
      cases ended.fits call with
      | found _ _ started => rw [started, nothing, Option.toList_none]

/-- A hook is set and started. While it runs there is another notification, which finds nothing;
then the hook panics. When that has been caught outside the notification the slot is cleared, and
there is a last notification. -/
def panickedInside : List (MachineEvent HookCall HookAnswer) :=
  [.called (.set 7), .answered .done, .answered .done,
    .called .notify, .answered .done,
    .called .notify, .answered .done, .answered .done,
    .answered (.panicked "boom"), .answered .done, .answered .done,
    .called .clear, .answered .done, .answered .done,
    .called .notify, .answered .done, .answered .done]

theorem History.gone_with_panic_inside :
    ∃ (course : HookCourse) (later earlier : List HookTransition) (panic : HookTransition),
      (machine.replayed {} panickedInside).1 = later ++ panic :: earlier ∧
        panic.panics = true ∧ (machine.courses earlier).head? = some course ∧
        started course = [7] ∧ panic.after.installed = none ∧
        (machine.replayed {} panickedInside).2.installed = none := by
  have split : (machine.replayed {} panickedInside).1 =
      (machine.replayed {} panickedInside).1.take 8 ++
        (machine.replayed {} panickedInside).1.get ⟨8, by decide⟩ ::
          (machine.replayed {} panickedInside).1.drop 9 := rfl
  have running : ∃ course : HookCourse,
      (machine.courses ((machine.replayed {} panickedInside).1.drop 9)).head? = some course ∧
        started course = [7] ∧ course.start.executing = [] ∧
        (machine.replayed {} panickedInside).1.drop 9 =
          ((machine.replayed {} panickedInside).1.drop 9).take 4 ++
            (machine.replayed {} panickedInside).1.get ⟨13, by decide⟩ :: course.past :=
    ⟨_, rfl, by decide, by decide, by decide⟩
  have history : History _ (machine.replayed {} panickedInside).2 :=
    .of_replayed machine {} panickedInside
  rw [split] at history
  obtain ⟨course, innermost, begun, around, since⟩ := running
  obtain ⟨_, others, hook, message, progress, -, -, -, gone⟩ :=
    History.gone_with_panic history (by decide)
  rw [progress] at innermost
  cases innermost
  obtain ⟨empty, none⟩ := gone _ _ since (by decide)
  refine ⟨_, _, _, _, split, by decide, congrArg List.head? progress, begun, empty, ?_⟩
  refine Option.eq_none_iff_forall_ne_some.mpr fun other installed => ?_
  have member := (none (by decide)).1 other installed
  rw [around] at member
  cases member

/-- It is not so that a hook that panics stays installed: after the panic, with no set and no clear
in between, a clear returns false and a notification starts nothing. -/
theorem History.not_installed_after_panic :
    (machine.endings (machine.replayed {} panickedInside).1).map
        (fun ended => (ended.1.call, HookTransition.result? ended.2, started ended.1)) =
      [(.notify, some .notified, []), (.clear, some (.cleared false), []),
        (.notify, some (.panicked "boom"), [7]), (.notify, some .notified, []),
        (.set 7, some .stored, [])] := by
  decide

end HookSlot

end MessagePump

/-
This file proves what becomes of the hook when the slot is cleared.

A hook that runs is not in its slot, and it is put back when it has returned, if the slot is empty
then. So there is a line of succession: first the hook that is installed, then those that run, the
innermost first. Setting puts a hook in front of the line. Clearing takes away the one that is
installed and leaves those that run. A clear is therefore final if no hook runs when it takes
effect; otherwise it is undone by the first hook that returns, as if the innermost of those that
were running had been set by it.
-/

import Mathlib.Data.List.Basic
import MessagePump.Proofs.HookSteps

namespace MessagePump

/-- The hook that is destroyed, and what its destructor answers. -/
def HookStage.discards? : HookStage → HookAnswer → Option (HookId × HookAnswer)
  | .discarding hook _, answer => some (hook, answer)
  | _, _ => none

namespace HookSlot

/-- The hooks that run, the innermost first. -/
def executing (slot : HookSlot) : List HookId := slot.tasks.filterMap HookStage.executes?

/-- The line of succession: the hook that is installed, then those that run or come back from their
runs, the innermost first. -/
def line (slot : HookSlot) : List HookId :=
  slot.installed.toList ++ slot.tasks.filterMap HookStage.carries?

end HookSlot

/-! ### What is read off a history -/

namespace HookTransition

/-- The stage that is answered, and the answer. -/
def step? (transition : HookTransition) : Option (HookStage × HookAnswer) :=
  HookSlot.machine.told? (fun stage answer => some (stage, answer)) transition

/-- The hook that is put into the slot by the operation that sets it. -/
def stores? (transition : HookTransition) : Option HookId :=
  match transition.step? with
  | some (.storing hook, _) => some hook
  | _ => none

/-- Whether the slot is cleared. -/
def clears (transition : HookTransition) : Bool :=
  match transition.step? with
  | some (.clearing, _) => true
  | _ => false

/-- Whether a notification looks for a hook. -/
def takes (transition : HookTransition) : Bool :=
  match transition.step? with
  | some (.taking, _) => true
  | _ => false

/-- The hook that is started. -/
def starts? (transition : HookTransition) : Option HookId :=
  if transition.takes then transition.after.tasks.head?.bind HookStage.executes? else none

/-- Whether a hook that runs panics. -/
def panics (transition : HookTransition) : Bool :=
  match transition.step? with
  | some (.running _, .panicked _) => true
  | _ => false

/-- The result with which an operation returns. -/
def result? (transition : HookTransition) : Option HookResult :=
  match transition.step? with
  | some (.ended result, _) => some result
  | _ => none

/-- What a set or a clear leaves at the front of the line: the hook that is set, or the innermost of
those that run. -/
def leaves? (transition : HookTransition) : Option (Option HookId) :=
  match transition.step? with
  | some (.storing hook, _) => some (some hook)
  | some (.clearing, _) => some transition.before.executing.head?
  | _ => none

theorem step?_answered {slot : HookSlot} {stage : HookStage} {rest : List HookStage}
    (tasks : slot.tasks = stage :: rest) (answer : HookAnswer) (next : HookSlot) :
    step? ⟨slot, .answered answer, next⟩ = some (stage, answer) :=
  Machine.told?_answered tasks (fun stage answer => some (stage, answer)) answer next

theorem stage_of_step? {transition : HookTransition} {stage : HookStage} {answer : HookAnswer}
    (told : transition.step? = some (stage, answer)) :
    ∃ rest, transition.before.tasks = stage :: rest := by
  obtain ⟨answer, stage, rest, -, tasks, same⟩ := Machine.stage_of_told? told
  cases same
  exact ⟨rest, tasks⟩

end HookTransition

namespace HookSlot

/-- What the latest set or clear has left. -/
def kept (past : List HookTransition) : Option HookId :=
  (past.findSome? HookTransition.leaves?).join

/-- No hook has panicked since the latest set or clear. -/
def Steady (past : List HookTransition) : Prop :=
  ∀ transition ∈ past.takeWhile fun transition => transition.leaves?.isNone,
    transition.panics = false

/-- The hooks that an operation has destroyed, with the answers of their destructors, the latest
first. -/
def discards (course : HookCourse) : List (HookId × HookAnswer) :=
  course.own.filterMap (machine.told? HookStage.discards?)

variable {slot next : HookSlot} {stage : HookStage} {rest : List HookStage} {answer : HookAnswer}
  {past : List HookTransition} {transition : HookTransition}

theorem kept_of_leaves {left : Option HookId} (leaves : transition.leaves? = some left) :
    kept (transition :: past) = left := by
  rw [kept, List.findSome?_cons, leaves]
  rfl

theorem kept_of_none (none : transition.leaves? = none) :
    kept (transition :: past) = kept past := by
  rw [kept, List.findSome?_cons, none, kept]

theorem Steady.of_none (steady : Steady (transition :: past)) (none : transition.leaves? = none) :
    transition.panics = false ∧ Steady past := by
  rw [Steady, List.takeWhile_cons, none] at steady
  exact List.forall_mem_cons.mp steady

/-! ### The line of succession -/

theorem line_of_tasks (tasks : slot.tasks = stage :: rest) :
    slot.line = slot.installed.toList ++
      (stage.carries?.toList ++ rest.filterMap HookStage.carries?) := by
  rw [line, tasks, Machine.filterMap_cons_toList]

theorem line_begin (slot : HookSlot) (call : HookCall) : (slot.begin call).line = slot.line := by
  rw [begin_eq]
  cases call <;> rfl

/-- A hook that comes back from its run does so in the innermost operation. -/
theorem carries_eq_executes {stages : List HookStage}
    (below : ∀ stage ∈ stages, stage.callsOut = true) :
    stages.filterMap HookStage.carries? = stages.filterMap HookStage.executes? := by
  refine List.filterMap_congr fun stage member => ?_
  have outside := below stage member
  cases stage <;> first | rfl | cases outside

/-- When the slot has been cleared, those that run are all that is left of the line. -/
theorem Orderly.line_cleared (orderly : slot.Orderly) (tasks : slot.tasks = .clearing :: rest)
    (hook? : Option HookId) (result : HookResult) :
    HookSlot.line { slot with installed := none, tasks := .dispose hook? result :: rest } =
      slot.executing := by
  rw [line_of_tasks rfl, HookStage.carries?_dispose,
    carries_eq_executes (orderly.callsOut_rest tasks), executing, tasks]
  rfl

/-- Only a set puts another hook into the line. -/
theorem Step.line_sublist (tasks : slot.tasks = stage :: rest)
    (step : slot.Step rest stage answer next) (other : ∀ hook, stage ≠ .storing hook) :
    next.line.Sublist slot.line := by
  rw [line_of_tasks tasks]
  cases step with
  | store hook => exact absurd rfl (other hook)
  | clear =>
    rw [line_of_tasks rfl, HookStage.carries?_dispose]
    exact List.sublist_append_right _ _
  | take hook free present =>
    rw [present]
    exact .refl _
  | putBack hook absent =>
    rw [absent]
    exact .refl _
  | hookPanicked | giveUp => exact (List.sublist_cons_self _ _).append_left _
  | conflict => exact (List.sublist_append_right _ _).append_left _
  | _ => exact .refl _

/-- Whoever is first in the line stays so, unless a hook is set, the slot is cleared or a hook
panics. -/
theorem Step.line_head? (tasks : slot.tasks = stage :: rest)
    (step : slot.Step rest stage answer next) (sound : next.tasks.head? ≠ some .conflicted)
    (none : HookTransition.leaves? ⟨slot, .answered answer, next⟩ = none)
    (calm : HookTransition.panics ⟨slot, .answered answer, next⟩ = false) :
    next.line.head? = slot.line.head? := by
  rw [HookTransition.leaves?, HookTransition.step?_answered tasks] at none
  rw [HookTransition.panics, HookTransition.step?_answered tasks] at calm
  rw [line_of_tasks tasks]
  cases step with
  | store | clear => cases none
  | hookPanicked => cases calm
  | take hook free present =>
    rw [present]
    rfl
  | putBack hook absent =>
    rw [absent]
    rfl
  | giveUp hook other present =>
    rw [line, present]
    rfl
  | conflict => exact absurd rfl sound
  | _ => rfl

/-- As long as no hook has panicked since the latest set or clear, the first in the line is what
that has left. -/
theorem History.line_head? (history : History past slot) (steady : Steady past) :
    slot.line.head? = kept past := by
  revert steady
  refine history.induct ?start ?called ?answered
  case start => exact fun _ => rfl
  case called =>
    intro past slot call _ _ inductionHypothesis steady
    rw [line_begin, kept_of_none rfl]
    exact inductionHypothesis (steady.of_none rfl).2
  case answered =>
    intro past slot stage rest answer next history tasks step sound inductionHypothesis steady
    cases leaves : HookTransition.leaves? ⟨slot, .answered answer, next⟩ with
    | none =>
      obtain ⟨calm, steady⟩ := steady.of_none leaves
      rw [kept_of_none leaves, step.line_head? tasks sound leaves calm]
      exact inductionHypothesis steady
    | some left =>
      rw [kept_of_leaves leaves]
      rw [HookTransition.leaves?, HookTransition.step?_answered tasks] at leaves
      cases step with
      | store => exact Option.some.inj leaves
      | clear =>
        rw [history.orderly.line_cleared tasks]
        exact Option.some.inj leaves
      | conflict => exact absurd rfl sound
      | _ => cases leaves

/-- What an operation finds that is called or looks for a hook: the first in the line is installed,
or the slot is empty and the first in the line is the innermost hook that runs. -/
theorem History.found (history : History past slot) (steady : Steady past)
    (running : slot.tasks.filterMap HookStage.carries? = slot.executing) :
    slot.installed.or slot.executing.head? = kept past := by
  rw [← history.line_head? steady, line, running, List.head?_append, Option.head?_toList]

/-- As long as no hook is set the line does not get longer. -/
theorem line_sublist {event : MachineEvent HookCall HookAnswer}
    (accepted : machine.after? slot event = some next)
    (other : HookTransition.stores? ⟨slot, event, next⟩ = none) : next.line.Sublist slot.line := by
  cases event with
  | called call =>
    obtain ⟨-, rfl⟩ := machine_called accepted
    rw [line_begin]
  | answered answer =>
    obtain ⟨stage, rest, tasks, step⟩ := machine_answered accepted
    refine step.line_sublist tasks fun hook same => ?_
    rw [HookTransition.stores?, HookTransition.step?_answered tasks, same] at other
    cases other

/-- The hook that is started is the one that is installed. -/
theorem starts?_of_takes {event : MachineEvent HookCall HookAnswer}
    (history : History past slot) (accepted : machine.after? slot event = some next)
    (takes : HookTransition.takes ⟨slot, event, next⟩ = true) :
    HookTransition.starts? ⟨slot, event, next⟩ = slot.installed := by
  rw [HookTransition.starts?, if_pos takes]
  cases event with
  | called call => cases takes
  | answered answer =>
    obtain ⟨stage, rest, tasks, step⟩ := machine_answered accepted
    have sound := (history.orderly.step tasks step).sound
    rw [HookTransition.takes, HookTransition.step?_answered tasks] at takes
    cases step with
    | take hook free present => exact present.symm
    | takeNone free absent => exact absent.symm
    | conflict => exact absurd rfl sound
    | _ => cases takes

theorem line_of_clears {event : MachineEvent HookCall HookAnswer}
    (history : History past slot) (accepted : machine.after? slot event = some next)
    (clears : HookTransition.clears ⟨slot, event, next⟩ = true) : next.line = slot.executing := by
  cases event with
  | called call => cases clears
  | answered answer =>
    obtain ⟨stage, rest, tasks, step⟩ := machine_answered accepted
    have sound := (history.orderly.step tasks step).sound
    rw [HookTransition.clears, HookTransition.step?_answered tasks] at clears
    cases step with
    | clear => exact history.orderly.line_cleared tasks _ _
    | conflict => exact absurd rfl sound
    | _ => cases clears

/-! ### Clears -/

/-- How a clear ends: it says whether it has found a hook and destroys it, unless the destructor
panics. -/
inductive ClearOutcome (course : HookCourse) (last : HookTransition) : Prop
  | empty (absent : course.start.installed = none) (destroyed : discards course = [])
      (result : last.result? = some (.cleared false))
  | removed (hook : HookId) (present : course.start.installed = some hook)
      (destroyed : discards course = [(hook, .done)])
      (result : last.result? = some (.cleared true))
  | panicked (hook : HookId) (message : String) (present : course.start.installed = some hook)
      (destroyed : discards course = [(hook, .panicked message)])
      (result : last.result? = some (.panicked message))

/-- The operation has cleared the slot, and those were running that ran when it was called. -/
def TookEffect (course : HookCourse) : Prop :=
  ∃ transition ∈ course.own, HookTransition.clears transition = true ∧
    transition.before.executing = course.start.executing

/-- What is known of a clear at each of its stages. -/
inductive Clears (slot : HookSlot) (course : HookCourse) : HookStage → Prop
  | clearing (same : slot.installed = course.start.installed)
      (running : slot.executing = course.start.executing) (destroyed : discards course = [])
      (length : course.own.length = 0) : Clears slot course .clearing
  | discarding (hook : HookId) (present : course.start.installed = some hook)
      (took : TookEffect course) (destroyed : discards course = [])
      (length : course.own.length = 1) : Clears slot course (.discarding hook (.cleared true))
  | empty (absent : course.start.installed = none) (took : TookEffect course)
      (destroyed : discards course = []) (length : course.own.length ≤ 2) :
    Clears slot course (.ended (.cleared false))
  | removed (hook : HookId) (present : course.start.installed = some hook)
      (took : TookEffect course) (destroyed : discards course = [(hook, .done)])
      (length : course.own.length ≤ 2) : Clears slot course (.ended (.cleared true))
  | panicked (hook : HookId) (message : String) (present : course.start.installed = some hook)
      (took : TookEffect course) (destroyed : discards course = [(hook, .panicked message)])
      (length : course.own.length ≤ 2) : Clears slot course (.ended (.panicked message))

theorem TookEffect.clear {course : HookCourse} (tasks : slot.tasks = .clearing :: rest)
    (running : slot.executing = course.start.executing) (answer : HookAnswer) (next : HookSlot) :
    TookEffect { course with own := ⟨slot, .answered answer, next⟩ :: course.own } := by
  refine ⟨_, List.mem_cons_self, ?_, running⟩
  rw [HookTransition.clears, HookTransition.step?_answered tasks]

/-- What has taken effect has done so for good. -/
theorem TookEffect.move {course : HookCourse} (took : TookEffect course)
    (transition : HookTransition) :
    TookEffect { course with own := transition :: course.own } := by
  obtain ⟨effect, member, facts⟩ := took
  exact ⟨effect, List.mem_cons_of_mem _ member, facts⟩

theorem discards_move (course : HookCourse) (tasks : slot.tasks = stage :: rest)
    (answer : HookAnswer) (next : HookSlot) :
    discards { course with own := ⟨slot, .answered answer, next⟩ :: course.own } =
      (stage.discards? answer).toList ++ discards course :=
  Machine.filterMap_told? tasks _ answer next course.own

/-- Each clear of a history is followed from its call on. -/
theorem clears_followed : machine.Followed {} fun slot course stage =>
    course.call = .clear → Clears slot course stage where
  idle := rfl
  fresh := by
    rintro past slot _ next first history begun tasks rfl
    obtain ⟨-, rfl⟩ := machine_called begun
    cases tasks
    exact .clearing rfl rfl rfl rfl
  own := by
    intro past slot answer next stage moved rest course history advanced tasks after _ clears call
    obtain ⟨stage, rest, tasks', step⟩ := machine_answered advanced
    cases tasks.symm.trans tasks'
    have sound := ((History.orderly history).step tasks step).sound
    cases clears call with
    | clearing same running none length =>
      cases step with
      | clear =>
        have once := congrArg Nat.succ length
        obtain rfl := List.head_eq_of_cons_eq after
        rcases HookStage.dispose_cases slot.installed (.cleared slot.installed.isSome) with
          ⟨absent, stage⟩ | ⟨hook, present, stage⟩ <;> rw [stage]
        · rw [absent]
          exact .empty (same.symm.trans absent) (.clear tasks running _ _)
            ((discards_move course tasks .done _).trans none)
            (Nat.le_succ_of_le (Nat.le_of_eq once))
        · rw [present]
          exact .discarding hook (same.symm.trans present) (.clear tasks running _ _)
            ((discards_move course tasks .done _).trans none) once
      | conflict => exact absurd rfl sound
    | discarding hook present took none length =>
      have twice := Nat.le_of_eq (congrArg Nat.succ length)
      cases step with
      | discard =>
        cases after
        exact .removed hook present (took.move _)
          ((discards_move course tasks .done _).trans (congrArg _ none)) twice
      | discardPanicked _ _ message =>
        cases after
        exact .panicked hook message present (took.move _)
          ((discards_move course tasks (.panicked message) _).trans (congrArg _ none)) twice
      | conflict => exact absurd rfl sound
    | empty | removed | panicked =>
      cases step with
      | finish => exact absurd (congrArg List.length after) (Nat.ne_of_lt (Nat.lt_succ_self _))
      | conflict => exact absurd rfl sound
  aside := by
    intro past slot event next stage course history accepted aside clears call
    have outside : stage.callsOut = true := aside.elim ((History.orderly history).below stage)
      ((History.orderly (history.step accepted)).below stage)
    cases clears call with
    | discarding hook present took destroyed length =>
      exact .discarding hook present took destroyed length
    | _ => cases outside

/-- A clear in progress can go on and comes to its end after two steps of its own. -/
theorem Clears.goes_on {course : HookCourse} (clears : slot.Clears course stage)
    (tasks : slot.tasks = stage :: rest) :
    (∃ answer next, machine.advance? slot answer = some next) ∧ course.own.length ≤ 2 := by
  have goes : (machine.advance? slot .done).isSome = true ∧ course.own.length ≤ 2 := by
    simp only [machine, advance?, tasks, Option.isSome_map]
    cases clears with
    | clearing _ _ _ length => exact ⟨rfl, length ▸ Nat.zero_le 2⟩
    | discarding _ _ _ _ length => exact ⟨rfl, length ▸ Nat.le_succ 1⟩
    | empty _ _ _ length | removed _ _ _ _ length | panicked _ _ _ _ _ length =>
      exact ⟨rfl, length⟩
  obtain ⟨next, advanced⟩ := Option.isSome_iff_exists.mp goes.1
  exact ⟨⟨.done, next, advanced⟩, goes.2⟩

/-- An operation that has ended has returned a result. -/
theorem result_of_ended {fits : HookSlot → HookCourse → HookStage → Prop} {course : HookCourse}
    {last : HookTransition} (ended : machine.Ended fits past course last stage answer) :
    ∃ result, stage = .ended result ∧ last.result? = some result := by
  obtain ⟨event, advanced, before, after⟩ := ended
  obtain ⟨stage, rest, tasks, step⟩ := machine_answered advanced
  cases before.symm.trans tasks
  rcases step.tasks_cases with ⟨moved, goes⟩ | ⟨⟨result, rfl⟩, -⟩
  · have longer := congrArg List.length (after.symm.trans goes)
    exact absurd longer (Nat.ne_of_lt (Nat.lt_succ_self _))
  · obtain ⟨before, _, next⟩ := last
    cases event
    refine ⟨result, rfl, ?_⟩
    rw [HookTransition.result?, HookTransition.step?_answered tasks]

/-- A clear that has ended has cleared the slot, and it has found what was installed when it was
called. -/
theorem History.clear_outcome (history : History past slot) {course : HookCourse}
    {last : HookTransition} (member : (course, last) ∈ machine.endings past)
    (call : course.call = .clear) : ClearOutcome course last ∧ TookEffect course := by
  obtain ⟨stage, answer, ended⟩ := Machine.History.follow_endings clears_followed history member
  obtain ⟨result, rfl, returned⟩ := result_of_ended ended
  cases ended.fits call with
  | empty absent took destroyed => exact ⟨.empty absent destroyed returned, took⟩
  | removed hook present took destroyed =>
    exact ⟨.removed hook present destroyed returned, took⟩
  | panicked hook message present took destroyed =>
    exact ⟨.panicked hook message present destroyed returned, took⟩

/-- An operation was called when outside code had the thread, and what it finds then is what the
latest set or clear has left. -/
theorem History.found_at_call (history : History past slot) {course : HookCourse}
    {last : HookTransition} (member : (course, last) ∈ machine.endings past)
    (steady : Steady course.past) :
    course.start.installed.or course.start.executing.head? = kept course.past := by
  obtain ⟨stage, answer, ended⟩ := Machine.History.follow_endings clears_followed history member
  obtain ⟨since, ⟨before, event, next⟩, rfl, rfl, rfl⟩ := ended.called
  have shorter : History course.past course.start := history.before
  obtain ⟨yields, -⟩ := machine_called history.possible
  exact shorter.found steady (carries_eq_executes (shorter.orderly.callsOut yields))

/-- What a notification starts is what the latest set or clear has left, if that does not run. -/
theorem History.found_at_turn {later earlier : List HookTransition}
    (history : History (later ++ transition :: earlier) slot) (takes : transition.takes = true)
    (steady : Steady earlier) :
    transition.starts?.or transition.before.executing.head? = kept earlier := by
  obtain ⟨before, event, next⟩ := transition
  have shorter : History earlier before := history.before
  rw [starts?_of_takes shorter history.possible takes]
  refine shorter.found steady ?_
  unfold HookTransition.takes at takes
  split at takes
  · next told =>
    obtain ⟨rest, tasks⟩ := HookTransition.stage_of_step? told
    change before.tasks = _ at tasks
    have running := carries_eq_executes (shorter.orderly.callsOut_rest tasks)
    rw [executing, tasks]
    exact running
  · cases takes

/-- After a clear, and as long as no hook is set, no hooks are started but those that were running
when it took effect. -/
theorem History.started_after_clear {later earlier : List HookTransition} {clear : HookTransition}
    (history : History (later ++ clear :: earlier) slot) (clears : clear.clears = true)
    (unset : ∀ transition ∈ later, transition.stores? = none) {hook : HookId}
    (member : transition ∈ later) (starts : transition.starts? = some hook) :
    hook ∈ clear.before.executing := by
  have cleared : clear.after.line.Sublist clear.before.executing := by
    rw [line_of_clears history.before history.possible clears]
  obtain ⟨-, before⟩ := Chronicle.lasting_while
    (motive := fun slot => slot.line.Sublist clear.before.executing)
    (fun _ accepted other held => (line_sublist accepted other).trans held) history unset cleared
  obtain ⟨since, between, rfl⟩ := List.append_of_mem member
  rw [List.append_assoc, List.cons_append] at history
  have takes : transition.takes = true := by
    unfold HookTransition.starts? at starts
    exact (Option.ite_none_right_eq_some.mp starts).1
  have installed := (starts?_of_takes history.before history.possible takes).symm.trans starts
  refine (before transition member).subset ?_
  rw [line, installed]
  exact List.mem_cons_self

/-- What clearing the slot does. A clear that has ended has taken effect, and it has returned
whether it has found a hook, which it has destroyed. If no hook has panicked since the latest set or clear,
what it finds is what that has left, unless just this hook is the innermost one that runs; so
inside a hook that runs a clear finds nothing, although the hook has been set and not been cleared.
The same is found by a notification, which starts it. A clear is final for all hooks except those
that are running when it takes effect: until another hook is set no other hook is started, so none
at all if no hook was running. A clear in progress can always go on and comes to its end. -/
theorem History.clear_spares_running (history : History past slot) :
    (∀ (course : HookCourse) (last : HookTransition), (course, last) ∈ machine.endings past →
      course.call = .clear → (ClearOutcome course last ∧ TookEffect course) ∧
        (Steady course.past →
          course.start.installed.or course.start.executing.head? = kept course.past)) ∧
    (∀ (later earlier : List HookTransition) (transition : HookTransition),
      past = later ++ transition :: earlier → transition.takes = true → Steady earlier →
        transition.starts?.or transition.before.executing.head? = kept earlier) ∧
    (∀ (later earlier : List HookTransition) (clear : HookTransition),
      past = later ++ clear :: earlier → clear.clears = true →
        (∀ transition ∈ later, transition.stores? = none) →
          ∀ transition ∈ later, ∀ hook, transition.starts? = some hook →
            hook ∈ clear.before.executing) ∧
    ∀ (course : HookCourse) (others : List HookCourse), machine.courses past = course :: others →
      course.call = .clear →
        (∃ answer next, machine.advance? slot answer = some next) ∧ course.own.length ≤ 2 := by
  refine ⟨?_, ?_, ?_, ?_⟩
  · intro course last member call
    exact ⟨history.clear_outcome member call, history.found_at_call member⟩
  · rintro later earlier transition rfl takes steady
    exact history.found_at_turn takes steady
  · rintro later earlier clear rfl clears unset transition member hook starts
    exact history.started_after_clear clears unset member starts
  · intro course others progress call
    obtain ⟨stage, tasks, clears⟩ := Machine.History.follow_top clears_followed history progress
    exact (clears call).goes_on tasks

/-- A hook is set and started, and while it runs the slot is cleared. It returns and is started by
the next notification. When it has returned again the slot is cleared once more, and another
notification finds nothing. -/
def clearedTwice : List (MachineEvent HookCall HookAnswer) :=
  [.called (.set 7), .answered .done, .answered .done,
    .called .notify, .answered .done,
    .called .clear, .answered .done, .answered .done,
    .answered .done, .answered .done, .answered .done, .answered .done,
    .called .notify, .answered .done,
    .answered .done, .answered .done, .answered .done, .answered .done,
    .called .clear, .answered .done, .answered .done, .answered .done,
    .called .notify, .answered .done, .answered .done]

/-- The clears of this history, the latest first, with what they return and what the sets and clears
before them have left. -/
theorem History.clear_spares_running_twice :
    ((machine.endings (machine.replayed {} clearedTwice).1).filter fun ended =>
          ended.1.call = .clear).map
        (fun ended => (HookTransition.result? ended.2, ended.1.start.executing,
          kept ended.1.past)) =
      [(some (.cleared true), [], some 7), (some (.cleared false), [7], some 7)] ∧
    ∀ (course : HookCourse) (last : HookTransition),
      (course, last) ∈ machine.endings (machine.replayed {} clearedTwice).1 →
        course.call = .clear → ClearOutcome course last ∧ TookEffect course := by
  refine ⟨by decide, fun course last member call => ?_⟩
  exact ((History.clear_spares_running (.of_replayed machine {} clearedTwice)).1 course last member
    call).1

/-- It is not so that a clear returns true exactly if a hook has been set and not been cleared
since, nor that no hook is started after a clear until another one is set: the first of these
clears returns false, and the hook is started again. -/
theorem History.started_in_spite_of_clear :
    ((machine.replayed {} clearedTwice).1.drop 19).filterMap HookTransition.stores? = [7] ∧
      ((machine.replayed {} clearedTwice).1.drop 19).filter HookTransition.clears = [] ∧
      ((machine.replayed {} clearedTwice).1.drop 18).head?.map HookTransition.clears = some true ∧
      ((machine.replayed {} clearedTwice).1.drop 17).head?.bind HookTransition.result? =
        some (.cleared false) ∧
      ((machine.replayed {} clearedTwice).1.take 17).filterMap HookTransition.stores? = [] ∧
      ((machine.replayed {} clearedTwice).1.take 17).filterMap HookTransition.starts? = [7] := by
  decide

end HookSlot

end MessagePump

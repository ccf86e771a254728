/-
This file proves which hook a notification starts, and what becomes of a hook that is replaced.

Every hook that has been set is in one place: in the line of succession, in the hands of an
operation that destroys it, or destroyed; `History.placed` counts the places. So as long as no hook
is set twice, none is in the line twice: a hook that is installed does not run, and none runs twice
at the same time. If moreover no hook panics and the slot is cleared only while no hook runs, the
first in the line is the hook that was set last and has not been cleared. Either it is installed and
a notification starts it, or it is running and a notification finds the slot empty. A hook that has
been replaced is never the first again, so it is not put back when it returns.
-/

import Mathlib.Data.List.Nodup
import MessagePump.Proofs.HookClearing

namespace MessagePump

namespace HookStage

/-- The hook that is being destroyed. -/
def destroys? : HookStage → Option HookId
  | .discarding hook _ => some hook
  | _ => none

/-- The hook that is about to be put into the slot by the operation that sets it. -/
def stores? : HookStage → Option HookId
  | .storing hook => some hook
  | _ => none

theorem destroys?_dispose (hook? : Option HookId) (result : HookResult) :
    (dispose hook? result).destroys? = hook? := by
  cases hook? <;> rfl

/-- Whether a hook that has panicked is being destroyed, or that has failed as well. -/
def unwinds : HookStage → Bool
  | .discarding _ (.panicked _) | .aborting => true
  | _ => false

/-- How many steps a notification has taken at most when it stands at a stage, if it has already
looked for a hook. -/
def stepsTaken? : HookStage → Option Nat
  | .running _ => some 1
  | .returning _ => some 2
  | .settling _ => some 3
  | .discarding .. => some 4
  | .ended _ | .aborting => some 5
  | _ => none

end HookStage

namespace HookTransition

/-- What a set or a clear leaves installed. -/
def installs? (transition : HookTransition) : Option (Option HookId) :=
  match transition.step? with
  | some (.storing hook, _) => some (some hook)
  | some (.clearing, _) => some none
  | _ => none

end HookTransition

namespace HookSlot

variable {slot next : HookSlot} {stage : HookStage} {rest : List HookStage} {answer : HookAnswer}
  {past : List HookTransition} {transition : HookTransition}

/-! ### Where the hooks are -/

/-- The hooks that are being destroyed. -/
def dying (slot : HookSlot) : List HookId := slot.tasks.filterMap HookStage.destroys?

/-- The hooks that have been set. -/
def stored (past : List HookTransition) : List HookId := past.filterMap HookTransition.stores?

/-- The hooks that have been destroyed. -/
def destroyed (past : List HookTransition) : List HookId :=
  past.filterMap (machine.told? fun stage _ => stage.destroys?)

theorem dying_of_tasks (tasks : slot.tasks = stage :: rest) :
    slot.dying = stage.destroys?.toList ++ rest.filterMap HookStage.destroys? := by
  rw [dying, tasks, Machine.filterMap_cons_toList]

/-- A step passes each hook on to the next place. A set brings one in, and one that is being
destroyed goes out. -/
theorem Step.places (tasks : slot.tasks = stage :: rest)
    (step : slot.Step rest stage answer next) (sound : next.tasks.head? ≠ some .conflicted)
    (hook : HookId) :
    next.line.count hook + next.dying.count hook + stage.destroys?.toList.count hook =
      slot.line.count hook + slot.dying.count hook + stage.stores?.toList.count hook := by
  rw [line_of_tasks tasks, dying_of_tasks tasks]
  cases step with
  | store stored =>
    rw [line_of_tasks rfl, dying_of_tasks rfl, HookStage.carries?_dispose,
      HookStage.destroys?_dispose]
    simp only [HookStage.carries?, HookStage.destroys?, HookStage.stores?, Option.toList_none,
      Option.toList_some, List.nil_append, List.count_append, List.count_nil]
    omega
  | clear =>
    rw [line_of_tasks rfl, dying_of_tasks rfl, HookStage.carries?_dispose,
      HookStage.destroys?_dispose]
    simp only [HookStage.carries?, HookStage.destroys?, HookStage.stores?, Option.toList_none,
      List.nil_append, List.count_append, List.count_nil]
    omega
  | take taken free present =>
    rw [present]
    rfl
  | putBack back absent =>
    rw [absent]
    rfl
  | takeNone | hookReturned | borrow | finish => rfl
  | conflict => exact absurd rfl sound
  | _ =>
    rw [line_of_tasks rfl, dying_of_tasks rfl]
    simp only [HookStage.carries?, HookStage.destroys?, HookStage.stores?, Option.toList_none,
      Option.toList_some, List.nil_append, List.count_append, List.count_nil]
    omega

/-- The histories in which every set brings a hook of its own, no hook panics, and the slot is
cleared only while no hook runs. -/
structure Regular (past : List HookTransition) : Prop where
  distinct : (stored past).Nodup
  calm : ∀ transition ∈ past, transition.panics = false
  idle : ∀ transition ∈ past, transition.clears = true → transition.before.executing = []

theorem Regular.earlier {later earlier : List HookTransition}
    (regular : Regular (later ++ earlier)) : Regular earlier where
  distinct := by
    have distinct := regular.distinct
    rw [stored, List.filterMap_append] at distinct
    exact distinct.of_append_right
  calm transition member := regular.calm transition (List.mem_append_right later member)
  idle transition member := regular.idle transition (List.mem_append_right later member)

theorem Regular.tail (regular : Regular (transition :: past)) : Regular past := by
  have regular : Regular ([transition] ++ past) := regular
  exact regular.earlier

theorem Regular.steady (regular : Regular past) : Steady past :=
  fun transition member => regular.calm transition ((List.takeWhile_sublist _).mem member)

/-- The hook that was set last and has not been cleared since. -/
def latest (past : List HookTransition) : Option HookId :=
  (past.findSome? HookTransition.installs?).join

/-- The hook that a notification has to start: the one that was set last and has not been cleared
since, unless it is running. -/
def due (past : List HookTransition) (slot : HookSlot) : Option HookId :=
  (latest past).filter fun hook => hook ∉ slot.executing

/-- The hooks that an operation has started. -/
def started (course : HookCourse) : List HookId := course.own.filterMap HookTransition.starts?

theorem started_move (course : HookCourse) (transition : HookTransition) :
    started { course with own := transition :: course.own } =
      transition.starts?.toList ++ started course :=
  Machine.filterMap_cons_toList _ _ _

/-- What is known of a notification at each of its stages: it has not looked for a hook yet, or it
has started what it has found, once. -/
inductive Notifies (slot : HookSlot) (course : HookCourse) : HookStage → Prop
  | taking (same : slot.installed = course.start.installed) (fresh : course.own = []) :
    Notifies slot course .taking
  | found (stage : HookStage) (steps : Nat)
      (started : started course = course.start.installed.toList)
      (taken : stage.stepsTaken? = some steps) (length : course.own.length ≤ steps) :
    Notifies slot course stage

theorem starts?_of_ne (tasks : slot.tasks = stage :: rest) (other : stage ≠ .taking) :
    HookTransition.starts? ⟨slot, .answered answer, next⟩ = none := by
  rw [HookTransition.starts?, HookTransition.takes, HookTransition.step?_answered tasks]
  cases stage <;> first | rfl | exact absurd rfl other

/-- Each step of a notification that has looked for a hook leads it on. -/
theorem Step.takes_next {moved : HookStage} {steps : Nat} (step : slot.Step rest stage answer next)
    (sound : next.tasks.head? ≠ some .conflicted) (after : next.tasks = moved :: rest)
    (taken : stage.stepsTaken? = some steps) :
    ∃ more, moved.stepsTaken? = some more ∧ steps < more := by
  cases step with
  | store | clear | take | takeNone => cases taken
  | finish => exact absurd (congrArg List.length after) (Nat.ne_of_lt (Nat.lt_succ_self _))
  | conflict => exact absurd rfl sound
  | _ =>
    cases after
    cases taken
    exact ⟨_, rfl, by decide⟩

/-- Each notification of a history is followed from its call on. -/
theorem notifies_followed : machine.Followed {} fun slot course stage =>
    course.call = .notify → Notifies slot course stage where
  idle := rfl
  fresh := by
    rintro past slot _ next first history begun tasks rfl
    obtain ⟨-, rfl⟩ := machine_called begun
    cases tasks
    exact .taking rfl rfl
  own := by
    intro past slot answer next stage moved rest course history advanced tasks after _ notifies call
    obtain ⟨stage, rest, tasks', step⟩ := machine_answered advanced
    cases tasks.symm.trans tasks'
    have sound := ((History.orderly history).step tasks step).sound
    cases notifies call with
    | taking same fresh =>
      have looked : HookTransition.starts? ⟨slot, .answered answer, next⟩ = slot.installed := by
        refine starts?_of_takes history advanced ?_
        rw [HookTransition.takes, HookTransition.step?_answered tasks]
      have nothing : started course = [] := congrArg (List.filterMap _) fresh
      have once := started_move course ⟨slot, .answered answer, next⟩
      rw [looked, same, nothing, List.append_nil] at once
      have length : (⟨slot, .answered answer, next⟩ :: course.own).length = 1 := by
        rw [fresh, List.length_singleton]
      cases step with
      | take =>
        cases after
        exact .found _ 1 once rfl (Nat.le_of_eq length)
      | takeNone =>
        cases after
        exact .found _ 5 once rfl (length ▸ by decide)
      | conflict => exact absurd rfl sound
    | found _ steps same taken length =>
      obtain ⟨more, next, fewer⟩ := step.takes_next sound after taken
      have other : stage ≠ .taking := by
        rintro rfl
        cases taken
      refine .found moved more ?_ next (Nat.succ_le_of_lt (Nat.lt_of_le_of_lt length fewer))
      rw [started_move, starts?_of_ne tasks other]
      exact same
  aside := by
    intro past slot event next stage course history accepted aside notifies call
    have outside : stage.callsOut = true := aside.elim ((History.orderly history).below stage)
      ((History.orderly (history.step accepted)).below stage)
    cases notifies call with
    | taking => cases outside
    | found _ steps started taken length => exact .found stage steps started taken length

/-- As long as no hook panics no operation has to unwind. -/
theorem History.unwinds_not (history : History past slot)
    (calm : ∀ transition ∈ past, transition.panics = false) :
    ∀ stage ∈ slot.tasks, stage.unwinds = false := by
  revert calm
  refine history.induct (motive := fun past slot =>
    (∀ transition ∈ past, HookTransition.panics transition = false) →
      ∀ stage ∈ slot.tasks, stage.unwinds = false) (fun _ => nofun) ?_ ?_
  · intro past slot call _ _ inductionHypothesis calm
    obtain ⟨-, calm⟩ := List.forall_mem_cons.mp calm
    rw [begin_eq]
    refine List.forall_mem_cons.mpr ⟨?_, inductionHypothesis calm⟩
    cases call <;> rfl
  · intro past slot stage rest answer next history tasks step sound inductionHypothesis calm
    obtain ⟨quiet, calm⟩ := List.forall_mem_cons.mp calm
    have steady := inductionHypothesis calm
    rw [tasks] at steady
    obtain ⟨top, below⟩ := List.forall_mem_cons.mp steady
    rw [HookTransition.panics, HookTransition.step?_answered tasks] at quiet
    cases step with
    | store | clear =>
      refine List.forall_mem_cons.mpr ⟨?_, below⟩
      cases slot.installed <;> rfl
    | hookPanicked => cases quiet
    | abort => cases top
    | conflict => exact absurd rfl sound
    | finish => exact below
    | _ => exact List.forall_mem_cons.mpr ⟨rfl, below⟩

/-- As long as no hook panics the innermost operation can always go on. -/
theorem History.goes_on (history : History past slot)
    (calm : ∀ transition ∈ past, transition.panics = false) (busy : slot.tasks ≠ []) :
    ∃ answer next, machine.advance? slot answer = some next := by
  obtain ⟨stage, rest, tasks⟩ := List.exists_cons_of_ne_nil busy
  have sound := history.orderly.sound
  have steady := history.unwinds_not calm
  rw [tasks] at sound steady
  have goes : (machine.advance? slot .done).isSome = true := by
    simp only [machine, advance?, tasks, Option.isSome_map]
    cases stage with
    | conflicted => exact absurd rfl sound
    | aborting => exact absurd (steady _ List.mem_cons_self) (by decide)
    | _ => rfl
  exact ⟨.done, Option.isSome_iff_exists.mp goes⟩

end HookSlot

end MessagePump

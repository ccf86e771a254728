/-
This file lists the steps of the operations on the slot of the continuation hook, one by one, and
makes a machine of the slot. `HookSlot.advance?_some` says that the list is complete.

The operations nest as those of a context do: a hook, or what is destroyed with one, can start
further operations. The slot is borrowed for one step only, from which no code of others is called,
so no operation finds it borrowed; the invariant is `HookSlot.Orderly`.
-/

import MessagePump.Continuation
import MessagePump.Proofs.Machines

namespace MessagePump

/-! ### Steps -/

namespace HookStage

/-- Whether code outside the slot has the thread: a hook runs or is destroyed. -/
def callsOut : HookStage → Bool
  | .running _ | .discarding .. => true
  | _ => false

/-- Whether the step from this stage borrows the slot. -/
def takesSlot : HookStage → Bool
  | .storing _ | .clearing | .taking | .returning _ => true
  | _ => false

/-- Whether the slot is borrowed at this stage. -/
def holdsSlot : HookStage → Bool
  | .settling _ => true
  | _ => false

/-- The hook that runs, or comes back from its run. -/
def carries? : HookStage → Option HookId
  | .running hook | .returning hook | .settling hook => some hook
  | _ => none

/-- The hook that runs. -/
def executes? : HookStage → Option HookId
  | .running hook => some hook
  | _ => none

theorem dispose_cases (hook? : Option HookId) (result : HookResult) :
    hook? = none ∧ dispose hook? result = .ended result ∨
      ∃ hook, hook? = some hook ∧ dispose hook? result = .discarding hook result := by
  cases hook? with
  | none => exact Or.inl ⟨rfl, rfl⟩
  | some hook => exact Or.inr ⟨hook, rfl, rfl⟩

theorem carries?_dispose (hook? : Option HookId) (result : HookResult) :
    (dispose hook? result).carries? = none := by
  cases hook? <;> rfl

end HookStage

namespace HookSlot

/-- A step of the innermost operation, above the operations `rest`, at a stage that is answered, and
the slot after it. -/
inductive Step (slot : HookSlot) (rest : List HookStage) : HookStage → HookAnswer → HookSlot → Prop
  | store (hook : HookId) (free : slot.guarded = false) :
    Step slot rest (.storing hook) .done
      { slot with installed := some hook, tasks := .dispose slot.installed .stored :: rest }
  | clear (free : slot.guarded = false) :
    Step slot rest .clearing .done
      { slot with
        installed := none
        tasks := .dispose slot.installed (.cleared slot.installed.isSome) :: rest }
  | take (hook : HookId) (free : slot.guarded = false) (present : slot.installed = some hook) :
    Step slot rest .taking .done { slot with installed := none, tasks := .running hook :: rest }
  | takeNone (free : slot.guarded = false) (absent : slot.installed = none) :
    Step slot rest .taking .done { slot with tasks := .ended .notified :: rest }
  | hookReturned (hook : HookId) :
    Step slot rest (.running hook) .done { slot with tasks := .returning hook :: rest }
  | hookPanicked (hook : HookId) (message : String) :
    Step slot rest (.running hook) (.panicked message)
      { slot with tasks := .discarding hook (.panicked message) :: rest }
  | borrow (hook : HookId) (free : slot.guarded = false) :
    Step slot rest (.returning hook) .done
      { slot with guarded := true, tasks := .settling hook :: rest }
  | putBack (hook : HookId) (absent : slot.installed = none) :
    Step slot rest (.settling hook) .done
      { slot with
        installed := some hook
        guarded := false
        tasks := .ended .notified :: rest }
  | giveUp (hook other : HookId) (present : slot.installed = some other) :
    Step slot rest (.settling hook) .done
      { slot with guarded := false, tasks := .discarding hook .notified :: rest }
  | discard (hook : HookId) (result : HookResult) :
    Step slot rest (.discarding hook result) .done { slot with tasks := .ended result :: rest }
  | discardPanicked (hook : HookId) (result : HookResult) (message : String)
      (single : ∀ earlier, result ≠ .panicked earlier) :
    Step slot rest (.discarding hook result) (.panicked message)
      { slot with tasks := .ended (.panicked message) :: rest }
  | abort (hook : HookId) (earlier message : String) :
    Step slot rest (.discarding hook (.panicked earlier)) (.panicked message)
      { slot with tasks := .aborting :: rest }
  | finish (result : HookResult) :
    Step slot rest (.ended result) .done { slot with tasks := rest }
  | conflict (stage : HookStage) (takes : stage.takesSlot = true) (taken : slot.guarded = true) :
    Step slot rest stage .done { slot with tasks := .conflicted :: rest }

/-- What an operation does on an answer is one of the listed steps. -/
theorem advanceTop?_some {slot next : HookSlot} {rest : List HookStage} {stage : HookStage}
    {answer : HookAnswer} {said : List Diagnostic}
    (advanced : slot.advanceTop? rest stage answer = some (next, said)) :
    slot.Step rest stage answer next := by
  cases stage <;> cases answer <;>
    simp only [advanceTop?, reduceCtorEq, Option.some.injEq, Prod.mk.injEq] at advanced
  case storing.done hook =>
    split at advanced <;> simp only [Prod.mk.injEq] at advanced
    · next taken => exact advanced.1 ▸ .conflict _ rfl taken
    · next free => exact advanced.1 ▸ .store hook (Bool.not_eq_true _ ▸ free)
  case clearing.done =>
    split at advanced <;> simp only [Prod.mk.injEq] at advanced
    · next taken => exact advanced.1 ▸ .conflict _ rfl taken
    · next free => exact advanced.1 ▸ .clear (Bool.not_eq_true _ ▸ free)
  case taking.done =>
    split at advanced
    · next taken =>
      simp only [Prod.mk.injEq] at advanced
      exact advanced.1 ▸ .conflict _ rfl taken
    · next free =>
      rw [Bool.not_eq_true] at free
      split at advanced <;> simp only [Prod.mk.injEq] at advanced
      · next absent => exact advanced.1 ▸ .takeNone free absent
      · next hook present => exact advanced.1 ▸ .take hook free present
  case running.done hook => exact advanced.1 ▸ .hookReturned hook
  case running.panicked hook message => exact advanced.1 ▸ .hookPanicked hook message
  case returning.done hook =>
    split at advanced <;> simp only [Prod.mk.injEq] at advanced
    · next taken => exact advanced.1 ▸ .conflict _ rfl taken
    · next free => exact advanced.1 ▸ .borrow hook (Bool.not_eq_true _ ▸ free)
  case settling.done hook =>
    split at advanced <;> simp only [Prod.mk.injEq] at advanced
    · next absent => exact advanced.1 ▸ .putBack hook absent
    · next other present => exact advanced.1 ▸ .giveUp hook other present
  case discarding.done hook result => exact advanced.1 ▸ .discard hook result
  case discarding.panicked hook result message =>
    split at advanced <;> simp only [Prod.mk.injEq] at advanced
    · next earlier => exact advanced.1 ▸ .abort hook earlier message
    · next single => exact advanced.1 ▸ .discardPanicked hook _ message single
  case ended.done result => exact advanced.1 ▸ .finish result

/-- What the innermost operation does on an answer is one of the listed steps. -/
theorem advance?_some {slot next : HookSlot} {answer : HookAnswer} {said : List Diagnostic}
    (advanced : slot.advance? answer = some (next, said)) :
    ∃ stage rest, slot.tasks = stage :: rest ∧ slot.Step rest stage answer next := by
  unfold advance? at advanced
  split at advanced
  · cases advanced
  · next stage rest tasks => exact ⟨stage, rest, tasks, advanceTop?_some advanced⟩

/-- A step moves the innermost operation to another stage, unless it is the last one, which takes
it off the tasks. -/
theorem Step.tasks_cases {slot next : HookSlot} {rest : List HookStage} {stage : HookStage}
    {answer : HookAnswer} (step : slot.Step rest stage answer next) :
    (∃ moved, next.tasks = moved :: rest) ∨
      (∃ result, stage = .ended result) ∧ next = { slot with tasks := rest } := by
  cases step
  case finish result => exact Or.inr ⟨⟨result, rfl⟩, rfl⟩
  all_goals exact Or.inl ⟨_, rfl⟩

/-- Whether code outside the slot has the thread: no operation is in progress, or the innermost one
is calling out. -/
def yields (slot : HookSlot) : Bool := slot.tasks.head?.all HookStage.callsOut

end HookSlot

/-- The operations that can be called. -/
inductive HookCall
  | set (hook : HookId)
  | clear
  | notify
  deriving DecidableEq

/-- Where a called operation stands first. -/
def HookCall.first : HookCall → HookStage
  | .set hook => .storing hook
  | .clear => .clearing
  | .notify => .taking

namespace HookSlot

/-- The slot when an operation has been called. -/
def begin (slot : HookSlot) : HookCall → HookSlot
  | .set hook => slot.set hook
  | .clear => slot.clear
  | .notify => slot.notify

theorem begin_eq (slot : HookSlot) (call : HookCall) :
    slot.begin call = { slot with tasks := call.first :: slot.tasks } := by
  cases call <;> rfl

/-! ### No conflicts -/

/-- The operations around the innermost one are calling out, and only the innermost one can have
borrowed the slot. -/
structure Orderly (slot : HookSlot) : Prop where
  below : ∀ stage ∈ slot.tasks.tail, stage.callsOut = true
  guarded : slot.guarded = slot.tasks.head?.any HookStage.holdsSlot
  sound : slot.tasks.head? ≠ some .conflicted

variable {slot next : HookSlot} {stage : HookStage} {rest : List HookStage} {answer : HookAnswer}

theorem Orderly.of_free (tasks : slot.tasks = stage :: rest)
    (below : ∀ stage ∈ rest, stage.callsOut = true) (holds : stage.holdsSlot = false)
    (sound : stage ≠ .conflicted) (free : slot.guarded = false) : slot.Orderly := by
  refine ⟨?_, ?_, ?_⟩ <;> rw [tasks]
  · exact below
  · exact free.trans holds.symm
  · exact fun same => sound (Option.some.inj same)

theorem Orderly.of_below (below : ∀ stage ∈ slot.tasks, stage.callsOut = true)
    (free : slot.guarded = false) : slot.Orderly := by
  cases tasks : slot.tasks with
  | nil => exact ⟨tasks ▸ nofun, tasks ▸ free, tasks ▸ nofun⟩
  | cons top rest =>
    rw [tasks] at below
    obtain ⟨outside, others⟩ := List.forall_mem_cons.mp below
    refine .of_free tasks others ?_ ?_ free
    · cases top <;> first | rfl | cases outside
    · rintro rfl
      cases outside

/-- All operations in progress call out where code outside the slot has the thread. -/
theorem Orderly.callsOut (orderly : slot.Orderly) (yields : slot.yields = true) :
    ∀ stage ∈ slot.tasks, stage.callsOut = true := by
  unfold HookSlot.yields at yields
  have below := orderly.below
  cases tasks : slot.tasks with
  | nil => nofun
  | cons top rest =>
    rw [tasks] at yields below
    exact List.forall_mem_cons.mpr ⟨yields, below⟩

theorem Orderly.callsOut_rest (orderly : slot.Orderly) (tasks : slot.tasks = stage :: rest) :
    ∀ stage ∈ rest, stage.callsOut = true := by
  have below := orderly.below
  rwa [tasks] at below

theorem Orderly.free (orderly : slot.Orderly) (yields : slot.yields = true) :
    slot.guarded = false := by
  rw [orderly.guarded]
  cases top : slot.tasks.head? with
  | none => rfl
  | some stage =>
    have outside := orderly.callsOut yields stage (List.mem_of_mem_head? top)
    cases stage <;> first | rfl | cases outside

theorem Orderly.begin (orderly : slot.Orderly) (yields : slot.yields = true) (call : HookCall) :
    (slot.begin call).Orderly := by
  rw [begin_eq]
  refine .of_free rfl (orderly.callsOut yields) ?_ ?_ (orderly.free yields) <;>
    cases call <;> first | rfl | nofun

/-- Every step leaves the operations in this order. In particular none ends in a conflict. -/
theorem Orderly.step (orderly : slot.Orderly) (tasks : slot.tasks = stage :: rest)
    (step : slot.Step rest stage answer next) : next.Orderly := by
  have below := orderly.callsOut_rest tasks
  have guarded := orderly.guarded
  rw [tasks] at guarded
  change slot.guarded = stage.holdsSlot at guarded
  cases step with
  | store hook free | clear free =>
    refine .of_free rfl below ?_ ?_ free <;> cases slot.installed <;> first | rfl | nofun
  | borrow => exact ⟨below, rfl, nofun⟩
  | finish => exact .of_below below guarded
  | conflict _ takes taken =>
    cases stage with
    | settling => cases takes
    | _ => cases guarded.symm.trans taken
  | putBack | giveUp => exact ⟨below, rfl, nofun⟩
  | _ => exact .of_free rfl below rfl nofun guarded

/-! ### The machine -/

/-- The slot as a machine. Operations are called where code outside the slot has the thread. -/
def machine : Machine HookSlot HookCall HookAnswer HookStage where
  tasks := HookSlot.tasks
  begin? slot call := if slot.yields then some (slot.begin call) else none
  advance? slot answer := (slot.advance? answer).map Prod.fst
  begins := by
    intro slot next call begun
    obtain ⟨-, same⟩ := Option.ite_none_right_eq_some.mp begun
    exact ⟨_, congrArg HookSlot.tasks ((Option.some.inj same).symm.trans (slot.begin_eq call))⟩
  advances := by
    intro slot next answer moved
    obtain ⟨⟨next, said⟩, advanced, rfl⟩ := Option.map_eq_some_iff.mp moved
    obtain ⟨stage, rest, tasks, step⟩ := advance?_some advanced
    refine ⟨stage, rest, tasks, ?_⟩
    rcases step.tasks_cases with ⟨moved, after⟩ | ⟨-, rfl⟩
    · exact Or.inr ⟨moved, after⟩
    · exact Or.inl rfl

/-- The histories of the slot. -/
abbrev History : List (Transition HookSlot HookCall HookAnswer) → HookSlot → Prop :=
  machine.History {}

theorem machine_called {call : HookCall}
    (accepted : machine.after? slot (.called call) = some next) :
    slot.yields = true ∧ next = slot.begin call := by
  obtain ⟨yields, same⟩ := Option.ite_none_right_eq_some.mp accepted
  exact ⟨yields, (Option.some.inj same).symm⟩

theorem machine_answered (accepted : machine.after? slot (.answered answer) = some next) :
    ∃ stage rest, slot.tasks = stage :: rest ∧ slot.Step rest stage answer next := by
  obtain ⟨⟨next, said⟩, advanced, rfl⟩ := Option.map_eq_some_iff.mp accepted
  exact advance?_some advanced

variable {past : List (Transition HookSlot HookCall HookAnswer)}

/-- The operations of a history never get in each other's way. -/
theorem History.orderly (history : History past slot) : slot.Orderly := by
  induction history with
  | start => exact ⟨nofun, rfl, nofun⟩
  | @step past state event next _ accepted inductionHypothesis =>
    cases event with
    | called call =>
      obtain ⟨yields, rfl⟩ := machine_called accepted
      exact inductionHypothesis.begin yields call
    | answered answer =>
      obtain ⟨stage, rest, tasks, step⟩ := machine_answered accepted
      exact inductionHypothesis.step tasks step

/-- What holds in the beginning, and is kept by every call where outside code has the thread and by
every step of the innermost operation, holds in all histories. -/
@[elab_as_elim]
theorem History.induct {motive : List (Transition HookSlot HookCall HookAnswer) → HookSlot → Prop}
    (start : motive [] {})
    (called : ∀ past slot call, History past slot → slot.yields = true → motive past slot →
      motive (⟨slot, .called call, slot.begin call⟩ :: past) (slot.begin call))
    (answered : ∀ past slot stage rest answer next, History past slot → slot.tasks = stage :: rest →
      slot.Step rest stage answer next → next.tasks.head? ≠ some .conflicted → motive past slot →
      motive (⟨slot, .answered answer, next⟩ :: past) next)
    (history : History past slot) : motive past slot := by
  induction history with
  | start => exact start
  | @step past state event next history accepted inductionHypothesis =>
    cases event with
    | called call =>
      obtain ⟨yields, rfl⟩ := machine_called accepted
      exact called past state call history yields inductionHypothesis
    | answered answer =>
      obtain ⟨stage, rest, tasks, step⟩ := machine_answered accepted
      have sound := ((History.orderly history).step tasks step).sound
      exact answered past state stage rest answer next history tasks step sound
        inductionHypothesis

end HookSlot

/-- An event of the slot with the slot before and after it. -/
abbrev HookTransition := Transition HookSlot HookCall HookAnswer

/-- An operation on the slot, followed from its call on. -/
abbrev HookCourse := Course HookSlot HookCall HookAnswer

end MessagePump

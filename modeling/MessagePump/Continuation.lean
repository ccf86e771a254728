/-
This file holds the continuation hook of a reactor: a slot that contains at most one hook, and
the three operations on it. Setting puts a hook into the slot and destroys the one it replaces;
clearing takes the hook out and destroys it; notifying takes the hook out, runs it, and puts it
back unless another hook has been set meanwhile.

A hook, and the destructor of what it owns, are code of others: while they run they can start any
of these operations again. The slot therefore keeps the operations that have not ended, the
innermost first, and like a pump it moves by answers to requests.
-/

import MessagePump.Diagnostic

namespace MessagePump

/-- Hooks are told apart by number. -/
abbrev HookId := Nat

/-! ### Operations in progress -/

/-- How an operation on the slot ends. -/
inductive HookResult
  | stored
  | cleared (was : Bool)
  | notified
  | panicked (message : String)
  deriving DecidableEq

/-- Where an operation on the slot stands. At `settling` the slot is borrowed. -/
inductive HookStage
  | storing (hook : HookId)
  | clearing
  | taking
  | running (hook : HookId)
  | returning (hook : HookId)
  | settling (hook : HookId)
  | discarding (hook : HookId) (result : HookResult)
  | ended (result : HookResult)
  | conflicted
  | aborting
  deriving DecidableEq

/-- The slot of the continuation hook. -/
structure HookSlot where
  installed : Option HookId := none
  guarded : Bool := false
  tasks : List HookStage := []
  deriving DecidableEq

/-- What an operation is waiting for. -/
inductive HookRequest
  | proceed
  | run (hook : HookId)
  | discard (hook : HookId)
  | finish (result : HookResult)
  | conflict
  | abort
  deriving DecidableEq

/-- How the request of an operation can be answered. -/
inductive HookAnswer
  | done
  | panicked (message : String)
  deriving DecidableEq

/-- The request of a stage. -/
def HookStage.request : HookStage → HookRequest
  | .storing _ | .clearing | .taking | .returning _ | .settling _ => .proceed
  | .running hook => .run hook
  | .discarding hook _ => .discard hook
  | .ended result => .finish result
  | .conflicted => .conflict
  | .aborting => .abort

/-- A hook that has been taken out is destroyed, if there is one, and then the operation ends. -/
def HookStage.dispose (hook : Option HookId) (result : HookResult) : HookStage :=
  match hook with
  | some hook => .discarding hook result
  | none => .ended result

namespace HookSlot

/-! ### Starting an operation -/

/-- Starts an operation inside those that are in progress. -/
def start (slot : HookSlot) (stage : HookStage) : HookSlot :=
  { slot with tasks := stage :: slot.tasks }

/-- Installs a hook. -/
def set (slot : HookSlot) (hook : HookId) : HookSlot := slot.start (.storing hook)

/-- Removes the hook. -/
def clear (slot : HookSlot) : HookSlot := slot.start .clearing

/-- Runs the hook. -/
def notify (slot : HookSlot) : HookSlot := slot.start .taking

/-! ### Moving on -/

/-- What the innermost operation is waiting for. -/
def request? (slot : HookSlot) : Option HookRequest :=
  slot.tasks.head?.map HookStage.request

/-- A step of an operation at a stage that has been answered, above the operations `rest`. -/
def advanceTop? (slot : HookSlot) (rest : List HookStage) :
    HookStage → HookAnswer → Option (HookSlot × List Diagnostic)
  | .storing hook, .done =>
    some <| if slot.guarded then ({ slot with tasks := .conflicted :: rest }, [])
      else ({ slot with
        installed := some hook
        tasks := .dispose slot.installed .stored :: rest }, [])
  | .clearing, .done =>
    some <| if slot.guarded then ({ slot with tasks := .conflicted :: rest }, [])
      else ({ slot with
        installed := none
        tasks := .dispose slot.installed (.cleared slot.installed.isSome) :: rest }, [])
  | .taking, .done =>
    some <| if slot.guarded then ({ slot with tasks := .conflicted :: rest }, [])
      else match slot.installed with
        | none => ({ slot with tasks := .ended .notified :: rest }, [])
        | some hook => ({ slot with installed := none, tasks := .running hook :: rest },
            [.remark .runningContinuation])
  | .running hook, .done => some ({ slot with tasks := .returning hook :: rest }, [])
  | .running hook, .panicked message =>
    some ({ slot with tasks := .discarding hook (.panicked message) :: rest }, [])
  | .returning hook, .done =>
    some <| if slot.guarded then ({ slot with tasks := .conflicted :: rest }, [])
      else ({ slot with guarded := true, tasks := .settling hook :: rest }, [])
  | .settling hook, .done =>
    some <| match slot.installed with
      | none => ({ slot with
          installed := some hook
          guarded := false
          tasks := .ended .notified :: rest }, [])
      | some _ => ({ slot with
          guarded := false
          tasks := .discarding hook .notified :: rest }, [])
  | .discarding _ result, .done => some ({ slot with tasks := .ended result :: rest }, [])
  | .discarding _ result, .panicked message =>
    some <| match result with
      | .panicked _ => ({ slot with tasks := .aborting :: rest }, [])
      | _ => ({ slot with tasks := .ended (.panicked message) :: rest }, [])
  | .ended _, .done => some ({ slot with tasks := rest }, [])
  | _, _ => none

/-- A step of the innermost operation. -/
def advance? (slot : HookSlot) (answer : HookAnswer) : Option (HookSlot × List Diagnostic) :=
  match slot.tasks with
  | [] => none
  | stage :: rest => slot.advanceTop? rest stage answer

end HookSlot

end MessagePump

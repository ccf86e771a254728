/-
This file accounts for the owners of contexts.

A context has several owners over its life: the invocation that had it created, the pump while it
is the current one, the inner run that has put it aside, the loop that polls it, code outside.
`Handover` says what one move does to the set of owned contexts. It can only add the context that
is being created and take away one that is being destroyed, so along an execution every created
context is either still owned or has been destroyed once. What the invocations on a stack own is
recorded with them, so a context that is not recorded any more is owned outside or not at all.
-/

import MessagePump.Proofs.OwnContexts

namespace MessagePump

/-! ### Destructions -/

/-- The context whose destruction the innermost invocation is waiting for. -/
def Pump.destroying? (pump : Pump) : Option ContextId :=
  match pump.request? with
  | some (.destroy context) => some context
  | _ => none

/-- The context whose destruction begins with a move. A run begins one as it goes on; code outside
begins one as it gives up the last share in a context. -/
def Move.destroyed? (move : Move) : Option ContextId :=
  match move.event with
  | .answered _ =>
    if move.after.stack.length = move.before.stack.length then move.after.destroying? else none
  | .released context => if (move.before.release context).2 then some context else none
  | .retired => if move.before.retire.2 then some move.before.current else none
  | _ => none

/-- The contexts that have been destroyed, the latest first. -/
def destroyed (history : List Move) : List ContextId := history.filterMap Move.destroyed?

/-! ### Owners -/

/-- What a move does to the set of owned contexts: it leaves it as it is, takes the context away
that is destroyed, or adds the context that is created. -/
inductive Handover (before after : Pump) : Option ContextId → Prop
  | kept (same : ∀ context, after.isOwned context = before.isOwned context)
      (created : after.created = before.created) : Handover before after none
  | lost (gone : ContextId) (owned : before.isOwned gone = true)
      (others : ∀ context, after.isOwned context = (before.isOwned context && context != gone))
      (created : after.created = before.created) : Handover before after (some gone)
  | made
      (others : ∀ context, after.isOwned context =
        (before.isOwned context || context == before.created))
      (created : after.created = before.created + 1) : Handover before after none

theorem Stage.leaving_destroys (enclosing : Option Enclosing) (outcome : Outcome)
    (gone : ContextId) (ended : Outcome) (next : AfterDestruction) :
    Stage.leaving enclosing outcome ≠ .destroying gone ended next := by
  cases enclosing <;> exact Stage.noConfusion

theorem Stage.leaving_holds (enclosing : Option Enclosing) (outcome : Outcome)
    (context : ContextId) : (Stage.leaving enclosing outcome).holds context = false := by
  cases enclosing <;> rfl

theorem Handover.grown {before after : Pump} {gone : Option ContextId}
    (handover : Handover before after gone) : before.created ≤ after.created := by
  cases handover with
  | kept _ created => exact Nat.le_of_eq created.symm
  | lost _ _ _ created => exact Nat.le_of_eq created.symm
  | made _ created => exact created ▸ Nat.le_succ before.created

/-- Giving up a share in a context destroys it if that was the last one. -/
theorem Handover.of_share {before after : Pump} {context : ContextId} (last : Bool)
    (owned : before.isOwned context = true) (still : after.isOwned context = !last)
    (others : ∀ other, other ≠ context → after.isOwned other = before.isOwned other)
    (created : after.created = before.created) :
    Handover before after (if last then some context else none) := by
  cases last with
  | true =>
    refine .lost context owned (fun other => ?_) created
    by_cases same : other = context
    · rw [same, still, bne_self_eq_false, Bool.and_false, Bool.not_true]
    · rw [others other same, bne, beq_false_of_ne same, Bool.not_false, Bool.and_true]
  | false =>
    refine .kept (fun other => ?_) created
    by_cases same : other = context
    · rw [same, still, owned, Bool.not_false]
    · exact others other same

namespace Pump

/-- An invocation begins to wait for a destruction where its stage says so. -/
theorem destroying?_cons {pump : Pump} {top : Invocation} {rest : List Invocation}
    (stack : pump.stack = top :: rest) :
    pump.destroying? = match top.stage with
      | .destroying gone _ _ => some gone
      | _ => none := by
  unfold destroying? request?
  rw [stack, List.head?_cons, Option.map_some]
  cases top.stage with
  | working held point => cases point <;> rfl
  | _ => rfl

theorem isOwned_of_outside {pump : Pump} {context : ContextId} (outside : context ∈ pump.outside) :
    pump.isOwned context = true := by
  rw [isOwned, List.contains_iff_mem.mpr outside, Bool.or_true]

/-- The owners of a context during a run, those first that a step of it can change. -/
theorem isOwned_cons {pump : Pump} {top : Invocation} {rest : List Invocation}
    (stack : pump.stack = top :: rest) (alive : pump.alive = true) (context : ContextId) :
    pump.isOwned context = ((pump.current == context || top.holds context) ||
      (rest.any (Invocation.holds context) || pump.outside.contains context)) := by
  rw [isOwned, stack, alive, List.any_cons, Bool.true_and, Bool.or_assoc, Bool.or_assoc,
    Bool.or_assoc]

/-- A step leaves it open whether a context is owned if the current context and what the invocation
owns stay the same taken together. -/
theorem isOwned_moved {pump next : Pump} {top moved : Invocation} {rest : List Invocation}
    (stack : pump.stack = top :: rest) (kept : next.stack = moved :: rest)
    (alive : pump.alive = true) (callers : next.alive = pump.alive ∧ next.outside = pump.outside)
    {context : ContextId} (same : (next.current == context || moved.holds context) =
      (pump.current == context || top.holds context)) :
    next.isOwned context = pump.isOwned context := by
  rw [isOwned_cons kept (callers.1.trans alive), isOwned_cons stack alive, same, callers.2]

/-- A step hands nothing over if that holds of all contexts. -/
theorem handover_kept {pump next : Pump} {top moved : Invocation} {rest : List Invocation}
    (stack : pump.stack = top :: rest) (kept : next.stack = moved :: rest)
    (alive : pump.alive = true) (callers : next.alive = pump.alive ∧ next.outside = pump.outside)
    (created : next.created = pump.created)
    (undisturbed : ∀ gone outcome after, moved.stage ≠ .destroying gone outcome after)
    (same : ∀ context, (next.current == context || moved.holds context) =
      (pump.current == context || top.holds context)) :
    Handover pump next
      (if next.stack.length = pump.stack.length then next.destroying? else none) := by
  have none : next.destroying? = none := by
    rw [destroying?_cons kept]
    split
    · next gone outcome after stage => exact absurd stage (undisturbed gone outcome after)
    · rfl
  rw [none, ite_self]
  exact .kept (fun context => isOwned_moved stack kept alive callers (same context)) created

/-- A context that is still without a name has no owner but the invocation that had it created. -/
theorem Layered.alone {pump : Pump} {top : Invocation} {rest : List Invocation}
    {contexts : List (Option ContextId)} {made : ContextId} (layered : pump.Layered contexts)
    (sound : pump.Sound) (stack : pump.stack = top :: rest) (stage : top.stage = .naming made) :
    pump.current ≠ made ∧ rest.any (Invocation.holds made) = false ∧ made ∉ pump.outside := by
  have member : top ∈ pump.stack := stack ▸ List.mem_cons_self
  have apart := layered.recorded.home_ne sound.bound layered.falling member stage
  have recorded := layered.recorded
  have bound := sound.bound
  rw [stack] at recorded bound apart
  cases contexts with
  | nil => exact recorded.elim
  | cons own others =>
    obtain ⟨-, works, recorded⟩ := recorded
    obtain ⟨-, binds, suspended⟩ := bound
    simp only [Invocation.Binds, stage] at binds
    rw [stage] at works
    simp only [home, stage, Stage.home] at apart
    refine ⟨binds.2.1 ▸ apart, Bool.not_eq_true _ ▸ fun holds => ?_,
      layered.unshared top member made stage⟩
    have found := recorded.holds_mem suspended.bound holds
    exact Nat.lt_irrefl made (layered.older works found)

/-- A step of the innermost invocation hands over at most one context. -/
theorem RunStep.handover {pump next : Pump} {top : Invocation} {rest : List Invocation}
    {answer : Answer} {contexts : List (Option ContextId)} (layered : pump.Layered contexts)
    (sound : pump.Sound) (stack : pump.stack = top :: rest)
    (step : pump.RunStep top rest top.stage answer next) :
    Handover pump next
      (if next.stack.length = pump.stack.length then next.destroying? else none) := by
  have after := sound.run_step stack step
  have bound := sound.bound
  have alive : pump.alive = true := sound.alive (stack ▸ List.cons_ne_nil top rest)
  have owned := isOwned_cons stack alive
  rw [stack] at bound
  obtain ⟨depth, binds, suspended⟩ := bound
  unfold Invocation.Binds at binds
  generalize stageEq : top.stage = stage at binds step
  cases step
  case create =>
    rw [destroying?_cons rfl, ite_self]
    refine .made (fun context => ?_) rfl
    refine Eq.trans (isOwned_cons rfl ?_ context) ?_
    · exact alive
    · have symmetric : (context == pump.created) = (pump.created == context) := BEq.comm
      rw [owned, symmetric]
      simp only [Invocation.holds, Stage.holds, stageEq, binds.2.2.2.2, Option.any_none,
        Bool.or_false]
      rw [Bool.or_right_comm]
  case namePanicked made message =>
    obtain ⟨current, below, outside⟩ := layered.alone sound stack stageEq
    rw [if_pos (by rw [stack]; rfl), destroying?_cons rfl]
    refine .of_share true ?_ ?_ (fun context apart => ?_) rfl
    · simp [owned, Invocation.holds, Stage.holds, stageEq]
    · refine Eq.trans (isOwned_cons rfl ?_ made) ?_
      · exact alive
      · simp [Invocation.holds, Stage.holds, binds.2.2.2.2, current, below, outside]
    · refine isOwned_moved stack (by rfl) alive (by exact ⟨rfl, rfl⟩) ?_
      simp [Invocation.holds, Stage.holds, stageEq, beq_false_of_ne (Ne.symm apart)]
  case close outcome =>
    rw [if_neg (by rw [stack]; exact Nat.ne_of_lt (Nat.lt_succ_self _))]
    refine .kept (fun context => ?_) rfl
    rw [owned]
    simp [isOwned, alive, Invocation.holds, Stage.holds, stageEq, binds.2.2.2, Bool.or_assoc]
  case conflict taken atCell => exact after.bound.2.1.elim
  case loop held point deadline stage step =>
    rcases step.stage_cases with ⟨next, rfl⟩ | ⟨outcome, rfl⟩
    all_goals
      refine handover_kept stack rfl alive ⟨rfl, rfl⟩ rfl (fun _ _ _ => Stage.noConfusion) ?_
      intro context
      simp [Invocation.holds, Stage.holds, stageEq]
  case release held outcome stillOwned =>
    refine handover_kept stack rfl alive ⟨rfl, rfl⟩ rfl
      (Stage.leaving_destroys top.enclosing outcome) ?_
    intro context
    simp only [Invocation.holds, Stage.leaving_holds]
    simp [Stage.holds, stageEq, binds.1]
  case releaseLast held outcome lost =>
    simp [isOwned, alive, binds.1] at lost
  case destroyed | destroyPanicked =>
    refine handover_kept stack rfl alive ⟨rfl, rfl⟩ rfl (Stage.leaving_destroys top.enclosing _) ?_
    intro context
    simp only [Invocation.holds, Stage.leaving_holds]
    simp [Stage.holds, stageEq]
  -- The pump gives up its share in the nested context, which others may still own.
  case restore outcome enclosing nested stillOwned =>
    rw [destroying?_cons rfl, ite_self]
    refine .of_share false ?_ stillOwned (fun context apart => ?_) rfl
    · rw [owned, beq_self_eq_true, Bool.true_or, Bool.true_or]
    · refine isOwned_moved stack (by rfl) alive (by exact ⟨rfl, rfl⟩) ?_
      simp [Invocation.holds, Stage.holds, stageEq, nested, beq_false_of_ne (Ne.symm apart)]
  case restoreLast outcome enclosing nested lost =>
    rw [if_pos (by rw [stack]; rfl), destroying?_cons rfl]
    refine .of_share true ?_ lost (fun context apart => ?_) rfl
    · rw [owned, beq_self_eq_true, Bool.true_or, Bool.true_or]
    · refine isOwned_moved stack (by rfl) alive (by exact ⟨rfl, rfl⟩) ?_
      simp [Invocation.holds, Stage.holds, stageEq, nested, beq_false_of_ne (Ne.symm apart)]
  case exchange made saved =>
    refine handover_kept stack rfl alive ⟨rfl, rfl⟩ rfl (fun _ _ _ => Stage.noConfusion) ?_
    intro context
    simp [Invocation.holds, Stage.holds, stageEq, binds, Bool.or_comm]
  all_goals
    refine handover_kept stack rfl alive ⟨rfl, rfl⟩ rfl (fun _ _ _ => Stage.noConfusion) ?_
    intro context
    simp [Invocation.holds, Stage.holds, stageEq]

/-- Code outside destroys a context by giving up the last share in it. -/
theorem release_handover {pump : Pump} {context : ContextId} (owned : context ∈ pump.outside) :
    Handover pump (pump.release context).1
      (if (pump.release context).2 then some context else none) := by
  have contains : pump.outside.contains context = true := List.contains_iff_mem.mpr owned
  refine .of_share _ ?_ ?_ (fun other apart => ?_) rfl
  · exact isOwned_of_outside owned
  · show _ = !(pump.outside.contains context && !(pump.release context).1.isOwned context)
    rw [contains, Bool.true_and, Bool.not_not]
  · have same : (pump.outside.erase context).contains other = pump.outside.contains other := by
      rw [Bool.eq_iff_iff, List.contains_iff_mem, List.contains_iff_mem,
        List.mem_erase_of_ne apart]
    simp only [isOwned, release, same]

/-- At its end a pump gives up the context it was created with. -/
theorem retire_handover {pump : Pump} (stack : pump.stack = []) (alive : pump.alive = true) :
    Handover pump pump.retire.1 (if pump.retire.2 then some pump.current else none) := by
  refine .of_share _ ?_ (Bool.not_not _).symm (fun other apart => ?_) rfl
  · simp [isOwned, alive]
  · simp [isOwned, retire, stack, beq_false_of_ne (Ne.symm apart)]

/-- Every move hands over at most one context. -/
theorem Happens.handover {pump next : Pump} {event : PumpEvent} {contexts : List (Option ContextId)}
    (layered : pump.Layered contexts) (sound : pump.Sound) (happens : pump.Happens event next) :
    Handover pump next (Move.destroyed? { before := pump, event, after := next }) := by
  cases happens with
  | answered stack step => exact step.handover layered sound stack
  | entered yields alive running =>
    refine .kept (fun context => ?_) rfl
    simp only [isOwned, List.any_cons]
    split <;> rfl
  | acquired yields context owned =>
    refine .kept (fun other => ?_) rfl
    simp only [isOwned, List.contains_cons]
    by_cases same : other = context
    · subst same
      rcases owned with outside | ⟨alive, current⟩
      · rw [List.contains_iff_mem.mpr outside, Bool.or_true, Bool.or_true]
      · rw [alive, current, beq_self_eq_true, Bool.true_and, Bool.true_or, Bool.true_or,
          Bool.true_or]
    · rw [beq_false_of_ne same, Bool.false_or]
  | released yields context owned => exact release_handover owned
  | retired stack alive => exact retire_handover stack alive
  | _ => exact .kept (fun context => rfl) rfl

/-- Whoever is younger than the context of the innermost invocation is owned outside or not at
all. -/
theorem Layered.owned_younger {pump : Pump} {own : ContextId} {others : List (Option ContextId)}
    {context : ContextId} (layered : pump.Layered (some own :: others)) (sound : pump.Sound)
    (younger : own < context) : pump.isOwned context = true ↔ context ∈ pump.outside := by
  refine ⟨fun owned => ?_, fun outside => ?_⟩
  · rcases layered.owned sound owned with outside | recorded | ⟨idle, -⟩
    · exact outside
    · rcases List.mem_cons.mp recorded with same | outer
      · exact absurd younger (Option.some.inj same ▸ Nat.lt_irrefl own)
      · exact absurd (layered.older rfl outer) (Nat.lt_asymm younger)
    · have recorded := layered.recorded
      rw [idle] at recorded
      exact recorded.elim
  · exact isOwned_of_outside outside

/-- When a nested run is about to end, its context is owned outside or not at all. -/
theorem Layered.owned_closing {pump : Pump} {top : Invocation} {rest : List Invocation}
    {own : ContextId} {others : List (Option ContextId)} {outcome : Outcome}
    (layered : pump.Layered (some own :: others)) (sound : pump.Sound)
    (stack : pump.stack = top :: rest) (nested : rest ≠ []) (stage : top.stage = .closing outcome) :
    pump.isOwned own = true ↔ own ∈ pump.outside := by
  refine ⟨fun owned => ?_, fun outside => ?_⟩
  · have alive := sound.alive (stack ▸ List.cons_ne_nil top rest)
    have recorded := layered.recorded
    have bound := sound.bound
    rw [stack] at recorded bound
    obtain ⟨-, -, recorded⟩ := recorded
    obtain ⟨-, binds, suspended⟩ := bound
    simp only [Invocation.Binds, stage] at binds
    rw [isOwned_cons stack alive] at owned
    simp only [Bool.or_eq_true] at owned
    rcases owned with (current | holds) | (holds | outside)
    · have outer := layered.older rfl (recorded.home_mem nested)
      rw [← binds.2.1, eq_of_beq current] at outer
      exact absurd outer (Nat.lt_irrefl own)
    · simp [Invocation.holds, Stage.holds, stage, binds.2.2.2] at holds
    · have outer := layered.older rfl (recorded.holds_mem suspended.bound holds)
      exact absurd outer (Nat.lt_irrefl own)
    · exact List.contains_iff_mem.mp outside
  · exact isOwned_of_outside outside

end Pump

/-! ### Accounts of whole executions -/

/-- Every context that has been created is either owned or has been destroyed once. -/
theorem Execution.accounted {history : List Move} {pump : Pump}
    (execution : Execution history pump) (context : ContextId) :
    (destroyed history).count context + (if pump.isOwned context then 1 else 0) =
      if context < pump.created then 1 else 0 := by
  induction execution with
  | start name =>
    by_cases first : context = 0
    · subst first
      rfl
    · have later : ¬ context < 1 := Nat.not_lt.mpr (Nat.one_le_iff_ne_zero.mpr first)
      simp [destroyed, Pump.isOwned, Ne.symm first, later]
  | @step history pump event next execution possible inductionHypothesis =>
    have handover := Pump.Happens.handover (Execution.layered execution) (Execution.sound execution)
      (Pump.after?_some possible)
    unfold destroyed at inductionHypothesis ⊢
    rw [List.filterMap_cons]
    generalize Move.destroyed? _ = gone at handover
    cases handover with
    | kept same created =>
      rw [same, created]
      exact inductionHypothesis
    | lost gone owned others created =>
      simp only [others, created, List.count_cons]
      by_cases same : context = gone
      · subst same
        rw [owned] at inductionHypothesis
        simpa using inductionHypothesis
      · simpa [bne, beq_false_of_ne same, beq_false_of_ne (Ne.symm same)]
          using inductionHypothesis
    | made others created =>
      simp only [others, created]
      by_cases same : context = pump.created
      · subst same
        simp only [Nat.lt_irrefl, if_false] at inductionHypothesis
        simp [Nat.eq_zero_of_add_eq_zero_right inductionHypothesis]
      · have bounds : context < pump.created + 1 ↔ context < pump.created := by
          rw [Nat.lt_succ_iff_lt_or_eq, or_iff_left same]
        simp only [bounds, beq_false_of_ne same, Bool.or_false]
        exact inductionHypothesis

theorem Execution.destroyed_count {history : List Move} {pump : Pump}
    (execution : Execution history pump) {context : ContextId} (made : context < pump.created) :
    (destroyed history).count context = if pump.isOwned context then 0 else 1 := by
  have account := execution.accounted context
  rw [if_pos made] at account
  split
  · next owned =>
    rw [if_pos owned] at account
    omega
  · next lost =>
    rw [if_neg lost] at account
    exact account

end MessagePump

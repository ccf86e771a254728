/-
This file proves that runs keep to their own contexts.

A run polls the context that was created for it and no other, so the callbacks of an enclosing
context rest while a nested run is in progress, unless code outside polls that context itself. The
context of a nested run is destroyed exactly once: before the run ends, inner contexts before outer
ones, unless code outside the pump owns it for longer. Once the run has ended nobody polls it.
-/

import MessagePump.Context.Advance
import MessagePump.Proofs.Ownership

namespace MessagePump

/-! ### Contexts of runs that have ended -/

/-- A context comes into the record when it is created, or as the first one. -/
theorem ownContexts_mem {move : Move} {history : List Move} {context : ContextId}
    (recorded : some context ∈ ownContexts (move :: history)) :
    context = 0 ∨ context = move.before.created ∨ some context ∈ ownContexts history := by
  unfold ownContexts at recorded ⊢
  simp only [perInvocation] at recorded
  generalize perInvocation _ _ history = contexts at recorded ⊢
  split at recorded
  · rcases List.mem_cons.mp recorded with first | recorded
    · split at first
      · exact Or.inl (Option.some.inj first)
      · cases first
    · exact Or.inr (Or.inr recorded)
  · split at recorded
    · exact Or.inr (Or.inr (List.mem_of_mem_tail recorded))
    · cases contexts with
      | nil => cases recorded
      | cons own others =>
        rw [List.modifyHead_cons] at recorded
        rcases List.mem_cons.mp recorded with changed | recorded
        · split at changed
          · exact Or.inr (Or.inl (Option.some.inj changed))
          · exact Or.inr (Or.inr (changed ▸ List.mem_cons_self))
        · exact Or.inr (Or.inr (List.mem_cons_of_mem own recorded))
  · exact Or.inr (Or.inr recorded)

/-- A nested context that has left the record does not come back. -/
theorem Execution.unrecorded {later earlier : List Move} {leaving : Move} {pump : Pump}
    {context : ContextId} (execution : Execution (later ++ leaving :: earlier) pump)
    (nested : context ≠ 0) (made : context < leaving.after.created)
    (left : some context ∉ ownContexts (leaving :: earlier)) :
    context < pump.created ∧ some context ∉ ownContexts (later ++ leaving :: earlier) := by
  induction later generalizing pump with
  | nil =>
    cases execution with
    | step => exact ⟨made, left⟩
  | cons move later inductionHypothesis =>
    cases execution with
    | @step _ before _ _ execution possible =>
      obtain ⟨made, left⟩ := inductionHypothesis execution
      have grown : before.created ≤ pump.created :=
        (Pump.Happens.handover (Execution.layered execution) (Execution.sound execution)
          (Pump.after?_some possible)).grown
      refine ⟨Nat.lt_of_lt_of_le made grown, fun recorded => ?_⟩
      rcases ownContexts_mem recorded with first | new | old
      · exact nested first
      · exact Nat.lt_irrefl _ (new ▸ made)
      · exact left old

/-! ### Contexts that nobody polls -/

/-- The stages of a poll, the destruction of a callback on the way to the next one included. -/
def ContextStage.polls : ContextStage → Bool
  | .preparing _ | .waiting _ | .collecting _ _ | .dispatching _ | .calling _ _ _ _
  | .replacing _ _ _ | .discarding _ (.dispatch _) => true
  | _ => false

namespace Context

/-- What can become of a context while nobody starts a poll on it: outside code starts other
operations, and these go on. The operations that were in progress stand still, because the call
that outside code is in is part of them. -/
inductive Unpolled (start : Context) : Context → Prop
  | refl : Unpolled start start
  | watch {context : Context} (descriptor : Descriptor) (interest : Interest)
      (callback : CallbackId) :
    Unpolled start context → Unpolled start (context.watch descriptor interest callback)
  | rewatch {context : Context} (token : Token) (interest : Interest) :
    Unpolled start context → Unpolled start (context.rewatch token interest)
  | unwatch {context : Context} (token : Token) :
    Unpolled start context → Unpolled start (context.unwatch token)
  | advance {context next : Context} {answer : ContextAnswer} {said : List Diagnostic} :
    Unpolled start context → start.tasks.length < context.tasks.length →
      context.advance? answer = some (next, said) → Unpolled start next

/-- An operation that is not a poll does not become one. -/
theorem advanceTop?_tasks {context next : Context} {rest : List ContextStage}
    {stage : ContextStage} {answer : ContextAnswer} {said : List Diagnostic}
    (other : stage.polls = false)
    (advanced : context.advanceTop? rest stage answer = some (next, said)) :
    next.tasks = rest ∨ ∃ moved, moved.polls = false ∧ next.tasks = moved :: rest := by
  cases stage
  case discarding callback after =>
    cases after with
    | dispatch => cases other
    | finish result =>
      cases answer <;> cases result <;> cases advanced <;> exact Or.inr ⟨_, rfl, rfl⟩
  case deleting watch =>
    have moved : ∀ result, (advanceUnwatch?.afterDelete watch result).polls = false := by
      intro result
      unfold advanceUnwatch?.afterDelete
      split <;> rfl
    cases answer <;> cases advanced <;> exact Or.inr ⟨_, moved _, rfl⟩
  case ended result =>
    cases answer <;> cases advanced
    exact Or.inl rfl
  case adding | modifying => cases answer <;> cases advanced <;> exact Or.inr ⟨_, rfl, rfl⟩
  case recording =>
    cases answer <;> simp only [advanceTop?, advanceWatch?, reduceCtorEq, Option.some.injEq]
      at advanced
    split at advanced <;> cases advanced <;> exact Or.inr ⟨_, rfl, rfl⟩
  case finding =>
    cases answer <;> simp only [advanceTop?, advanceRewatch?, reduceCtorEq, Option.some.injEq]
      at advanced
    split at advanced
    · cases advanced
      exact Or.inr ⟨_, rfl, rfl⟩
    · split at advanced <;> cases advanced <;> exact Or.inr ⟨_, rfl, rfl⟩
  case removing =>
    cases answer <;> simp only [advanceTop?, advanceUnwatch?, reduceCtorEq, Option.some.injEq]
      at advanced
    split at advanced
    · cases advanced
      exact Or.inr ⟨_, rfl, rfl⟩
    · split at advanced <;> cases advanced <;> exact Or.inr ⟨_, rfl, rfl⟩
  case conflicted | aborting => cases answer <;> cases advanced
  all_goals cases other

/-- On top of what was in progress there are no polls. -/
theorem Unpolled.tasks {start context : Context} (unpolled : start.Unpolled context) :
    ∃ started, context.tasks = started ++ start.tasks ∧
      ∀ stage ∈ started, stage.polls = false := by
  induction unpolled with
  | refl => exact ⟨[], rfl, nofun⟩
  | watch descriptor interest callback _ inductionHypothesis =>
    obtain ⟨started, tasks, none⟩ := inductionHypothesis
    refine ⟨_ :: started, congrArg (List.cons _) tasks, List.forall_mem_cons.mpr ⟨?_, none⟩⟩
    split <;> rfl
  | rewatch token interest _ inductionHypothesis =>
    obtain ⟨started, tasks, none⟩ := inductionHypothesis
    refine ⟨_ :: started, congrArg (List.cons _) tasks, List.forall_mem_cons.mpr ⟨?_, none⟩⟩
    split <;> rfl
  | unwatch token _ inductionHypothesis =>
    obtain ⟨started, tasks, none⟩ := inductionHypothesis
    exact ⟨_ :: started, congrArg (List.cons _) tasks, List.forall_mem_cons.mpr ⟨rfl, none⟩⟩
  | advance _ above advanced inductionHypothesis =>
    obtain ⟨started, tasks, none⟩ := inductionHypothesis
    cases started with
    | nil =>
      rw [tasks, List.nil_append] at above
      exact absurd above (Nat.lt_irrefl _)
    | cons stage started =>
      obtain ⟨other, none⟩ := List.forall_mem_cons.mp none
      unfold advance? at advanced
      rw [tasks] at advanced
      rcases advanceTop?_tasks other advanced with ended | ⟨moved, still, ongoing⟩
      · exact ⟨started, ended, none⟩
      · exact ⟨moved :: started, ongoing, List.forall_mem_cons.mpr ⟨still, none⟩⟩

/-- A context that nobody polls runs no callback. -/
theorem Unpolled.uncalled {start context : Context} (unpolled : start.Unpolled context)
    (above : start.tasks.length < context.tasks.length) (callback : CallbackId)
    (readiness : Readiness) : context.request? ≠ some (.call callback readiness) := by
  obtain ⟨started, tasks, none⟩ := unpolled.tasks
  cases started with
  | nil =>
    rw [tasks, List.nil_append] at above
    exact absurd above (Nat.lt_irrefl _)
  | cons stage started =>
    have other := (List.forall_mem_cons.mp none).1
    unfold request?
    rw [tasks, List.cons_append, List.head?_cons, Option.map_some]
    intro called
    cases stage <;> first | cases other; done | cases called

end Context

/-! ### Private contexts -/

namespace Execution

variable {history : List Move} {pump : Pump} {context : ContextId}

/-- What an invocation polls is its own context. -/
theorem polled_own (execution : Execution history pump) (polled : pump.polled? = some context) :
    ∃ others, ownContexts history = some context :: others ∧
      (pump.stack.length = 1 → context = 0) := by
  obtain ⟨top, rest, timeout, stack, stage⟩ := Pump.polled?_some polled
  obtain ⟨own, others, contexts, first, works, -⟩ := execution.recorded_cons stack
  rw [stage] at works
  have mine : own = some context := works
  refine ⟨others, mine ▸ contexts, fun single => ?_⟩
  have last : rest = [] := by
    rw [stack, List.length_cons, Nat.succ_inj, List.length_eq_zero_iff] at single
    exact single
  exact Option.some.inj (mine.symm.trans (first last))

/-- The invocations on the stack work on different contexts. -/
theorem contexts_differ (execution : Execution history pump) {inner outer : Nat}
    (inside : inner < outer) (mine : (ownContexts history)[inner]? = some (some context)) :
    (ownContexts history)[outer]? ≠ some (some context) := by
  intro theirs
  obtain ⟨innerBound, mine⟩ := List.getElem?_eq_some_iff.mp mine
  obtain ⟨outerBound, theirs⟩ := List.getElem?_eq_some_iff.mp theirs
  have above := List.pairwise_iff_getElem.mp execution.layered.falling inner outer innerBound
    outerBound inside
  exact Nat.lt_irrefl _ (above context context mine theirs)

/-- When a nested run is about to end, its context has been destroyed or is owned outside. -/
theorem destroyed_closing {outcome : Outcome} (execution : Execution history pump)
    (closing : pump.request? = some (.leave outcome)) (nested : 1 < pump.stack.length)
    (mine : (ownContexts history).head? = some (some context)) :
    (destroyed history).count context = if context ∈ pump.outside then 0 else 1 := by
  obtain ⟨top, head, leaves⟩ := Option.map_eq_some_iff.mp closing
  obtain ⟨rest, stack⟩ := List.head?_eq_some_iff.mp head
  obtain ⟨others, contexts⟩ := List.head?_eq_some_iff.mp mine
  have layered := execution.layered
  rw [contexts] at layered
  have stage : top.stage = .closing outcome := by
    cases stage : top.stage <;> rw [stage] at leaves
    case working held point => cases point <;> cases leaves
    all_goals cases leaves
    rfl
  have around : rest ≠ [] := by
    rintro rfl
    rw [stack] at nested
    exact Nat.lt_irrefl _ nested
  have owned := layered.owned_closing execution.sound stack around stage
  rw [execution.destroyed_count (layered.created context List.mem_cons_self)]
  simp only [owned]

/-- When a run begins to destroy its context, every younger one has been destroyed or is owned
outside. -/
theorem destroyed_younger {younger : ContextId} (execution : Execution history pump)
    (destroying : pump.destroying? = some context) (older : context < younger)
    (made : younger < pump.created) :
    (destroyed history).count younger = if younger ∈ pump.outside then 0 else 1 := by
  cases stack : pump.stack with
  | nil =>
    simp [Pump.destroying?, Pump.request?, stack] at destroying
  | cons top rest =>
    rw [Pump.destroying?_cons stack] at destroying
    obtain ⟨own, others, contexts, -, works, -⟩ := execution.recorded_cons stack
    have layered := execution.layered
    split at destroying
    · next gone outcome after stage =>
      cases destroying
      rw [stage] at works
      rw [contexts, show own = some context from works] at layered
      have owned := layered.owned_younger execution.sound older
      rw [execution.destroyed_count made]
      simp only [owned]
    · cases destroying

/-- The context of a nested run that has been left is not the first one, and it does not come back
into the record. -/
theorem ended_unrecorded {later inside earlier : List Move} {leaving entry : Move}
    (execution : Execution (later ++ leaving :: (inside ++ entry :: earlier)) pump)
    (spans : Spans entry inside leaving) (nested : entry.before.stack ≠ [])
    (mine : (ownContexts (inside ++ entry :: earlier)).head? = some (some context)) :
    context ≠ 0 ∧
      some context ∉ ownContexts (later ++ leaving :: (inside ++ entry :: earlier)) := by
  have ran : Execution (inside ++ entry :: earlier) leaving.before := execution.before
  obtain ⟨-, inner, -⟩ := ran.inside_run spans.enters spans.deeper
  have outer := List.length_pos_iff.mpr nested
  obtain ⟨others, contexts⟩ := List.head?_eq_some_iff.mp mine
  have layered := ran.layered
  rw [contexts] at layered
  have record : ownContexts (leaving :: (inside ++ entry :: earlier)) = others := by
    unfold ownContexts at contexts ⊢
    rw [perInvocation_left execution.after (Nat.lt_of_le_of_lt spans.left inner), contexts,
      List.tail_cons]
  have younger : 0 < context := by
    obtain ⟨top, rest, stack⟩ : ∃ top rest, leaving.before.stack = top :: rest :=
      List.exists_cons_of_length_pos (Nat.lt_trans outer inner)
    have recorded := layered.recorded
    rw [stack] at recorded inner
    have around : rest ≠ [] :=
      List.length_pos_iff.mp (Nat.lt_of_lt_of_le outer (Nat.le_of_lt_succ inner))
    exact Nat.zero_lt_of_lt (layered.older rfl (recorded.2.2.home_mem around))
  have grown : leaving.before.created ≤ leaving.after.created :=
    (Pump.Happens.handover layered ran.sound (Pump.after?_some execution.possible)).grown
  have made : context < leaving.after.created :=
    Nat.lt_of_lt_of_le (layered.created context List.mem_cons_self) grown
  have gone : some context ∉ ownContexts (leaving :: (inside ++ entry :: earlier)) := by
    rw [record]
    exact fun outer => Nat.lt_irrefl context (layered.older rfl outer)
  exact ⟨Nat.ne_of_gt younger, (execution.unrecorded (Nat.ne_of_gt younger) made gone).2⟩

/-- The context of a nested run that has been left is not polled any more. -/
theorem polled_later {later inside earlier : List Move} {leaving entry : Move}
    (execution : Execution (later ++ leaving :: (inside ++ entry :: earlier)) pump)
    (spans : Spans entry inside leaving) (nested : entry.before.stack ≠ [])
    (mine : (ownContexts (inside ++ entry :: earlier)).head? = some (some context)) :
    pump.polled? ≠ some context := by
  intro polled
  obtain ⟨_, recorded, -⟩ := execution.polled_own polled
  exact (execution.ended_unrecorded spans nested mine).2 (recorded ▸ List.mem_cons_self)

end Execution

/-- A run polls the context that was created for it and no other, which is destroyed exactly once
and, unless somebody outside owns it, before the run ends. -/
theorem Execution.private_contexts {history : List Move} {pump : Pump}
    (execution : Execution history pump) :
    (∀ context, pump.polled? = some context →
        (ownContexts history).head? = some (some context) ∧
          some context ∉ (ownContexts history).tail ∧
          (pump.stack.length = 1 → context = 0)) ∧
      (ownContexts history).length = pump.stack.length ∧
      (∀ (inner outer : Nat) context, inner < outer →
        (ownContexts history)[inner]? = some (some context) →
        (ownContexts history)[outer]? ≠ some (some context)) ∧
      (∀ context, context < pump.created →
        (destroyed history).count context = if pump.isOwned context then 0 else 1) ∧
      (∀ context outcome, pump.request? = some (.leave outcome) → 1 < pump.stack.length →
        (ownContexts history).head? = some (some context) →
        (destroyed history).count context = if context ∈ pump.outside then 0 else 1) ∧
      (∀ context younger, pump.destroying? = some context → context < younger →
        younger < pump.created →
        (destroyed history).count younger = if younger ∈ pump.outside then 0 else 1) ∧
      (∀ later leaving inside entry earlier context,
        history = later ++ leaving :: (inside ++ entry :: earlier) → Spans entry inside leaving →
        entry.before.stack ≠ [] →
        (ownContexts (inside ++ entry :: earlier)).head? = some (some context) →
        pump.polled? ≠ some context) ∧
      ∀ (start context : Context), start.Unpolled context →
        start.tasks.length < context.tasks.length → ∀ callback readiness,
        context.request? ≠ some (.call callback readiness) := by
  refine ⟨?_, execution.layered.recorded.length, ?_, ?_, ?_, ?_, ?_, ?_⟩
  · intro context polled
    obtain ⟨others, contexts, first⟩ := execution.polled_own polled
    have layered := execution.layered
    rw [contexts] at layered ⊢
    exact ⟨rfl, fun outer => Nat.lt_irrefl context (layered.older rfl outer), first⟩
  · exact fun _ _ _ inside mine => execution.contexts_differ inside mine
  · exact fun _ made => execution.destroyed_count made
  · exact fun _ _ closing nested mine => execution.destroyed_closing closing nested mine
  · exact fun _ _ destroying older made => execution.destroyed_younger destroying older made
  · rintro later leaving inside entry earlier context rfl spans nested mine
    exact execution.polled_later spans nested mine
  · exact fun _ _ unpolled above callback readiness => unpolled.uncalled above callback readiness

/-- The context of a nested run that a panic ends is destroyed once. -/
theorem Execution.private_contexts_nestedPanic :
    Execution (replayed nestedPanic).1 (replayed nestedPanic).2 ∧
      (destroyed (replayed nestedPanic).1).count 1 = 1 :=
  ⟨.of_replayed nestedPanic,
    ((Execution.private_contexts (.of_replayed nestedPanic)).2.2.2.1 1 (by decide)).trans
      (by decide)⟩

end MessagePump

/-
This file proves that the wake slot follows the current context.

Slot and current context are two cells that a nested run exchanges one after the other, on its way
in and again on its way out. Between the two exchanges the slot is ahead: it is bound to the
context that is becoming current. No outside code runs there, so whoever calls the pump on its own
thread finds both in agreement, and only a request from another thread can arrive in between. A
waker shares the slot and binds nothing of its own, so where its requests arrive does not depend on
when it was obtained.
-/

import MessagePump.Proofs.PrivateContexts

namespace MessagePump

/-! ### Signals and swaps -/

/-- The context that a move of the pump, or of one of its wakers, signals: a request for work goes
to what is bound to the wake slot, and a run that leaves forwards a wake. -/
def Move.signals? (move : Move) : Option ContextId :=
  match move.event, move.before.request? with
  | .scheduled, _ => some move.before.scheduleWork
  | .answered _, some (.signal context) => some context
  | _, _ => none

/-- The context that is becoming current: the innermost invocation has bound its signal to the slot
and has yet to exchange the contexts. -/
def Pump.incoming? (pump : Pump) : Option ContextId :=
  pump.stack.head?.bind fun top =>
    match top.stage with
    | .guarding made _ | .exchanging made _ => some made
    | .regarding _ | .restoring _ => top.enclosing.map Enclosing.context
    | _ => none

/-- A wake is sent to what is bound to the slot. -/
theorem Stage.request_signal {slot context : ContextId} {stage : Stage}
    (signals : stage.request slot = .signal context) : context = slot := by
  cases stage with
  | forwarding outcome =>
    cases signals
    rfl
  | working held point => cases point <;> cases signals
  | _ => cases signals

theorem Move.signals?_scheduled {move : Move} (scheduled : move.event = .scheduled) :
    move.signals? = some move.before.slot := by
  simp only [signals?, scheduled, Pump.scheduleWork]

theorem Move.signals?_some {move : Move} {context : ContextId}
    (signals : move.signals? = some context) : context = move.before.slot := by
  unfold signals? at signals
  split at signals
  · exact (Option.some.inj signals).symm
  · next asked =>
    cases signals
    obtain ⟨top, -, signal⟩ := Option.map_eq_some_iff.mp asked
    exact Stage.request_signal signal
  · cases signals

/-! ### The slot and the current context -/

/-- The slot is bound to the context that is becoming current, and to the current one if none
is. -/
theorem Pump.Sound.slot_eq {pump : Pump} (sound : pump.Sound) :
    pump.slot = pump.incoming?.getD pump.current := by
  have bound := sound.bound
  unfold incoming?
  cases stack : pump.stack with
  | nil =>
    rw [stack] at bound
    exact bound.1.trans bound.2.1.symm
  | cons top rest =>
    rw [stack] at bound
    obtain ⟨-, binds, -⟩ := bound
    unfold Invocation.Binds at binds
    rw [List.head?_cons, Option.bind_some]
    cases stage : top.stage with
    | regarding outcome | restoring outcome =>
      simp only [stage] at binds
      simp only [binds, Option.map_some, Option.getD_some]
    | conflicted => simp only [stage] at binds
    | _ =>
      simp only [stage] at binds
      simp only [binds, Option.getD_some, Option.getD_none]

/-- In the middle of a swap no outside code has the thread of the pump. -/
theorem Pump.incoming?_yields {pump : Pump} {context : ContextId}
    (incoming : pump.incoming? = some context) : pump.yields = false := by
  obtain ⟨top, head, incoming⟩ := Option.bind_eq_some_iff.mp incoming
  unfold yields request?
  rw [head, Option.map_some, Option.all_some]
  cases stage : top.stage <;> rw [stage] at incoming <;> first | rfl | cases incoming

/-- The swap goes on with the invocation that is in it: its next step but one at the latest makes
the context current. -/
theorem Pump.RunStep.swaps {pump next : Pump} {top : Invocation} {rest : List Invocation}
    {answer : Answer} {context : ContextId} (sound : pump.Sound) (stack : pump.stack = top :: rest)
    (step : pump.RunStep top rest top.stage answer next)
    (incoming : pump.incoming? = some context) :
    next.current = context ∨
      pump.guarded = false ∧ next.guarded = true ∧ next.current = pump.current ∧
        next.incoming? = some context := by
  have bound := sound.bound
  rw [stack] at bound
  obtain ⟨-, binds, -⟩ := bound
  unfold Invocation.Binds at binds
  simp only [incoming?, stack, List.head?_cons, Option.bind_some] at incoming
  generalize stageEq : top.stage = stage at binds incoming step
  cases step
  case guard made saved free => exact Or.inr ⟨free, rfl, rfl, incoming⟩
  case exchange made saved => exact Or.inl (Option.some.inj incoming)
  case regard outcome free => exact Or.inr ⟨free, rfl, rfl, incoming⟩
  case restore outcome enclosing nested owned | restoreLast outcome enclosing nested lost =>
    rw [nested] at incoming
    exact Or.inl (Option.some.inj incoming)
  case conflict taken atCell =>
    rcases atCell with rfl | ⟨made, saved, rfl⟩ | ⟨outcome, rfl⟩
    · cases incoming
    · exact absurd (taken.symm.trans binds.2.2.1) (by decide)
    · exact absurd (taken.symm.trans binds.2.1) (by decide)
  all_goals cases incoming

/-- Whatever happens in the middle of a swap leaves it as it is or brings it on. -/
theorem Pump.Happens.swaps {pump next : Pump} {event : PumpEvent} {context : ContextId}
    (sound : pump.Sound) (happens : pump.Happens event next)
    (incoming : pump.incoming? = some context) :
    next.current = context ∨
      next.current = pump.current ∧ next.incoming? = some context ∧
        ∀ answer, event = .answered answer → pump.guarded = false ∧ next.guarded = true := by
  have busy := Pump.incoming?_yields incoming
  cases happens with
  | answered stack step =>
    rcases step.swaps sound stack incoming with done | ⟨free, taken, same, still⟩
    · exact Or.inl done
    · exact Or.inr ⟨same, still, fun _ _ => ⟨free, taken⟩⟩
  | entered yields | quit yields | deadlineSet yields | acquired yields | released yields
  | buried yields => exact absurd (busy.symm.trans yields) (by decide)
  | _ => exact Or.inr ⟨rfl, incoming, fun _ => PumpEvent.noConfusion⟩

/-- During a run the slot is bound to the context of some invocation in progress. -/
theorem Pump.Layered.slot_mem {pump : Pump} {contexts : List (Option ContextId)}
    (layered : pump.Layered contexts) (sound : pump.Sound) (busy : pump.stack ≠ []) :
    some pump.slot ∈ contexts := by
  rw [sound.slot_eq]
  have current := layered.current_mem sound busy
  obtain ⟨top, rest, stack⟩ := List.exists_cons_of_ne_nil busy
  have recorded := layered.recorded
  have bound := sound.bound
  rw [stack] at recorded bound
  cases contexts with
  | nil => exact recorded.elim
  | cons own others =>
    obtain ⟨-, works, recorded⟩ := recorded
    obtain ⟨depth, binds, -⟩ := bound
    have aside : ∀ enclosing, top.enclosing = some enclosing →
        enclosing.context = home rest ∧ 1 < top.depth := fun _ nested => binds.aside nested
    simp only [incoming?, stack, List.head?_cons, Option.bind_some]
    cases stage : top.stage with
    | guarding made saved | exchanging made saved =>
      rw [stage] at works
      exact works ▸ List.mem_cons_self
    | regarding outcome | restoring outcome =>
      cases nested : top.enclosing with
      | none => exact current
      | some enclosing =>
        obtain ⟨outer, deep⟩ := aside enclosing nested
        have around : rest ≠ [] := by
          rintro rfl
          exact absurd deep (depth ▸ Nat.lt_irrefl _)
        rw [Option.map_some, Option.getD_some, outer]
        exact List.mem_cons_of_mem own (recorded.home_mem around)
    | _ => exact current

/-! ### Whole executions -/

section

variable {history : List Move} {pump : Pump}

/-- The context of a nested run that has ended is not bound to the slot any more. -/
theorem Execution.slot_later {later inside earlier : List Move} {leaving entry : Move}
    {context : ContextId}
    (execution : Execution (later ++ leaving :: (inside ++ entry :: earlier)) pump)
    (spans : Spans entry inside leaving) (nested : entry.before.stack ≠ [])
    (mine : (ownContexts (inside ++ entry :: earlier)).head? = some (some context)) :
    pump.slot ≠ context := by
  obtain ⟨younger, gone⟩ := execution.ended_unrecorded spans nested mine
  rintro rfl
  by_cases idle : pump.stack = []
  · have bound := execution.sound.bound
    rw [idle] at bound
    exact younger bound.1
  · exact gone (execution.layered.slot_mem execution.sound idle)

/-- A pump that is gone has left the slot bound to the context that it was created with. -/
theorem Execution.slot_retired (execution : Execution history pump) (gone : pump.alive = false) :
    pump.slot = 0 := by
  have idle : pump.stack = [] :=
    Decidable.byContradiction fun busy =>
      absurd ((execution.sound.alive busy).symm.trans gone) (by decide)
  have bound := execution.sound.bound
  rw [idle] at bound
  exact bound.1

/-- Wherever outside code has the thread, the slot is bound to the context that the pump hands out
as the current one, and a request for work signals that context. A request at any other time
signals the current context or the one that is becoming current, which it then does with the next
two steps of the pump. The context of a nested run that has ended is never signalled again. Once
the pump is gone, its wakers signal the context that it was created with. -/
theorem Execution.slot_follows_context (execution : Execution history pump) :
    (pump.yields = true → pump.context? = some pump.slot) ∧
      (∀ move ∈ history, move.event = .scheduled →
        (move.before.yields = true → move.signals? = move.before.context?) ∧
          (move.signals? = some move.before.current ∨
            move.before.incoming?.isSome = true ∧ move.signals? = move.before.incoming?)) ∧
      (∀ context, pump.incoming? = some context → pump.yields = false ∧
        ∀ event next, pump.after? event = some next → next.current = context ∨
          next.current = pump.current ∧ next.incoming? = some context ∧
            ∀ answer, event = .answered answer → pump.guarded = false ∧ next.guarded = true) ∧
      (∀ later leaving inside entry earlier context,
        history = later ++ leaving :: (inside ++ entry :: earlier) → Spans entry inside leaving →
        entry.before.stack ≠ [] →
        (ownContexts (inside ++ entry :: earlier)).head? = some (some context) →
        ∀ move ∈ later, move.signals? ≠ some context) ∧
      ∀ move ∈ history, move.before.alive = false → move.event = .scheduled →
        move.signals? = some 0 := by
  have agree : ∀ {history : List Move} {pump : Pump}, Execution history pump →
      pump.yields = true → pump.context? = some pump.slot := by
    intro history pump execution yields
    obtain ⟨slot, current, free⟩ := execution.sound.bound.of_yields yields
    rw [slot, ← current]
    simp only [Pump.context?, free, Bool.false_eq_true, if_false]
  refine ⟨agree execution, ?_, ?_, ?_, ?_⟩
  · intro move member scheduled
    obtain ⟨later, earlier, rfl⟩ := List.append_of_mem member
    have signals := Move.signals?_scheduled scheduled
    refine ⟨fun yields => signals.trans (agree execution.before yields).symm, ?_⟩
    rw [signals, execution.before.sound.slot_eq]
    cases move.before.incoming? with
    | none => exact Or.inl rfl
    | some context => exact Or.inr ⟨rfl, rfl⟩
  · exact fun context incoming => ⟨Pump.incoming?_yields incoming, fun event next possible =>
      (Pump.after?_some possible).swaps execution.sound incoming⟩
  · rintro later leaving inside entry earlier context rfl spans nested mine move member signals
    obtain ⟨after, before, rfl⟩ := List.append_of_mem member
    rw [List.append_assoc] at execution
    exact execution.before.slot_later spans nested mine (Move.signals?_some signals).symm
  · intro move member gone scheduled
    obtain ⟨later, earlier, rfl⟩ := List.append_of_mem member
    rw [← execution.before.slot_retired gone]
    exact Move.signals?_scheduled scheduled

end

/-- Work is requested in the middle of the swap, in the nested run, after it and after the end of
the pump. Outside code takes a waker and keeps the context of the nested run. -/
def contextKept : List PumpEvent :=
  [.entered, .answered .done, .entered, .answered .created, .answered .done, .answered .done,
    .scheduled, .answered .done, .answered .done, .answered .done, .wakerAdded, .acquired 1,
    .scheduled, .quit, .answered (.worked false), .answered .done, .answered .done,
    .answered .done, .answered .done, .answered .done, .answered .done, .scheduled, .quit,
    .answered (.worked false), .answered .done, .answered .done, .retired, .scheduled]

theorem Execution.slot_follows_context_contextKept :
    ∃ later leaving inside entry earlier,
      (replayed contextKept).1 = later ++ leaving :: (inside ++ entry :: earlier) ∧
        Spans entry inside leaving ∧ 1 ∈ leaving.after.outside ∧
        inside.filterMap Move.signals? = [0, 1, 1] ∧
        (∀ move ∈ later, move.signals? ≠ some 1) ∧
        ∃ move ∈ later, move.before.alive = false ∧ move.signals? = some 0 := by
  have split : (replayed contextKept).1 = (replayed contextKept).1.take 7 ++
      (replayed contextKept).1.get ⟨7, by decide⟩ :: (((replayed contextKept).1.drop 8).take 17 ++
        (replayed contextKept).1.get ⟨25, by decide⟩ :: (replayed contextKept).1.drop 26) := rfl
  have spans : Spans ((replayed contextKept).1.get ⟨25, by decide⟩)
      (((replayed contextKept).1.drop 8).take 17)
      ((replayed contextKept).1.get ⟨7, by decide⟩) := ⟨by decide, by decide, by decide⟩
  obtain ⟨-, -, -, ended, gone⟩ :=
    Execution.slot_follows_context (Execution.of_replayed contextKept)
  exact ⟨_, _, _, _, _, split, spans, by decide, by decide,
    ended _ _ _ _ _ 1 split spans (by decide) (by decide),
    (replayed contextKept).1.get ⟨0, by decide⟩, by decide, by decide,
    gone _ (by decide) (by decide) (by decide)⟩

end MessagePump

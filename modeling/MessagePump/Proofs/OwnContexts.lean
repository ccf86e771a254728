/-
This file tells which context each invocation works on, and in what order these contexts were
created.

`ownContexts` reads it off the history: the first invocation works on the context that the pump
was created with, a nested one on the context that was created for it. The invariant relates this
record to the state. At each stage that deals with a context of its own, an invocation deals with
the recorded one, and the contexts on the stack were created in the order in which their
invocations were entered, so they are all different.
-/

import MessagePump.Proofs.Nesting

namespace MessagePump

/-! ### The record -/

/-- The context that each invocation on the stack works on, the innermost first. A nested
invocation has none before one has been created for it. -/
def ownContexts : List Move → List (Option ContextId) :=
  perInvocation (fun move => if move.before.stack = [] then some 0 else none)
    fun move own => if move.event = .answered .created then some move.before.created else own

/-- An inner context was created after an outer one. -/
def Above (inner outer : Option ContextId) : Prop :=
  ∀ context other, inner = some context → outer = some other → other < context

/-- At a stage, with `current` as the current context, an invocation deals with its own context and
with no other. -/
def Stage.WorksOn (current : ContextId) (own : Option ContextId) : Stage → Prop
  | .creating => own = none
  | .naming made | .binding made | .guarding made _ | .exchanging made _ => own = some made
  | .starting | .unbinding _ | .regarding _ | .restoring _ => own = some current
  | .working held _ | .releasing held _ => own = some held
  | .destroying gone _ _ => own = some gone
  | .forwarding _ | .closing _ | .conflicted | .aborting => True

/-- The invocations of a stack deal with the recorded contexts, the first one with the context that
the pump was created with. -/
def Recorded (current : ContextId) : List Invocation → List (Option ContextId) → Prop
  | [], [] => True
  | top :: rest, own :: others =>
    (rest = [] → own = some 0) ∧ top.stage.WorksOn current own ∧ Recorded (home rest) rest others
  | _, _ => False

/-- The invariant of a pump and the record of its contexts. A context that has no owner but the
invocation it was just created for is not owned outside. -/
structure Pump.Layered (pump : Pump) (contexts : List (Option ContextId)) : Prop where
  recorded : Recorded pump.current pump.stack contexts
  falling : contexts.Pairwise Above
  created : ∀ context, some context ∈ contexts → context < pump.created
  outside : ∀ context, context ∈ pump.outside → context < pump.created
  unshared : ∀ invocation ∈ pump.stack, ∀ made, invocation.stage = .naming made →
    made ∉ pump.outside
  positive : 0 < pump.created

/-- The context of the innermost invocation is younger than any other recorded one. -/
theorem Pump.Layered.older {pump : Pump} {own : Option ContextId}
    {others : List (Option ContextId)} {context other : ContextId}
    (layered : pump.Layered (own :: others)) (mine : own = some context)
    (outer : some other ∈ others) : other < context :=
  (List.pairwise_cons.mp layered.falling).1 _ outer context other mine rfl

/-! ### Where a context is found in the record -/

theorem Recorded.length {current : ContextId} {stack : List Invocation}
    {contexts : List (Option ContextId)} (recorded : Recorded current stack contexts) :
    contexts.length = stack.length := by
  induction stack generalizing current contexts with
  | nil =>
    cases contexts with
    | nil => rfl
    | cons _ _ => exact recorded.elim
  | cons top rest inductionHypothesis =>
    cases contexts with
    | nil => exact recorded.elim
    | cons own others => rw [List.length_cons, List.length_cons, inductionHypothesis recorded.2.2]

/-- The context to come back to is one of the recorded ones. -/
theorem Recorded.home_mem {current : ContextId} {stack : List Invocation}
    {contexts : List (Option ContextId)} (recorded : Recorded current stack contexts)
    (busy : stack ≠ []) : some (home stack) ∈ contexts := by
  induction stack generalizing current contexts with
  | nil => exact absurd rfl busy
  | cons top rest inductionHypothesis =>
    cases contexts with
    | nil => exact recorded.elim
    | cons own others =>
      obtain ⟨first, works, recorded⟩ := recorded
      have outer : some (home rest) ∈ own :: others := by
        by_cases last : rest = []
        · subst last
          rw [first rfl]
          exact List.mem_cons_self
        · exact List.mem_cons_of_mem own (inductionHypothesis recorded last)
      simp only [home]
      cases stage : top.stage with
      | working held point =>
        rw [stage] at works
        exact works ▸ List.mem_cons_self
      | releasing held outcome =>
        rw [stage] at works
        exact works ▸ List.mem_cons_self
      | _ => exact outer

/-- What an invocation has put aside is the context to come back to, and only a nested invocation
puts something aside. -/
theorem Invocation.Binds.aside {outer slot current : ContextId} {guarded : Bool}
    {invocation : Invocation} {enclosing : Enclosing}
    (binds : invocation.Binds outer slot current guarded)
    (nested : invocation.enclosing = some enclosing) :
    enclosing.context = outer ∧ 1 < invocation.depth := by
  unfold Binds Encloses at binds
  rw [nested] at binds
  cases stage : invocation.stage <;> simp only [stage] at binds <;> simp_all

/-- A context that a stage itself owns is the own context of its invocation. -/
theorem Stage.WorksOn.holds {stage : Stage} {current context : ContextId} {own : Option ContextId}
    (works : stage.WorksOn current own) (holds : stage.holds context = true) :
    own = some context := by
  cases stage with
  | naming made | binding made | guarding made _ | exchanging made _ | working made _
  | releasing made _ =>
    have same : made = context := eq_of_beq holds
    exact same ▸ works
  | _ => cases holds

/-- What an invocation owns is recorded. -/
theorem Recorded.holds_mem {recorder slot current : ContextId} {guarded : Bool}
    {stack : List Invocation} {contexts : List (Option ContextId)} {context : ContextId}
    (recorded : Recorded recorder stack contexts) (bound : Bound slot current guarded stack)
    (holds : stack.any (Invocation.holds context) = true) : some context ∈ contexts := by
  induction stack generalizing recorder slot current guarded contexts with
  | nil => cases holds
  | cons top rest inductionHypothesis =>
    cases contexts with
    | nil => exact recorded.elim
    | cons own others =>
      obtain ⟨first, works, recorded⟩ := recorded
      obtain ⟨depth, binds, suspended⟩ := bound
      rw [List.any_cons, Bool.or_eq_true] at holds
      rcases holds with holds | holds
      · rcases Bool.or_eq_true_iff.mp holds with holds | holds
        · exact works.holds holds ▸ List.mem_cons_self
        · obtain ⟨enclosing, nested, same⟩ := (Option.any_eq_true _ _).mp holds
          obtain ⟨outer, deep⟩ := binds.aside nested
          have around : rest ≠ [] := by
            rintro rfl
            rw [depth] at deep
            exact Nat.lt_irrefl _ deep
          have found := recorded.home_mem around
          rw [← outer, eq_of_beq same] at found
          exact List.mem_cons_of_mem own found
      · exact List.mem_cons_of_mem own (inductionHypothesis recorded suspended.bound holds)

/-- The current context is recorded while a run is in progress. -/
theorem Pump.Layered.current_mem {pump : Pump} {contexts : List (Option ContextId)}
    (layered : pump.Layered contexts) (sound : pump.Sound) (busy : pump.stack ≠ []) :
    some pump.current ∈ contexts := by
  obtain ⟨top, rest, stack⟩ := List.exists_cons_of_ne_nil busy
  have recorded := layered.recorded
  have bound := sound.bound
  rw [stack] at recorded bound
  cases contexts with
  | nil => exact recorded.elim
  | cons own others =>
    obtain ⟨first, works, recorded⟩ := recorded
    obtain ⟨-, binds, -⟩ := bound
    have outer : some (home rest) ∈ own :: others := by
      by_cases last : rest = []
      · subst last
        rw [first rfl]
        exact List.mem_cons_self
      · exact List.mem_cons_of_mem own (recorded.home_mem last)
    have either : own = some pump.current ∨ pump.current = home rest := by
      unfold Invocation.Binds at binds
      cases stage : top.stage <;> rw [stage] at works <;> simp only [stage] at binds
      case working held point | releasing held outcome =>
        rw [← binds.1]
        exact Or.inl works
      all_goals first | exact Or.inl works | exact Or.inr binds.2.1
    rcases either with mine | same
    · exact mine ▸ List.mem_cons_self
    · rw [same]
      exact outer

/-- A context that is owned at all is owned outside or recorded, or it is the one that an idle
pump was created with. -/
theorem Pump.Layered.owned {pump : Pump} {contexts : List (Option ContextId)} {context : ContextId}
    (layered : pump.Layered contexts) (sound : pump.Sound) (owned : pump.isOwned context = true) :
    context ∈ pump.outside ∨ some context ∈ contexts ∨ pump.stack = [] ∧ context = 0 := by
  rw [isOwned, Bool.or_eq_true, Bool.or_eq_true, Bool.and_eq_true] at owned
  rcases owned with (⟨-, current⟩ | holds) | outside
  · refine Or.inr ?_
    rw [← eq_of_beq current]
    by_cases busy : pump.stack = []
    · have bound := sound.bound
      rw [busy] at bound
      exact Or.inr ⟨busy, bound.2.1⟩
    · exact Or.inl (layered.current_mem sound busy)
  · exact Or.inr (Or.inl (layered.recorded.holds_mem sound.bound holds))
  · exact Or.inl (List.contains_iff_mem.mp outside)

/-- A context that is still without a name is not the one to come back to. -/
theorem Recorded.home_ne {recorder slot current : ContextId} {guarded : Bool}
    {stack : List Invocation} {contexts : List (Option ContextId)} {made : ContextId}
    (recorded : Recorded recorder stack contexts) (bound : Bound slot current guarded stack)
    (falling : contexts.Pairwise Above) {invocation : Invocation} (member : invocation ∈ stack)
    (stage : invocation.stage = .naming made) : home stack ≠ made := by
  induction stack generalizing recorder slot current guarded contexts with
  | nil => cases member
  | cons top rest inductionHypothesis =>
    cases contexts with
    | nil => exact recorded.elim
    | cons own others =>
      obtain ⟨first, works, recorded⟩ := recorded
      obtain ⟨depth, binds, suspended⟩ := bound
      obtain ⟨above, falling⟩ := List.pairwise_cons.mp falling
      rcases List.mem_cons.mp member with rfl | member
      · rw [stage] at works
        unfold Invocation.Binds at binds
        simp only [stage] at binds
        have around : rest ≠ [] := by
          rintro rfl
          exact absurd binds.2.2.2.1 (depth ▸ Nat.lt_irrefl _)
        simp only [home, stage, Stage.home]
        exact Nat.ne_of_lt (above _ (recorded.home_mem around) made _ works rfl)
      · have found : some made ∈ others := by
          refine recorded.holds_mem suspended.bound (List.any_eq_true.mpr ⟨_, member, ?_⟩)
          rw [Invocation.holds, stage, Stage.holds, beq_self_eq_true, Bool.true_or]
        have outer : home rest ≠ made :=
          inductionHypothesis recorded suspended.bound falling member
        simp only [home]
        cases held : top.stage with
        | working held point | releasing held outcome =>
          rw [held] at works
          exact Nat.ne_of_gt (above _ found _ made works rfl)
        | _ => exact outer

/-- No loop further out works on the context of the innermost one. -/
theorem Pump.Layered.loops_differ {pump : Pump} {contexts : List (Option ContextId)}
    {top other : Invocation} {rest : List Invocation} {held : ContextId} {point : LoopPoint}
    (layered : pump.Layered contexts) (sound : pump.Sound) (stack : pump.stack = top :: rest)
    (stage : top.stage = .working held point) (member : other ∈ rest) (elsewhere : LoopPoint) :
    other.stage ≠ .working held elsewhere := by
  intro same
  have recorded := layered.recorded
  have bound := sound.bound
  rw [stack] at recorded bound
  cases contexts with
  | nil => exact recorded.elim
  | cons own others =>
    obtain ⟨-, works, recorded⟩ := recorded
    rw [stage] at works
    have found : some held ∈ others := by
      refine recorded.holds_mem bound.2.2.bound (List.any_eq_true.mpr ⟨other, member, ?_⟩)
      rw [Invocation.holds, same, Stage.holds, beq_self_eq_true, Bool.true_or]
    exact Nat.lt_irrefl held (layered.older works found)

/-! ### One step -/

/-- A step that creates nothing keeps the invariant if the invocation deals with its own context
at the new stage. -/
theorem Pump.Layered.of_top {pump next : Pump} {top moved : Invocation} {rest : List Invocation}
    {own : Option ContextId} {others : List (Option ContextId)}
    (layered : pump.Layered (own :: others)) (stack : pump.stack = top :: rest)
    (kept : next.stack = moved :: rest) (outside : next.outside = pump.outside)
    (created : next.created = pump.created) (works : moved.stage.WorksOn next.current own)
    (named : ∀ made, moved.stage ≠ .naming made) : next.Layered (own :: others) := by
  obtain ⟨recorded, falling, bounded, known, unshared, positive⟩ := layered
  rw [stack] at recorded unshared
  refine ⟨?_, falling, ?_, ?_, ?_, created ▸ positive⟩
  · rw [kept]
    exact ⟨recorded.1, works, recorded.2.2⟩
  · rw [created]
    exact bounded
  · rw [outside, created]
    exact known
  · rw [kept, outside]
    intro invocation member made stage
    rcases List.mem_cons.mp member with rfl | member
    · exact absurd stage (named made)
    · exact unshared invocation (List.mem_cons_of_mem top member) made stage

theorem Stage.leaving_ne (enclosing : Option Enclosing) (outcome : Outcome) (made : ContextId) :
    Stage.leaving enclosing outcome ≠ .naming made := by
  cases enclosing <;> exact Stage.noConfusion

theorem Stage.WorksOn.leaving {current : ContextId} {own : Option ContextId}
    (mine : own = some current) (enclosing : Option Enclosing) (outcome : Outcome) :
    (Stage.leaving enclosing outcome).WorksOn current own := by
  cases enclosing with
  | none => trivial
  | some _ => exact mine

/-- A step of the innermost invocation keeps the invariant. -/
theorem Pump.Layered.run_step {pump next : Pump} {top : Invocation} {rest : List Invocation}
    {answer : Answer} {own : Option ContextId} {others : List (Option ContextId)}
    (layered : pump.Layered (own :: others)) (sound : pump.Sound)
    (stack : pump.stack = top :: rest) (step : pump.RunStep top rest top.stage answer next) :
    next.Layered (if next.stack.length < pump.stack.length then others
      else (if answer = .created then some pump.created else own) :: others) := by
  have bound := sound.bound
  rw [stack] at bound
  obtain ⟨depth, binds, suspended⟩ := bound
  have recorded := layered.recorded
  rw [stack] at recorded
  obtain ⟨first, works, recorded⟩ := recorded
  unfold Invocation.Binds at binds
  rw [stack]
  generalize stageEq : top.stage = stage at binds works step
  cases step
  case create =>
    simp only [List.length_cons, Nat.lt_irrefl, if_false, if_true]
    obtain ⟨-, falling, bounded, known, unshared, -⟩ := layered
    have around : rest ≠ [] := by
      rintro rfl
      exact absurd binds.2.2.2.1 (depth ▸ Nat.lt_irrefl _)
    refine ⟨⟨fun last => absurd last around, rfl, recorded⟩, ?_, ?_, ?_, ?_,
      Nat.succ_pos pump.created⟩
    · refine List.pairwise_cons.mpr ⟨?_, (List.pairwise_cons.mp falling).2⟩
      rintro _ member _ outer ⟨⟩ rfl
      exact bounded outer (List.mem_cons_of_mem own member)
    · intro context member
      rcases List.mem_cons.mp member with made | member
      · exact Option.some.inj made ▸ Nat.lt_succ_self pump.created
      · exact Nat.lt_succ_of_lt (bounded context (List.mem_cons_of_mem own member))
    · exact fun context member => Nat.lt_succ_of_lt (known context member)
    · intro invocation member made stage
      rcases List.mem_cons.mp member with rfl | member
      · cases stage
        exact fun shared => absurd (known _ shared) (Nat.lt_irrefl _)
      · exact unshared invocation (stack ▸ List.mem_cons_of_mem top member) made stage
  case close outcome =>
    simp only [List.length_cons, Nat.lt_succ_self, if_true]
    obtain ⟨-, falling, bounded, known, unshared, positive⟩ := layered
    refine ⟨?_, (List.pairwise_cons.mp falling).2, ?_, known, ?_, positive⟩
    · show Recorded pump.current rest others
      rw [binds.2.1]
      exact recorded
    · exact fun context member => bounded context (List.mem_cons_of_mem own member)
    · exact fun invocation member =>
        unshared invocation (stack ▸ List.mem_cons_of_mem top member)
  case loop held point deadline stage step =>
    rw [if_neg (by simp), if_neg step.answer_ne]
    rcases step.stage_cases with ⟨point, rfl⟩ | ⟨outcome, rfl⟩
    · exact of_top layered stack rfl rfl rfl works fun _ => Stage.noConfusion
    · exact of_top layered stack rfl rfl rfl works fun _ => Stage.noConfusion
  all_goals simp only [List.length_cons, Nat.lt_irrefl, if_false, reduceCtorEq]
  case conflict taken atCell =>
    exact of_top layered stack rfl rfl rfl trivial fun _ => Stage.noConfusion
  case release held outcome owned =>
    have mine : own = some pump.current := by
      rw [← binds.1]
      exact works
    exact of_top layered stack rfl rfl rfl (.leaving mine top.enclosing outcome)
      (Stage.leaving_ne top.enclosing outcome)
  case destroyed | destroyPanicked =>
    rw [binds.2.2.2]
    exact of_top layered stack rfl rfl rfl trivial fun _ => Stage.noConfusion
  case createFailed | createPanicked | destroyedNested | destroyPanickedNested | abort |
      restore | forward =>
    exact of_top layered stack rfl rfl rfl trivial fun _ => Stage.noConfusion
  all_goals exact of_top layered stack rfl rfl rfl works fun _ => Stage.noConfusion

/-! ### A whole execution -/

/-- A run that is entered has no context yet, unless it is the first. -/
theorem Pump.Layered.entered {pump : Pump} {contexts : List (Option ContextId)}
    (layered : pump.Layered contexts) (sound : pump.Sound) (yields : pump.yields = true) :
    { pump with
      level := pump.level + 1
      stack := {
        depth := pump.level + 1
        stage := if pump.level + 1 > 1 then .creating else .starting } :: pump.stack }.Layered
      ((if pump.stack = [] then some 0 else none) :: contexts) := by
  obtain ⟨recorded, falling, bounded, known, unshared, positive⟩ := layered
  obtain ⟨-, current, -⟩ := sound.bound.of_yields yields
  have level := sound.level
  rw [current] at recorded
  by_cases idle : pump.stack = []
  · have empty : contexts = [] := by
      rw [← List.length_eq_zero_iff, recorded.length, idle, List.length_nil]
    have first : ¬ pump.level + 1 > 1 := by
      rw [level, idle, List.length_nil]
      exact Nat.lt_irrefl 1
    rw [if_pos idle, empty]
    rw [empty] at recorded
    simp only [if_neg first]
    refine ⟨⟨fun _ => rfl, ?_, recorded⟩, List.pairwise_singleton _ _, ?_, known, ?_, positive⟩
    · show some 0 = some pump.current
      rw [current, idle]
      rfl
    · rintro context member
      rw [List.mem_singleton.mp member |> Option.some.inj]
      exact positive
    · intro invocation member made stage
      rw [idle] at member
      cases List.mem_singleton.mp member
      cases stage
  · have nested : pump.level + 1 > 1 := by
      rw [level]
      exact Nat.succ_lt_succ (List.length_pos_iff.mpr idle)
    rw [if_neg idle]
    simp only [if_pos nested]
    refine ⟨⟨fun last => absurd last idle, rfl, recorded⟩, ?_, ?_, known, ?_, positive⟩
    · refine List.pairwise_cons.mpr ⟨?_, falling⟩
      rintro _ _ _ _ ⟨⟩
    · intro context member
      rcases List.mem_cons.mp member with none | member
      · cases none
      · exact bounded context member
    · intro invocation member made stage
      rcases List.mem_cons.mp member with rfl | member
      · cases stage
      · exact unshared invocation member made stage

/-- Code outside can become an owner only of what is known there and of what is current. -/
theorem Pump.Layered.acquired {pump : Pump} {contexts : List (Option ContextId)}
    {context : ContextId} (layered : pump.Layered contexts) (sound : pump.Sound)
    (yields : pump.yields = true)
    (owned : context ∈ pump.outside ∨ pump.alive = true ∧ pump.current = context) :
    { pump with outside := context :: pump.outside }.Layered contexts := by
  obtain ⟨-, current, -⟩ := sound.bound.of_yields yields
  have mem := layered.current_mem sound
  obtain ⟨recorded, falling, bounded, known, unshared, positive⟩ := layered
  refine ⟨recorded, falling, bounded, ?_, ?_, positive⟩
  · intro other member
    rcases List.mem_cons.mp member with rfl | member
    · rcases owned with outside | ⟨-, rfl⟩
      · exact known other outside
      · by_cases idle : pump.stack = []
        · rw [current, idle]
          exact positive
        · exact bounded _ (mem idle)
    · exact known other member
  · intro invocation member made stage shared
    rcases List.mem_cons.mp shared with rfl | shared
    · rcases owned with outside | ⟨-, same⟩
      · exact unshared invocation member made stage outside
      · exact recorded.home_ne sound.bound falling member stage (current.symm.trans same)
    · exact unshared invocation member made stage shared

/-- Whatever happens to the pump keeps the invariant, with the record as it is then. -/
theorem Pump.Layered.happens {pump next : Pump} {event : PumpEvent} {earlier : List Move}
    (layered : pump.Layered (ownContexts earlier)) (sound : pump.Sound)
    (happens : pump.Happens event next) :
    next.Layered (ownContexts ({ before := pump, event, after := next } :: earlier)) := by
  unfold ownContexts at layered ⊢
  simp only [perInvocation]
  generalize perInvocation _ _ earlier = contexts at layered
  have before := layered
  obtain ⟨recorded, falling, bounded, known, unshared, positive⟩ := before
  cases happens with
  | @answered top rest _ _ stack step =>
    cases contexts with
    | nil =>
      rw [stack] at recorded
      exact recorded.elim
    | cons own others =>
      have moved := layered.run_step sound stack step
      simpa only [List.tail_cons, List.modifyHead_cons, PumpEvent.answered.injEq] using moved
  | entered yields alive running => exact layered.entered sound yields
  | acquired yields context owned => exact layered.acquired sound yields owned
  | released yields context owned =>
    exact ⟨recorded, falling, bounded,
      fun other member => known other (List.mem_of_mem_erase member),
      fun invocation member made stage shared =>
        unshared invocation member made stage (List.mem_of_mem_erase shared), positive⟩
  | _ => exact ⟨recorded, falling, bounded, known, unshared, positive⟩

theorem Execution.layered {history : List Move} {pump : Pump}
    (execution : Execution history pump) : pump.Layered (ownContexts history) := by
  induction execution with
  | start name =>
    refine ⟨trivial, .nil, ?_, ?_, List.forall_mem_nil _, Nat.one_pos⟩
    · exact fun _ member => absurd member List.not_mem_nil
    · exact fun _ member => absurd member List.not_mem_nil
  | step execution possible inductionHypothesis =>
    exact inductionHypothesis.happens (Execution.sound execution) (Pump.after?_some possible)

/-- The record of a run in progress has an entry for its innermost invocation. -/
theorem Execution.recorded_cons {history : List Move} {pump : Pump} {top : Invocation}
    {rest : List Invocation} (execution : Execution history pump)
    (stack : pump.stack = top :: rest) :
    ∃ own others, ownContexts history = own :: others ∧ (rest = [] → own = some 0) ∧
      top.stage.WorksOn pump.current own ∧ Recorded (home rest) rest others := by
  have recorded := execution.layered.recorded
  rw [stack] at recorded
  cases contexts : ownContexts history with
  | nil =>
    rw [contexts] at recorded
    exact recorded.elim
  | cons own others =>
    rw [contexts] at recorded
    exact ⟨own, others, rfl, recorded⟩

end MessagePump

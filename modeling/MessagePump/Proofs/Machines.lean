/-
This file holds what contexts and hook slots have in common: they are machines whose operations
nest.

Code outside the machine that has the thread can call an operation, also from within what an
operation in progress has called; the innermost operation moves on when it is answered. No
assumption is made on who calls, who answers, or how: a history is any sequence of calls and answers
that the machine accepts. Each operation is followed from its call on by its `Course`, as long as it
is in progress in `courses` and with its last transition in `endings`. What is to be shown of every
operation is shown transition by transition: `Machine.Followed` lists the obligations and
`History.follow` draws the conclusion.
-/

import MessagePump.Proofs.Histories

namespace MessagePump

/-! ### Machines and their histories -/

/-- What happens to a machine: an operation is called, or the innermost one is answered. -/
inductive MachineEvent (Call Answer : Type)
  | called (call : Call)
  | answered (answer : Answer)
  deriving DecidableEq

/-- An event with the state before and after it. -/
abbrev Transition (State Call Answer : Type) := Occurrence State (MachineEvent Call Answer)

/-- A machine keeps the stages of the operations in progress, the innermost first. A call puts
another one in front; an answer moves the innermost one to another stage or ends it. -/
structure Machine (State Call Answer Stage : Type) where
  tasks : State → List Stage
  begin? : State → Call → Option State
  advance? : State → Answer → Option State
  begins : ∀ {state next call}, begin? state call = some next →
    ∃ first, tasks next = first :: tasks state
  advances : ∀ {state next answer}, advance? state answer = some next →
    ∃ stage rest, tasks state = stage :: rest ∧
      (tasks next = rest ∨ ∃ moved, tasks next = moved :: rest)

/-- An operation: what was called, what had happened by then, how things were, and the transitions
that it has made as the innermost operation, the latest first. -/
structure Course (State Call Answer : Type) where
  call : Call
  past : List (Transition State Call Answer)
  start : State
  own : List (Transition State Call Answer)

namespace Machine

variable {State Call Answer Stage : Type} (machine : Machine State Call Answer Stage)

/-- What an event makes of a state, if the machine accepts it. -/
def after? (state : State) : MachineEvent Call Answer → Option State
  | .called call => machine.begin? state call
  | .answered answer => machine.advance? state answer

/-- The histories of a machine from a start on. -/
abbrev History (start : State) : List (Transition State Call Answer) → State → Prop :=
  Chronicle (fun _ : Unit => start) machine.after?

/-- The history from a start on if some events happen, as far as they are accepted. -/
def replayed (start : State) (events : List (MachineEvent Call Answer)) :
    List (Transition State Call Answer) × State :=
  Chronicle.replayed machine.after? start events

theorem History.of_replayed (start : State) (events : List (MachineEvent Call Answer)) :
    machine.History start (machine.replayed start events).1 (machine.replayed start events).2 :=
  Chronicle.of_replayed () events

/-- Whether an operation ends with a transition. -/
def ends (transition : Transition State Call Answer) : Bool :=
  decide ((machine.tasks transition.after).length < (machine.tasks transition.before).length)

/-- The operations in progress, the innermost first. -/
def courses : List (Transition State Call Answer) → List (Course State Call Answer)
  | [] => []
  | transition :: past =>
    match transition.event with
    | .called call => { call, past, start := transition.before, own := [] } :: courses past
    | .answered _ =>
      if machine.ends transition then (courses past).tail
      else (courses past).modifyHead fun course =>
        { course with own := transition :: course.own }

/-- The operations that have ended, the latest first, with their last transitions. -/
def endings : List (Transition State Call Answer) →
    List (Course State Call Answer × Transition State Call Answer)
  | [] => []
  | transition :: past =>
    match machine.ends transition, courses machine past with
    | true, course :: _ => (course, transition) :: endings past
    | _, _ => endings past

/-- What is read off the stage that was answered, and the answer. -/
def told? {Fact : Type} (read : Stage → Answer → Option Fact)
    (transition : Transition State Call Answer) : Option Fact :=
  match transition.event with
  | .called _ => none
  | .answered answer =>
    (machine.tasks transition.before).head?.bind fun stage => read stage answer

variable {machine} {start : State}

theorem stage_of_told? {Fact : Type} {read : Stage → Answer → Option Fact}
    {transition : Transition State Call Answer} {fact : Fact}
    (told : machine.told? read transition = some fact) :
    ∃ answer stage rest, transition.event = .answered answer ∧
      machine.tasks transition.before = stage :: rest ∧ read stage answer = some fact := by
  obtain ⟨before, event, after⟩ := transition
  cases event with
  | called call => cases told
  | answered answer =>
    obtain ⟨stage, top, holds⟩ := Option.bind_eq_some_iff.mp told
    obtain ⟨rest, tasks⟩ := List.head?_eq_some_iff.mp top
    exact ⟨answer, stage, rest, rfl, tasks, holds⟩

theorem filterMap_cons_toList {Item Fact : Type} (read : Item → Option Fact) (first : Item)
    (others : List Item) :
    (first :: others).filterMap read = (read first).toList ++ others.filterMap read := by
  rw [List.filterMap_cons]
  cases read first <;> rfl

/-- An item before some others of a list is told by those. -/
theorem split_unique {Item : Type} {later newer earlier : List Item} {item other : Item}
    (same : later ++ item :: earlier = newer ++ other :: earlier) :
    later = newer ∧ item = other := by
  obtain ⟨front, back⟩ := List.append_inj' same rfl
  exact ⟨front, (List.cons.inj back).1⟩

theorem told?_answered {Fact : Type} {before : State} {stage : Stage} {rest : List Stage}
    (tasks : machine.tasks before = stage :: rest) (read : Stage → Answer → Option Fact)
    (answer : Answer) (after : State) :
    machine.told? read ⟨before, .answered answer, after⟩ = read stage answer := by
  change ((machine.tasks before).head?.bind fun stage => read stage answer) = _
  rw [tasks, List.head?_cons, Option.bind_some]

theorem filterMap_told? {Fact : Type} {before : State} {stage : Stage} {rest : List Stage}
    (tasks : machine.tasks before = stage :: rest) (read : Stage → Answer → Option Fact)
    (answer : Answer) (after : State) (past : List (Transition State Call Answer)) :
    List.filterMap (machine.told? read) (⟨before, .answered answer, after⟩ :: past) =
      (read stage answer).toList ++ past.filterMap (machine.told? read) := by
  rw [filterMap_cons_toList, told?_answered tasks]

/-! ### Operations in progress -/

variable {before after : State} {past : List (Transition State Call Answer)}

theorem courses_called {call : Call} :
    machine.courses ({ before, event := .called call, after } :: past) =
      { call, past, start := before, own := [] } :: machine.courses past :=
  rfl

/-- The innermost operation goes on. -/
theorem courses_moved {answer : Answer} {course : Course State Call Answer}
    {others : List (Course State Call Answer)} (progress : machine.courses past = course :: others)
    (kept : (machine.tasks after).length = (machine.tasks before).length) :
    machine.courses ({ before, event := .answered answer, after } :: past) =
      { course with own := { before, event := .answered answer, after } :: course.own } ::
        others := by
  simp only [courses, ends, kept, Nat.lt_irrefl, decide_false, Bool.false_eq_true, if_false,
    progress, List.modifyHead_cons]

/-- The innermost operation ends. -/
theorem courses_ended {answer : Answer}
    (shorter : (machine.tasks after).length < (machine.tasks before).length) :
    machine.courses ({ before, event := .answered answer, after } :: past) =
      (machine.courses past).tail := by
  simp only [courses, ends, shorter, decide_true, if_true]

/-- What a course holds has happened: its call, all that is kept as its past, and its own
transitions. -/
theorem mem_courses {course : Course State Call Answer} (member : course ∈ machine.courses past) :
    (∃ since call, past = since ++ call :: course.past ∧ call.before = course.start ∧
      call.event = .called course.call) ∧ ∀ transition ∈ course.own, transition ∈ past := by
  induction past generalizing course with
  | nil => cases member
  | cons transition past inductionHypothesis =>
    have kept : ∀ course ∈ machine.courses past,
        (∃ since call, transition :: past = since ++ call :: course.past ∧
          call.before = course.start ∧ call.event = .called course.call) ∧
          ∀ own ∈ course.own, own ∈ transition :: past := by
      intro course member
      obtain ⟨⟨since, call, rfl, facts⟩, own⟩ := inductionHypothesis member
      exact ⟨⟨transition :: since, call, rfl, facts⟩,
        fun other member => List.mem_cons_of_mem _ (own other member)⟩
    unfold courses at member
    split at member
    · next call called =>
      rcases List.mem_cons.mp member with rfl | member
      · exact ⟨⟨[], transition, rfl, rfl, called⟩, nofun⟩
      · exact kept course member
    · split at member
      · exact kept course (List.mem_of_mem_tail member)
      · cases progress : machine.courses past with
        | nil =>
          rw [progress] at member
          cases member
        | cons innermost others =>
          rw [progress, List.modifyHead_cons] at member
          rw [progress] at kept
          rcases List.mem_cons.mp member with rfl | member
          · obtain ⟨called, own⟩ := kept innermost List.mem_cons_self
            exact ⟨called, List.forall_mem_cons.mpr ⟨List.mem_cons_self, own⟩⟩
          · exact kept course (List.mem_cons_of_mem _ member)

/-- Courses and stages belong together one by one: below the stage of an operation are the tasks
that were in progress when it was called, and `fits` holds of each pair. -/
inductive Stacked (machine : Machine State Call Answer Stage)
    (fits : Course State Call Answer → Stage → Prop) :
    List (Course State Call Answer) → List Stage → Prop
  | nil : Stacked machine fits [] []
  | cons {course : Course State Call Answer} {others : List (Course State Call Answer)}
      {stage : Stage} {rest : List Stage} (below : machine.tasks course.start = rest)
      (own : fits course stage) (around : Stacked machine fits others rest) :
    Stacked machine fits (course :: others) (stage :: rest)

namespace Stacked

variable {fits kept : Course State Call Answer → Stage → Prop}
  {courses : List (Course State Call Answer)} {stages : List Stage}

theorem imp (stacked : machine.Stacked fits courses stages)
    (keeps : ∀ course, ∀ stage ∈ stages, fits course stage → kept course stage) :
    machine.Stacked kept courses stages := by
  induction stacked with
  | nil => exact .nil
  | cons below own _ inductionHypothesis =>
    obtain ⟨first, others⟩ := List.forall_mem_cons.mp fun stage member course =>
      keeps course stage member
    exact .cons below (first _ own) (inductionHypothesis fun course stage member =>
      others stage member course)

theorem mem (stacked : machine.Stacked fits courses stages) {course : Course State Call Answer}
    (member : course ∈ courses) : ∃ stage ∈ stages, fits course stage := by
  induction stacked with
  | nil => cases member
  | cons below own _ inductionHypothesis =>
    rcases List.mem_cons.mp member with rfl | member
    · exact ⟨_, List.mem_cons_self, own⟩
    · obtain ⟨stage, inside, fits⟩ := inductionHypothesis member
      exact ⟨stage, List.mem_cons_of_mem _ inside, fits⟩

end Stacked

/-- What is to be shown in order to know something of every operation at the stage where it stands:
when it is called, with each transition of its own, and while it is around others. -/
structure Followed (machine : Machine State Call Answer Stage) (start : State)
    (fits : State → Course State Call Answer → Stage → Prop) : Prop where
  idle : machine.tasks start = []
  fresh : ∀ {past state call next first}, machine.History start past state →
    machine.begin? state call = some next → machine.tasks next = first :: machine.tasks state →
    fits next { call, past, start := state, own := [] } first
  own : ∀ {past state answer next stage moved rest course}, machine.History start past state →
    machine.advance? state answer = some next → machine.tasks state = stage :: rest →
    machine.tasks next = moved :: rest → machine.tasks course.start = rest →
    fits state course stage →
    fits next { course with
      own := { before := state, event := .answered answer, after := next } :: course.own } moved
  aside : ∀ {past state event next stage course}, machine.History start past state →
    machine.after? state event = some next →
    stage ∈ (machine.tasks state).tail ∨ stage ∈ (machine.tasks next).tail →
    fits state course stage → fits next course stage

variable {fits : State → Course State Call Answer → Stage → Prop}

theorem History.follow (followed : machine.Followed start fits) {state : State}
    (history : machine.History start past state) :
    machine.Stacked (fits state) (machine.courses past) (machine.tasks state) := by
  induction history with
  | start => exact followed.idle ▸ .nil
  | @step past state event next history accepted inductionHypothesis =>
    cases event with
    | called call =>
      obtain ⟨first, tasks⟩ := machine.begins accepted
      rw [courses_called, tasks]
      refine .cons rfl (followed.fresh history accepted tasks) (inductionHypothesis.imp ?_)
      intro course stage member
      exact followed.aside history accepted (Or.inr (tasks ▸ member))
    | answered answer =>
      obtain ⟨stage, rest, tasks, moves⟩ := machine.advances accepted
      rw [tasks] at inductionHypothesis
      generalize progress : machine.courses past = courses at inductionHypothesis
      obtain _ | ⟨below, own, around⟩ := inductionHypothesis
      have aside : machine.Stacked (fits next) _ rest := around.imp fun course stage member =>
        followed.aside history accepted (Or.inl (tasks ▸ member))
      rcases moves with after | ⟨moved, after⟩
      · have shorter : (machine.tasks next).length < (machine.tasks state).length := by
          rw [after, tasks]
          exact Nat.lt_succ_self _
        rw [courses_ended shorter, progress, after]
        exact aside
      · rw [courses_moved progress (by rw [after, tasks]; rfl), after]
        exact .cons below (followed.own history accepted tasks after below own) aside

/-- The innermost operation, if there is one. -/
theorem History.follow_top (followed : machine.Followed start fits) {state : State}
    (history : machine.History start past state) {course : Course State Call Answer}
    {others : List (Course State Call Answer)}
    (progress : machine.courses past = course :: others) :
    ∃ stage, machine.tasks state = stage :: machine.tasks course.start ∧
      fits state course stage := by
  have stacked := history.follow followed
  generalize machine.tasks state = stages at stacked
  rw [progress] at stacked
  cases stacked with
  | cons below own _ => exact ⟨_, congrArg _ below.symm, own⟩

/-- The innermost operation, told by its stage. -/
theorem History.innermost (followed : machine.Followed start fits) {state : State}
    (history : machine.History start past state) {stage : Stage} {rest : List Stage}
    (tasks : machine.tasks state = stage :: rest) :
    ∃ course others, machine.courses past = course :: others ∧
      machine.tasks course.start = rest ∧ fits state course stage := by
  have stacked := history.follow followed
  rw [tasks] at stacked
  generalize machine.courses past = courses at stacked
  cases stacked with
  | cons below own _ => exact ⟨_, _, rfl, below, own⟩

/-- What is known of an operation that has ended: its last transition was made from a stage that
fits and took it off the tasks, and its call and its own transitions have happened before. -/
structure Ended (machine : Machine State Call Answer Stage)
    (fits : State → Course State Call Answer → Stage → Prop)
    (past : List (Transition State Call Answer)) (course : Course State Call Answer)
    (last : Transition State Call Answer) (stage : Stage) (answer : Answer) : Prop where
  event : last.event = .answered answer
  advanced : machine.advance? last.before answer = some last.after
  before : machine.tasks last.before = stage :: machine.tasks course.start
  after : machine.tasks last.after = machine.tasks course.start
  fits : fits last.before course stage
  called : ∃ since call, past = since ++ call :: course.past ∧ call.before = course.start ∧
    call.event = .called course.call
  own : ∀ transition ∈ course.own, transition ∈ past

theorem History.follow_endings (followed : machine.Followed start fits) {state : State}
    (history : machine.History start past state) {course : Course State Call Answer}
    {last : Transition State Call Answer} (member : (course, last) ∈ machine.endings past) :
    ∃ stage answer, machine.Ended fits past course last stage answer := by
  induction history with
  | start => cases member
  | @step past state event next history accepted inductionHypothesis =>
    by_cases old : (course, last) ∈ machine.endings past
    · obtain ⟨stage, answer, ended⟩ := inductionHypothesis old
      obtain ⟨since, call, rfl, called⟩ := ended.called
      exact ⟨stage, answer, { ended with
        called := ⟨_ :: since, call, rfl, called⟩
        own := fun transition member => List.mem_cons_of_mem _ (ended.own transition member) }⟩
    · unfold endings at member
      split at member
      · next innermost others shorter progress =>
        have shorter := of_decide_eq_true shorter
        rcases List.mem_cons.mp member with same | member
        · obtain ⟨rfl, rfl⟩ := Prod.mk.inj same
          obtain ⟨stage, tasks, own⟩ := History.follow_top followed history progress
          obtain ⟨⟨since, call, split, called⟩, kept⟩ :=
            mem_courses (progress ▸ List.mem_cons_self)
          cases event with
          | called call =>
            obtain ⟨first, after⟩ := machine.begins accepted
            rw [after] at shorter
            exact absurd shorter (Nat.not_lt_of_le (Nat.le_succ _))
          | answered answer =>
            obtain ⟨top, rest, tasks', after | ⟨moved, after⟩⟩ := machine.advances accepted
            · obtain ⟨rfl, rfl⟩ := List.cons.inj (tasks'.symm.trans tasks)
              exact ⟨top, answer, rfl, accepted, tasks, after, own,
                ⟨_ :: since, call, congrArg _ split, called⟩,
                fun transition member => List.mem_cons_of_mem _ (kept transition member)⟩
            · rw [after, tasks'] at shorter
              exact absurd shorter (Nat.lt_irrefl _)
        · exact absurd member old
      · exact absurd member old

end Machine

end MessagePump

/-
This file proves what happens to the interest list of a poller: what the system does to it when it
answers a context, and what the news of files do to it.

Registrations come and go only as a context asks for it or as their files are closed. The ready list
is the part that others change. It only ever has to contain every source that is ready, and each
operation keeps what it has contained, except that a wait drops what is not ready any more.
-/

import MessagePump.Proofs.SystemCalls

namespace MessagePump

namespace InterestList

variable {list : InterestList} {conditions : Source → EventFlags}

/-! ### Registrations -/

@[simp] theorem join_registrations (list : InterestList) (source : Source) :
    (list.join source).registrations = list.registrations := by
  unfold join
  split <;> rfl

@[simp] theorem joinIfReady_registrations (list : InterestList)
    (conditions : Source → EventFlags) (registration : Registration) :
    (list.joinIfReady conditions registration).registrations = list.registrations := by
  unfold joinIfReady
  split
  · exact join_registrations list registration.source
  · rfl

/-- The sources of some registrations join the ready list, one after another. -/
def joinAll (list : InterestList) (told : List Registration) : InterestList :=
  told.foldl (fun list registration => list.join registration.source) list

theorem wakeUp_eq (list : InterestList) (test : Registration → Bool) :
    list.wakeUp test = list.joinAll (list.registrations.reverse.filter test) :=
  rfl

@[simp] theorem joinAll_registrations (list : InterestList) (told : List Registration) :
    (list.joinAll told).registrations = list.registrations := by
  induction told generalizing list with
  | nil => rfl
  | cons registration told inductionHypothesis =>
    rw [joinAll, List.foldl_cons]
    exact (inductionHypothesis _).trans (join_registrations list registration.source)

@[simp] theorem wakeUp_registrations (list : InterestList) (test : Registration → Bool) :
    (list.wakeUp test).registrations = list.registrations :=
  joinAll_registrations list _

theorem registration?_some {source : Source} {registration : Registration}
    (registered : list.registration? source = some registration) :
    registration ∈ list.registrations ∧ registration.source = source := by
  have own := List.find?_some registered
  exact ⟨List.mem_of_find?_eq_some registered, eq_of_beq own⟩

/-- The registration of one source is not affected by that of another. -/
theorem add_registration? {registration : Registration} {source : Source}
    (other : registration.source ≠ source) :
    (list.add conditions registration).registration? source = list.registration? source := by
  have differs : (registration.source == source) = false := beq_false_of_ne other
  simp only [add, registration?, joinIfReady_registrations, List.find?_append,
    List.find?_cons, differs, List.find?_nil, Option.or_none]

theorem modify_registration? {registration : Registration} {source : Source}
    (other : registration.source ≠ source) :
    (list.modify conditions registration).registration? source = list.registration? source := by
  simp only [modify, registration?, joinIfReady_registrations]
  induction list.registrations with
  | nil => rfl
  | cons first rest inductionHypothesis =>
    rw [List.map_cons, List.find?_cons, List.find?_cons, inductionHypothesis]
    by_cases same : first.source = registration.source
    · have differs : (registration.source == source) = false := beq_false_of_ne other
      simp only [same, beq_self_eq_true, if_true, differs]
    · simp only [beq_false_of_ne same, Bool.false_eq_true, if_false]

theorem forget_registration? {test : Source → Bool} {source : Source}
    (spared : test source = false) :
    (list.forget test).registration? source = list.registration? source := by
  simp only [forget, registration?]
  induction list.registrations with
  | nil => rfl
  | cons first rest inductionHypothesis =>
    by_cases same : first.source = source
    · simp only [List.filter_cons, same, spared, Bool.not_false, if_true, List.find?_cons,
        beq_self_eq_true]
    · rw [List.filter_cons, List.find?_cons, beq_false_of_ne same]
      split
      · rw [List.find?_cons, beq_false_of_ne same, inductionHypothesis]
      · exact inductionHypothesis

/-! ### The ready list -/

/-- The ready list grows when a source joins it. -/
theorem mem_ready_join {source other : Source} (member : other ∈ list.ready) :
    other ∈ (list.join source).ready := by
  unfold join
  split
  · exact member
  · exact List.mem_append_left _ member

theorem mem_ready_join_self (list : InterestList) (source : Source) :
    source ∈ (list.join source).ready := by
  unfold join
  split
  · next member => exact List.contains_iff_mem.mp member
  · exact List.mem_append_right _ List.mem_cons_self

/-- A source that is there already does not join again. -/
theorem join_of_mem {source : Source} (member : source ∈ list.ready) :
    list.join source = list :=
  if_pos (List.contains_iff_mem.mpr member)

theorem mem_ready_joinIfReady {registration : Registration} {source : Source}
    (member : source ∈ list.ready) :
    source ∈ (list.joinIfReady conditions registration).ready := by
  unfold joinIfReady
  split
  · exact mem_ready_join member
  · exact member

theorem mem_ready_add {registration : Registration} {source : Source}
    (member : source ∈ list.ready) : source ∈ (list.add conditions registration).ready :=
  mem_ready_joinIfReady member

theorem mem_ready_modify {registration : Registration} {source : Source}
    (member : source ∈ list.ready) : source ∈ (list.modify conditions registration).ready :=
  mem_ready_joinIfReady member

theorem mem_ready_forget {test : Source → Bool} {source : Source} (spared : test source = false)
    (member : source ∈ list.ready) : source ∈ (list.forget test).ready :=
  List.mem_filter.mpr ⟨member, by rw [spared]; rfl⟩

theorem mem_ready_joinAll {told : List Registration} {source : Source}
    (member : source ∈ list.ready) : source ∈ (list.joinAll told).ready := by
  induction told generalizing list with
  | nil => exact member
  | cons registration told inductionHypothesis => exact inductionHypothesis (mem_ready_join member)

theorem mem_ready_wakeUp {test : Registration → Bool} {source : Source}
    (member : source ∈ list.ready) : source ∈ (list.wakeUp test).ready :=
  mem_ready_joinAll member

/-- When one source is told, it joins the ready list. -/
theorem wakeUp_source {source : Source} {registration : Registration}
    (registered : list.registration? source = some registration) :
    list.wakeUp (fun registration => registration.source == source) = list.join source := by
  have told : ∀ told : List Registration, (∀ registration ∈ told, registration.source = source) →
      (list.join source).joinAll told = list.join source := by
    intro told same
    induction told with
    | nil => rfl
    | cons first rest inductionHypothesis =>
      rw [joinAll, List.foldl_cons, same first List.mem_cons_self,
        join_of_mem (mem_ready_join_self list source)]
      exact inductionHypothesis fun registration member =>
        same registration (List.mem_cons_of_mem first member)
  have same : ∀ registration ∈ list.registrations.reverse.filter
      (fun registration => registration.source == source), registration.source = source :=
    fun registration member => eq_of_beq (List.mem_filter.mp member).2
  obtain ⟨registered, own⟩ := registration?_some registered
  have member : registration ∈ list.registrations.reverse.filter
      (fun registration => registration.source == source) :=
    List.mem_filter.mpr ⟨List.mem_reverse.mpr registered, beq_iff_eq.mpr own⟩
  rw [wakeUp_eq]
  obtain ⟨first, rest, split⟩ := List.exists_cons_of_ne_nil (List.ne_nil_of_mem member)
  rw [split] at same ⊢
  rw [joinAll, List.foldl_cons, same first List.mem_cons_self]
  exact told rest fun registration member => same registration (List.mem_cons_of_mem first member)

/-! ### Waiting -/

/-- What a wait leaves behind is still in the ready list. -/
theorem harvest_keeps {registration : Registration} {source : Source}
    (registered : list.registration? source = some registration)
    (ready : (met conditions registration).any = true) (room : Nat) {sources : List Source}
    (member : source ∈ sources) :
    source ∈ (list.harvest conditions room sources).unreached ++
      (list.harvest conditions room sources).reported := by
  induction sources generalizing room with
  | nil => exact absurd member List.not_mem_nil
  | cons first rest inductionHypothesis =>
    cases room with
    | zero => exact List.mem_append_left _ member
    | succ room =>
      rcases List.mem_cons.mp member with rfl | member
      · simp only [harvest, registered, ready, if_true]
        exact List.mem_append_right _ List.mem_cons_self
      · unfold harvest
        split
        · exact inductionHypothesis (room + 1) member
        · dsimp only
          split
          · rcases List.mem_append.mp (inductionHypothesis room member) with unreached | reported
            · exact List.mem_append_left _ unreached
            · exact List.mem_append_right _ (List.mem_cons_of_mem first reported)
          · exact inductionHypothesis (room + 1) member

/-- A wait with room finds something if there is something to find. -/
theorem harvest_finds {registration : Registration} {source : Source}
    (registered : list.registration? source = some registration)
    (ready : (met conditions registration).any = true) (room : Nat) {sources : List Source}
    (member : source ∈ sources) : (list.harvest conditions (room + 1) sources).events ≠ [] := by
  induction sources with
  | nil => exact absurd member List.not_mem_nil
  | cons first rest inductionHypothesis =>
    rcases List.mem_cons.mp member with rfl | member
    · simp only [harvest, registered, ready, if_true]
      exact List.cons_ne_nil _ _
    · unfold harvest
      split
      · exact inductionHypothesis member
      · dsimp only
        split
        · exact List.cons_ne_nil _ _
        · exact inductionHypothesis member

/-! ### News -/

@[simp] theorem hear_told_registrations (list : InterestList) (file : FileId)
    (key : Option EventFlags) :
    (list.hear (.told file key)).registrations = list.registrations :=
  wakeUp_registrations list _

/-- News of files do not concern the wake signal. -/
theorem hear_wake (list : InterestList) (news : News) :
    (list.hear news).registration? .wake = list.registration? .wake ∧
      (.wake ∈ list.ready → .wake ∈ (list.hear news).ready) := by
  cases news with
  | told file key =>
    refine ⟨?_, mem_ready_wakeUp⟩
    simp only [registration?, hear_told_registrations]
  | gone file =>
    exact ⟨forget_registration? rfl, mem_ready_forget rfl⟩

end InterestList

/-- News of files do not reach the wake signal of a poller. -/
theorem Poller.hear_wake (poller : Poller) (news : List News) :
    (poller.hear news).wake = poller.wake ∧
      (poller.hear news).usable = poller.usable ∧
      (poller.hear news).list.registration? .wake = poller.list.registration? .wake ∧
      (.wake ∈ poller.list.ready → .wake ∈ (poller.hear news).list.ready) := by
  refine ⟨rfl, rfl, ?_⟩
  unfold hear
  dsimp only
  induction news generalizing poller with
  | nil => exact ⟨rfl, id⟩
  | cons first rest inductionHypothesis =>
    obtain ⟨registered, ready⟩ := poller.list.hear_wake first
    obtain ⟨registeredThen, readyThen⟩ :=
      inductionHypothesis { poller with list := poller.list.hear first }
    exact ⟨registeredThen.trans registered, fun member => readyThen (ready member)⟩

namespace Kernel

variable {kernel : Kernel} {id : PollerId}

/-! ### One poller among others -/

theorem poller_setPoller (inside : id < kernel.pollers.length) (poller : Poller) :
    (kernel.setPoller id poller).poller id = poller := by
  simp [setPoller, Kernel.poller, List.getD_eq_getElem?_getD, inside]

theorem poller_mem (inside : id < kernel.pollers.length) :
    kernel.pollers[id]? = some (kernel.poller id) := by
  simp [Kernel.poller, List.getD_eq_getElem?_getD, inside]

/-- A poller is created behind the others, with its wake signal registered. -/
theorem createPoller_ok {after : Kernel} (created : kernel.createPoller = .ok (id, after)) :
    id = kernel.pollers.length ∧
      after.poller id = { list := { registrations := [wakeRegistration] } } ∧
      id < after.pollers.length ∧
      after.files = kernel.files ∧ after.descriptors = kernel.descriptors := by
  have allowed : ∀ {refused : Bool} {made : PollerId × Kernel},
      (if refused then Except.error IoError.tooManyFiles else .ok made) = .ok (id, after) →
        made = (id, after) := by
    intro refused made result
    cases refused with
    | true => cases result
    | false => exact Except.ok.inj result
  cases allowed created
  refine ⟨rfl, ?_, ?_, rfl, rfl⟩
  · simp [Kernel.poller, List.getD_eq_getElem?_getD]
  · simp

/-- A poller after the calls of others. -/
theorem Serves.poller {action : Kernel → Kernel} {closed : Option Descriptor} {news : List News}
    (serves : Serves action kernel closed news) (inside : id < kernel.pollers.length) :
    (action kernel).pollers.length = kernel.pollers.length ∧
      (action kernel).poller id = (kernel.poller id).hear news := by
  refine ⟨by rw [serves.pollers, List.length_map], ?_⟩
  rw [Kernel.poller, serves.pollers, List.getD_eq_getElem?_getD, List.getElem?_map,
    poller_mem inside]
  rfl

/-! ### Answers -/

/-- What is needed to work on a registration, one thing after the other. -/
theorem pollable_ok {descriptor : Descriptor} {file : FileId} :
    kernel.pollable id descriptor = .ok file ↔
      kernel.fileOf? descriptor = some file ∧ kernel.file file ≠ .null ∧
        (kernel.poller id).usable = true := by
  unfold pollable
  cases kernel.fileOf? descriptor with
  | none => exact ⟨nofun, nofun⟩
  | some found =>
    dsimp only
    split
    · next kind =>
      refine ⟨nofun, ?_⟩
      rintro ⟨same, other, -⟩
      exact absurd kind (Option.some.inj same ▸ other)
    · next kind =>
      split
      · next usable =>
        constructor
        · intro same
          cases same
          exact ⟨rfl, kind, usable⟩
        · rintro ⟨same, -, -⟩
          cases same
          rfl
      · next broken => exact ⟨nofun, fun facts => absurd facts.2.2 broken⟩

/-- The answers of the system, one by one, with the system after each. -/
inductive Answers (kernel : Kernel) (id : PollerId) :
    ContextRequest → ContextAnswer → Kernel → Prop
  | added (descriptor : Descriptor) (wanted : EventFlags) (token : Token) (file : FileId)
      (pollable : kernel.pollable id descriptor = .ok file)
      (fresh : (kernel.poller id).list.registration? (.file descriptor file) = none) :
    Answers kernel id (.add descriptor wanted token) .done
      (kernel.withList id ((kernel.poller id).list.add (kernel.conditions id)
        { source := .file descriptor file, wanted, token }))
  | addFailed (descriptor : Descriptor) (wanted : EventFlags) (token : Token) (cause : IoError) :
    Answers kernel id (.add descriptor wanted token) (.failed cause) kernel
  | modified (descriptor : Descriptor) (wanted : EventFlags) (token : Token) (file : FileId)
      (pollable : kernel.pollable id descriptor = .ok file) :
    Answers kernel id (.modify descriptor wanted token) .done
      (kernel.withList id ((kernel.poller id).list.modify (kernel.conditions id)
        { source := .file descriptor file, wanted, token }))
  | modifyFailed (descriptor : Descriptor) (wanted : EventFlags) (token : Token)
      (cause : IoError)
      (refused : kernel.reregister id descriptor wanted token = .error cause) :
    Answers kernel id (.modify descriptor wanted token) (.failed cause) kernel
  | deleted (descriptor : Descriptor) (file : FileId)
      (pollable : kernel.pollable id descriptor = .ok file) :
    Answers kernel id (.delete descriptor) .done
      (kernel.withList id ((kernel.poller id).list.forget fun other =>
        other == .file descriptor file))
  | deleteFailed (descriptor : Descriptor) (cause : IoError)
      (refused : kernel.deregister id descriptor = .error cause) :
    Answers kernel id (.delete descriptor) (.failed cause) kernel
  | drained (count : Nat) (wake : WakeSource)
      (drains : (kernel.poller id).wake.drain = .ok (count, wake)) :
    Answers kernel id .drain .done (kernel.setPoller id { kernel.poller id with wake })
  | drainFailed (cause : IoError) (refused : (kernel.poller id).wake.drain = .error cause) :
    Answers kernel id .drain (.failed cause) kernel
  | waited (room : Nat) (millis : Int) (some : room ≠ 0) :
    Answers kernel id (.wait room millis)
      (.events ((kernel.poller id).list.wait (kernel.conditions id) room).1)
      (kernel.withList id ((kernel.poller id).list.wait (kernel.conditions id) room).2)
  | waitFailed (room : Nat) (millis : Int) (cause : IoError)
      (refused : room = 0 ∨ mostEvents < room ∨ (kernel.poller id).usable = false) :
    Answers kernel id (.wait room millis) (.failed cause) kernel

theorem answerChange_eq {result : Except IoError Kernel} {answer : ContextAnswer} {after : Kernel}
    (answers : kernel.answerChange result = (answer, after)) :
    (∃ changed, result = .ok changed ∧ answer = .done ∧ after = changed) ∨
      ∃ cause, result = .error cause ∧ answer = .failed cause ∧ kernel = after := by
  cases result with
  | ok changed =>
    cases answers
    exact Or.inl ⟨_, rfl, rfl, rfl⟩
  | error cause =>
    cases answers
    exact Or.inr ⟨_, rfl, rfl, rfl⟩

/-- What the system answers is one of the listed answers. -/
theorem respond?_some {request : ContextRequest} {answer : ContextAnswer} {after : Kernel}
    (responds : kernel.respond? id request = some (answer, after)) :
    kernel.Answers id request answer after := by
  cases request with
  | add descriptor wanted token =>
    obtain ⟨changed, registered, rfl, rfl⟩ | ⟨cause, refused, rfl, rfl⟩ :=
      answerChange_eq (Option.some.inj responds)
    · unfold register at registered
      cases pollable : kernel.pollable id descriptor with
      | error cause => rw [pollable] at registered; cases registered
      | ok file =>
        rw [pollable] at registered
        dsimp only [bind, Except.bind] at registered
        split at registered
        · cases registered
        · next fresh =>
          cases registered
          exact .added descriptor wanted token file pollable
            (Option.not_isSome_iff_eq_none.mp fresh)
    · exact .addFailed descriptor wanted token cause
  | modify descriptor wanted token =>
    obtain ⟨changed, registered, rfl, rfl⟩ | ⟨cause, refused, rfl, rfl⟩ :=
      answerChange_eq (Option.some.inj responds)
    · unfold reregister at registered
      cases pollable : kernel.pollable id descriptor with
      | error cause => rw [pollable] at registered; cases registered
      | ok file =>
        rw [pollable] at registered
        dsimp only [bind, Except.bind] at registered
        split at registered
        · cases registered
          exact .modified descriptor wanted token file pollable
        · cases registered
    · exact .modifyFailed descriptor wanted token cause refused
  | delete descriptor =>
    obtain ⟨changed, deregistered, rfl, rfl⟩ | ⟨cause, refused, rfl, rfl⟩ :=
      answerChange_eq (Option.some.inj responds)
    · unfold deregister at deregistered
      cases pollable : kernel.pollable id descriptor with
      | error cause => rw [pollable] at deregistered; cases deregistered
      | ok file =>
        rw [pollable] at deregistered
        dsimp only [bind, Except.bind] at deregistered
        split at deregistered
        · cases deregistered
          exact .deleted descriptor file pollable
        · cases deregistered
    · exact .deleteFailed descriptor cause refused
  | drain =>
    obtain ⟨changed, drained, rfl, rfl⟩ | ⟨cause, refused, rfl, rfl⟩ :=
      answerChange_eq (Option.some.inj responds)
    · unfold drainWake at drained
      cases drains : (kernel.poller id).wake.drain with
      | error cause => simp only [drains, Except.map] at drained; cases drained
      | ok result =>
        simp only [drains, Except.map, Except.ok.injEq] at drained
        exact drained ▸ .drained result.1 result.2 drains
    · refine .drainFailed cause ?_
      unfold drainWake at refused
      cases drains : (kernel.poller id).wake.drain with
      | error other =>
        simp only [drains, Except.map, Except.error.injEq] at refused
        rw [refused]
      | ok result => simp only [drains, Except.map] at refused; cases refused
  | wait room millis =>
    simp only [respond?, Kernel.wait, Option.some.injEq] at responds
    split at responds
    · next accepted =>
      split at accepted
      · cases accepted
      · next room =>
        cases accepted
        cases responds
        refine .waited _ millis fun empty => room ?_
        simp [empty]
    · next refused =>
      cases responds
      refine .waitFailed room millis _ ?_
      split at refused
      · next reason => simpa [or_assoc] using reason
      · cases refused
  | _ => cases responds

end Kernel

end MessagePump

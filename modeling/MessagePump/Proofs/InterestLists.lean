/-
This file says when the interest list of a poller is a given table, and proves what keeps it so.

The list is a copy of the table that the system holds. Registering, changing and forgetting a
descriptor do to the list what `watch`, `rewatch` and `unwatch` do to the table, and the system
refuses neither of the last two for what is in the table. Waiting, signals and the news of files
leave the registrations as they are, as long as no descriptor in the table is closed: a file is gone
only when no descriptor leads to it any more.
-/

import Mathlib.Data.List.Nodup
import MessagePump.Proofs.Pollers

namespace MessagePump

/-! ### Tables -/

namespace WatchTable

variable {table : WatchTable} {token : Token} {watch : Watch}

/-- What a table says, without the callbacks. -/
def terms (table : WatchTable) : List (Token × Descriptor × Interest) :=
  table.map fun entry => (entry.1, entry.2.descriptor, entry.2.interest)

/-- The tokens of a table. -/
def tokens (table : WatchTable) : List Token := table.map Prod.fst

/-- The descriptors of a table. -/
def descriptors (table : WatchTable) : List Descriptor :=
  table.map fun entry => entry.2.descriptor

theorem tokens_eq (table : WatchTable) : table.tokens = table.terms.map Prod.fst := by
  simp only [tokens, terms, List.map_map, Function.comp_def]

theorem descriptors_eq (table : WatchTable) :
    table.descriptors = table.terms.map fun term => term.2.1 := by
  simp only [descriptors, terms, List.map_map, Function.comp_def]

theorem mem_of_find? (present : table.find? token = some watch) : (token, watch) ∈ table := by
  obtain ⟨before, after, split, -⟩ := List.lookup_eq_some_iff.mp present
  rw [split]
  exact List.mem_append_right before List.mem_cons_self

theorem token_mem (present : table.find? token = some watch) : token ∈ table.tokens :=
  List.mem_map_of_mem (mem_of_find? present)

theorem insert_of_absent (absent : token ∉ table.tokens) (watch : Watch) :
    table.insert token watch = table ++ [(token, watch)] := by
  have kept : table.remove token = table := List.filter_eq_self.mpr fun entry member =>
    bne_iff_ne.mpr fun same => absent (same ▸ List.mem_map_of_mem member)
  rw [insert, kept]

/-- Taking a callback out, or putting one back, leaves everything else as it is. -/
theorem terms_recall (table : WatchTable) (token : Token) (callback : Option CallbackId) :
    (table.update token fun watch => { watch with callback }).terms = table.terms := by
  simp only [terms, update, List.map_map]
  refine List.map_congr_left fun entry _ => ?_
  simp only [Function.comp_apply]
  split <;> rfl

theorem tokens_update (table : WatchTable) (token : Token) (change : Watch → Watch) :
    (table.update token change).tokens = table.tokens := by
  simp only [tokens, update, List.map_map]
  refine List.map_congr_left fun entry _ => ?_
  simp only [Function.comp_apply]
  split <;> rfl

theorem descriptors_amend (table : WatchTable) (token : Token) (interest : Interest) :
    (table.update token fun watch => { watch with interest }).descriptors = table.descriptors := by
  simp only [descriptors, update, List.map_map]
  refine List.map_congr_left fun entry _ => ?_
  simp only [Function.comp_apply]
  split <;> rfl

end WatchTable

/-! ### The interest list -/

/-- Whether a request is one to change the interest list. -/
def ContextRequest.edits : ContextRequest → Bool
  | .add .. | .modify .. | .delete _ => true
  | _ => false

/-- News of files that nothing is registered for leave the registrations as they are. -/
theorem Poller.hear_registrations (poller : Poller) {news : List News}
    (spared : ∀ file, .gone file ∈ news → ∀ registration ∈ poller.list.registrations,
      registration.source.isFile file = false) :
    (poller.hear news).list.registrations = poller.list.registrations := by
  unfold hear
  dsimp only
  induction news generalizing poller with
  | nil => rfl
  | cons first rest inductionHypothesis =>
    have kept : (poller.list.hear first).registrations = poller.list.registrations := by
      cases first with
      | told file key => exact InterestList.hear_told_registrations poller.list file key
      | gone file =>
        refine List.filter_eq_self.mpr fun registration member => ?_
        rw [spared file List.mem_cons_self registration member]
        rfl
    have later := inductionHypothesis { poller with list := poller.list.hear first }
      fun file gone registration member =>
        spared file (List.mem_cons_of_mem first gone) registration (kept ▸ member)
    exact later.trans kept

namespace Kernel

/-- The registrations of a poller. -/
def registrations (kernel : Kernel) (id : PollerId) : List Registration :=
  (kernel.poller id).list.registrations

/-- The registration that an entry of the table stands for. -/
def registrationOf (kernel : Kernel) (entry : Token × Watch) : Registration where
  source := .file entry.2.descriptor ((kernel.fileOf? entry.2.descriptor).getD 0)
  wanted := entry.2.interest.flags
  token := entry.1

/-- The descriptor leads to a file that can be polled. -/
def Pollable (kernel : Kernel) (descriptor : Descriptor) : Prop :=
  ∃ file, kernel.fileOf? descriptor = some file ∧ kernel.file file ≠ .null

/-- The interest list of a poller holds the wake signal and what is in a table, in this order. All
that is in the table can be polled, each descriptor is there once, and so is each token. -/
structure Lists (kernel : Kernel) (id : PollerId) (table : WatchTable) : Prop where
  inside : id < kernel.pollers.length
  usable : (kernel.poller id).usable = true
  regular : kernel.Regular
  listed : kernel.registrations id = wakeRegistration :: table.map kernel.registrationOf
  pollable : ∀ descriptor ∈ table.descriptors, kernel.Pollable descriptor
  tokens : table.tokens.Nodup
  descriptors : table.descriptors.Nodup

variable {kernel : Kernel} {id : PollerId} {table : WatchTable} {token : Token} {watch : Watch}

theorem registrationOf_terms (kernel : Kernel) (table : WatchTable) :
    table.map kernel.registrationOf = table.terms.map fun term =>
      kernel.registrationOf (term.1, ⟨term.2.1, term.2.2, none⟩) := by
  simp only [WatchTable.terms, List.map_map]
  rfl

theorem regular_perform (regular : kernel.Regular) (calls : List SystemCall) :
    (calls.foldl perform kernel).Regular := by
  induction calls generalizing kernel with
  | nil => exact regular
  | cons call calls inductionHypothesis =>
    obtain ⟨news, serves⟩ := kernel.perform_serves call
    exact inductionHypothesis (serves.regular regular)

/-- A poller that has just been created has registered its wake signal only. -/
theorem Lists.created {after : Kernel} (regular : kernel.Regular)
    (created : kernel.createPoller = .ok (id, after)) : after.Lists id [] := by
  obtain ⟨-, poller, inside, files, descriptors⟩ := createPoller_ok created
  refine ⟨inside, by rw [poller], ?_, by rw [registrations, poller]; rfl, nofun, .nil, .nil⟩
  intro entry member
  rw [descriptors] at member
  rw [files]
  exact regular entry member

namespace Lists

/-- A list does not depend on the callbacks in the table. -/
theorem congr (lists : kernel.Lists id table) {other : WatchTable}
    (same : other.terms = table.terms) : kernel.Lists id other where
  inside := lists.inside
  usable := lists.usable
  regular := lists.regular
  listed := by
    rw [lists.listed, registrationOf_terms, registrationOf_terms, same]
  pollable := by
    rw [WatchTable.descriptors_eq, same, ← WatchTable.descriptors_eq]
    exact lists.pollable
  tokens := by
    rw [WatchTable.tokens_eq, same, ← WatchTable.tokens_eq]
    exact lists.tokens
  descriptors := by
    rw [WatchTable.descriptors_eq, same, ← WatchTable.descriptors_eq]
    exact lists.descriptors

/-- A poller with the same registrations. -/
theorem setPoller (lists : kernel.Lists id table) {poller : Poller}
    (registrations : poller.list.registrations = kernel.registrations id)
    (usable : poller.usable = (kernel.poller id).usable) :
    (kernel.setPoller id poller).Lists id table where
  inside := Nat.lt_of_lt_of_eq lists.inside List.length_set.symm
  usable := by rw [poller_setPoller lists.inside, usable, lists.usable]
  regular := lists.regular
  listed := by
    rw [Kernel.registrations, poller_setPoller lists.inside, registrations, lists.listed]
    rfl
  pollable := lists.pollable
  tokens := lists.tokens
  descriptors := lists.descriptors

/-- Entries with one token are one entry. -/
theorem entry_eq (lists : kernel.Lists id table) (present : table.find? token = some watch)
    {entry : Token × Watch} (member : entry ∈ table) (same : entry.1 = token) :
    entry = (token, watch) :=
  List.inj_on_of_nodup_map lists.tokens member (WatchTable.mem_of_find? present) same

/-- An entry under another token is of another descriptor. -/
theorem descriptor_ne (lists : kernel.Lists id table) (present : table.find? token = some watch)
    {entry : Token × Watch} (member : entry ∈ table) (other : entry.1 ≠ token) :
    entry.2.descriptor ≠ watch.descriptor := by
  intro same
  have member' : (token, watch) ∈ table := WatchTable.mem_of_find? present
  exact other (congrArg Prod.fst (List.inj_on_of_nodup_map lists.descriptors member member' same))

/-- What is in the table can be changed and forgotten: its file is there, and it is registered. -/
theorem accepts (lists : kernel.Lists id table) (present : table.find? token = some watch) :
    ∃ file, kernel.fileOf? watch.descriptor = some file ∧
      kernel.pollable id watch.descriptor = .ok file ∧
      ((kernel.poller id).list.registration? (.file watch.descriptor file)).isSome = true := by
  have member := WatchTable.mem_of_find? present
  obtain ⟨file, leads, kind⟩ := lists.pollable _ (List.mem_map_of_mem member)
  refine ⟨file, leads, pollable_ok.mpr ⟨leads, kind, lists.usable⟩, ?_⟩
  refine List.find?_isSome.mpr ⟨kernel.registrationOf (token, watch), ?_, beq_iff_eq.mpr ?_⟩
  · change _ ∈ kernel.registrations id
    rw [lists.listed]
    exact List.mem_cons_of_mem _ (List.mem_map_of_mem member)
  · simp only [registrationOf, leads, Option.getD_some]

theorem reregister_ok (lists : kernel.Lists id table) (present : table.find? token = some watch)
    (wanted : EventFlags) (cause : IoError) :
    kernel.reregister id watch.descriptor wanted token ≠ .error cause := by
  obtain ⟨file, -, pollable, registered⟩ := lists.accepts present
  unfold reregister
  rw [pollable]
  dsimp only [bind, Except.bind]
  rw [if_pos registered]
  exact nofun

theorem deregister_ok (lists : kernel.Lists id table) (present : table.find? token = some watch)
    (cause : IoError) : kernel.deregister id watch.descriptor ≠ .error cause := by
  obtain ⟨file, -, pollable, registered⟩ := lists.accepts present
  unfold deregister
  rw [pollable]
  dsimp only [bind, Except.bind]
  rw [if_pos registered]
  exact nofun

/-- A descriptor that is not registered yet is not in the table. -/
theorem fresh_descriptor (lists : kernel.Lists id table) {descriptor : Descriptor} {file : FileId}
    (leads : kernel.fileOf? descriptor = some file)
    (fresh : (kernel.poller id).list.registration? (.file descriptor file) = none) :
    descriptor ∉ table.descriptors := by
  intro used
  obtain ⟨entry, member, rfl⟩ := List.mem_map.mp used
  refine List.find?_eq_none.mp fresh (kernel.registrationOf entry) ?_ (beq_iff_eq.mpr ?_)
  · change _ ∈ kernel.registrations id
    rw [lists.listed]
    exact List.mem_cons_of_mem _ (List.mem_map_of_mem member)
  · simp only [registrationOf, leads, Option.getD_some]

/-- A descriptor is registered behind the others. -/
theorem add (lists : kernel.Lists id table) (conditions : Source → EventFlags)
    {descriptor : Descriptor} {file : FileId} (pollable : kernel.pollable id descriptor = .ok file)
    (fresh : (kernel.poller id).list.registration? (.file descriptor file) = none)
    (unused : token ∉ table.tokens) (interest : Interest) (callback : Option CallbackId) :
    (kernel.withList id ((kernel.poller id).list.add conditions
      { source := .file descriptor file, wanted := interest.flags, token })).Lists id
        (table ++ [(token, ⟨descriptor, interest, callback⟩)]) := by
  obtain ⟨leads, kind, usable⟩ := pollable_ok.mp pollable
  refine ⟨Nat.lt_of_lt_of_eq lists.inside List.length_set.symm, ?_, lists.regular, ?_, ?_, ?_, ?_⟩
  · rw [withList, poller_setPoller lists.inside]
    exact usable
  · have own : kernel.registrationOf (token, ⟨descriptor, interest, callback⟩) =
        { source := .file descriptor file, wanted := interest.flags, token } := by
      simp only [registrationOf, leads, Option.getD_some]
    rw [registrations, withList, poller_setPoller lists.inside, List.map_append, List.map_singleton]
    change _ = wakeRegistration :: (table.map kernel.registrationOf ++ [kernel.registrationOf _])
    rw [own, ← List.cons_append, ← lists.listed]
    exact InterestList.joinIfReady_registrations _ _ _
  · intro other member
    simp only [WatchTable.descriptors, List.map_append, List.map_singleton] at member
    rcases List.mem_append.mp member with member | member
    · exact lists.pollable other member
    · cases List.mem_singleton.mp member
      exact ⟨file, leads, kind⟩
  · simp only [WatchTable.tokens, List.map_append, List.map_singleton]
    exact lists.tokens.append (List.nodup_singleton _) (List.disjoint_singleton.mpr unused)
  · simp only [WatchTable.descriptors, List.map_append, List.map_singleton]
    exact lists.descriptors.append (List.nodup_singleton _)
      (List.disjoint_singleton.mpr (lists.fresh_descriptor leads fresh))

/-- A watch gets another interest in its place. -/
theorem modify (lists : kernel.Lists id table) (conditions : Source → EventFlags)
    (present : table.find? token = some watch) {file : FileId}
    (pollable : kernel.pollable id watch.descriptor = .ok file) (interest : Interest) :
    (kernel.withList id ((kernel.poller id).list.modify conditions
      { source := .file watch.descriptor file, wanted := interest.flags, token })).Lists id
        (table.update token fun watch => { watch with interest }) := by
  obtain ⟨leads, kind, usable⟩ := pollable_ok.mp pollable
  refine ⟨Nat.lt_of_lt_of_eq lists.inside List.length_set.symm, ?_, lists.regular, ?_, ?_, ?_, ?_⟩
  · rw [withList, poller_setPoller lists.inside]
    exact usable
  · rw [registrations, withList, poller_setPoller lists.inside]
    simp only [InterestList.modify, InterestList.joinIfReady_registrations]
    change (kernel.registrations id).map _ =
      wakeRegistration :: (table.update token _).map kernel.registrationOf
    rw [lists.listed, List.map_cons, WatchTable.update, List.map_map, List.map_map]
    refine congrArg (List.cons wakeRegistration) (List.map_congr_left fun entry member => ?_)
    simp only [Function.comp_apply]
    by_cases same : entry.1 = token
    · cases lists.entry_eq present member same
      simp only [registrationOf, leads, Option.getD_some, beq_self_eq_true, if_true]
    · have differs : ((kernel.registrationOf entry).source == .file watch.descriptor file) =
          false := beq_false_of_ne fun source =>
        lists.descriptor_ne present member same (Source.file.inj source).1
      simp only [differs, beq_false_of_ne same, Bool.false_eq_true, if_false]
  · rw [WatchTable.descriptors_amend]
    exact lists.pollable
  · rw [WatchTable.tokens_update]
    exact lists.tokens
  · rw [WatchTable.descriptors_amend]
    exact lists.descriptors

/-- A watch is forgotten. -/
theorem forget (lists : kernel.Lists id table) (present : table.find? token = some watch)
    {file : FileId} (pollable : kernel.pollable id watch.descriptor = .ok file) :
    (kernel.withList id ((kernel.poller id).list.forget fun other =>
      other == .file watch.descriptor file)).Lists id (table.remove token) := by
  obtain ⟨leads, kind, usable⟩ := pollable_ok.mp pollable
  have fewer : (table.remove token).Sublist table := List.filter_sublist
  refine ⟨Nat.lt_of_lt_of_eq lists.inside List.length_set.symm, ?_, lists.regular, ?_, ?_,
    lists.tokens.sublist (fewer.map _), lists.descriptors.sublist (fewer.map _)⟩
  · rw [withList, poller_setPoller lists.inside]
    exact usable
  · rw [registrations, withList, poller_setPoller lists.inside]
    change (kernel.registrations id).filter _ =
      wakeRegistration :: (table.remove token).map kernel.registrationOf
    rw [lists.listed, List.filter_cons_of_pos rfl, List.filter_map, WatchTable.remove]
    refine congrArg (fun left => wakeRegistration :: left.map kernel.registrationOf)
      (List.filter_congr fun entry member => ?_)
    simp only [Function.comp_apply]
    by_cases same : entry.1 = token
    · cases lists.entry_eq present member same
      simp only [registrationOf, leads, Option.getD_some, beq_self_eq_true, Bool.not_true,
        bne_self_eq_false]
    · have differs : ((kernel.registrationOf entry).source == .file watch.descriptor file) =
          false := beq_false_of_ne fun source =>
        lists.descriptor_ne present member same (Source.file.inj source).1
      rw [differs, bne_iff_ne.mpr same]
      rfl
  · exact fun descriptor member => lists.pollable descriptor ((fewer.map _).subset member)

/-- Waiting and draining leave the list as it is, and so does a refusal. -/
theorem answers (lists : kernel.Lists id table) {request : ContextRequest} {answer : ContextAnswer}
    {after : Kernel} (answers : kernel.Answers id request answer after)
    (reads : request.edits = false) :
    after.Lists id table ∧ after.registrations id = kernel.registrations id := by
  cases answers with
  | drained count wake drains =>
    exact ⟨lists.setPoller rfl rfl, by rw [registrations, poller_setPoller lists.inside]; rfl⟩
  | waited room millis some =>
    exact ⟨lists.setPoller rfl rfl,
      by rw [registrations, withList, poller_setPoller lists.inside]; rfl⟩
  | drainFailed | waitFailed => exact ⟨lists, rfl⟩
  | _ => cases reads

theorem signal (lists : kernel.Lists id table) :
    (kernel.signal id).1.Lists id table ∧
      (kernel.signal id).1.registrations id = kernel.registrations id := by
  have kept : ∀ poller : Poller, poller.list.registrations = kernel.registrations id →
      poller.usable = (kernel.poller id).usable →
      (kernel.setPoller id poller).Lists id table ∧
        (kernel.setPoller id poller).registrations id = kernel.registrations id :=
    fun poller registrations usable => ⟨lists.setPoller registrations usable, by
      rw [Kernel.registrations, poller_setPoller lists.inside, registrations]⟩
  unfold Kernel.signal
  dsimp only
  split
  · exact kept _ (InterestList.wakeUp_registrations _ _) rfl
  · exact kept _ rfl rfl

/-- Nothing that the rest of the program does concerns the list, unless it closes one of the
descriptors. -/
theorem serves (lists : kernel.Lists id table) {action : Kernel → Kernel}
    {closed : Option Descriptor} {news : List News} (serves : Serves action kernel closed news)
    (spared : ∀ descriptor ∈ table.descriptors, closed ≠ some descriptor) :
    (action kernel).Lists id table ∧
      (action kernel).registrations id = kernel.registrations id := by
  obtain ⟨length, heard⟩ := serves.poller lists.inside
  have kept : ∀ descriptor ∈ table.descriptors,
      (action kernel).fileOf? descriptor = kernel.fileOf? descriptor := by
    intro descriptor member
    obtain ⟨file, leads, -⟩ := lists.pollable descriptor member
    rw [leads, serves.kept descriptor file leads (spared descriptor member)]
  have registered : (action kernel).registrations id = kernel.registrations id := by
    rw [registrations, heard]
    refine Poller.hear_registrations _ fun file gone registration member => ?_
    change _ ∈ kernel.registrations id at member
    rw [lists.listed] at member
    rcases List.mem_cons.mp member with rfl | member
    · rfl
    · obtain ⟨entry, present, rfl⟩ := List.mem_map.mp member
      have held : entry.2.descriptor ∈ table.descriptors := List.mem_map_of_mem present
      obtain ⟨own, leads, -⟩ := lists.pollable _ held
      refine beq_false_of_ne fun same => serves.gone file gone entry.2.descriptor ?_
      rw [kept _ held, leads, ← same, leads, Option.getD_some]
  refine ⟨⟨length.symm ▸ lists.inside, ?_, serves.regular lists.regular, ?_, ?_, lists.tokens,
    lists.descriptors⟩, registered⟩
  · rw [heard]
    exact ((kernel.poller id).hear_wake news).2.1.trans lists.usable
  · rw [registered, lists.listed]
    refine congrArg (List.cons wakeRegistration) (List.map_congr_left fun entry member => ?_)
    simp only [registrationOf, kept _ (List.mem_map_of_mem member)]
  · intro descriptor member
    obtain ⟨file, leads, kind⟩ := lists.pollable descriptor member
    exact ⟨file, (kept descriptor member).trans leads,
      serves.kinds file (lists.regular (descriptor, file) (fileOf?_mem leads)) kind⟩

end Lists

end Kernel

end MessagePump

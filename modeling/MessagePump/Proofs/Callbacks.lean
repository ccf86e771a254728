/-
This file follows the callbacks of a context from the call of `watch` that brings them to their
destruction.

A callback is always in exactly one place: with an operation, in the table, or destroyed;
`Context.History.conserved` counts the places. Which watch a callback belongs to is what the history
has recorded, and `Context.Recorded` says that the table and the operations never mix callbacks up.
`Context.Staffed` tells which watches are without theirs: those whose callback is running, and those
whose callback has panicked once.
-/

import Mathlib.Data.List.Perm.Basic
import MessagePump.Proofs.ContextHistories

namespace MessagePump

/-! ### Callbacks in the table -/

namespace WatchTable

variable {table : WatchTable} {token : Token} {watch : Watch}

theorem find?_of_mem (nodup : table.tokens.Nodup) (member : (token, watch) ∈ table) :
    table.find? token = some watch := by
  induction table with
  | nil => cases member
  | cons entry table inductionHypothesis =>
    obtain ⟨fresh, nodup⟩ := List.nodup_cons.mp nodup
    rw [find?_cons]
    rcases List.mem_cons.mp member with rfl | member
    · exact if_pos rfl
    · have other : token ≠ entry.1 := fun same => fresh (same ▸ List.mem_map_of_mem member)
      rw [if_neg other, inductionHypothesis nodup member]

theorem find?_insert (table : WatchTable) (token key : Token) (watch : Watch) :
    (table.insert token watch).find? key = if key = token then some watch else table.find? key := by
  rw [insert, find?, List.lookup_append, ← find?, ← find?, find?_cons]
  by_cases same : key = token
  · rw [same, find?_remove_self, if_pos rfl, if_pos rfl, Option.none_or]
  · rw [find?_remove_other table same, if_neg same, if_neg same]
    exact Option.or_none

theorem update_id (table : WatchTable) (token : Token) : table.update token id = table := by
  refine (List.map_congr_left fun entry _ => ?_).trans (List.map_id table)
  split <;> rfl

theorem update_of_absent (absent : token ∉ table.tokens) (change : Watch → Watch) :
    table.update token change = table ∧ table.remove token = table := by
  have other : ∀ entry ∈ table, entry.1 ≠ token := fun entry member same =>
    absent (same ▸ List.mem_map_of_mem member)
  constructor
  · refine (List.map_congr_left fun entry member => ?_).trans (List.map_id table)
    exact if_neg fun same => other entry member (beq_iff_eq.mp same)
  · exact List.filter_eq_self.mpr fun entry member => bne_iff_ne.mpr (other entry member)

theorem callbacks_cons (entry : Token × Watch) (table : WatchTable) :
    callbacks (entry :: table) = entry.2.callback.toList ++ callbacks table :=
  Machine.filterMap_cons_toList _ _ _

theorem callbacks_amend (table : WatchTable) (token : Token) (interest : Interest) :
    (table.update token fun watch => { watch with interest }).callbacks = table.callbacks := by
  rw [callbacks, update, List.filterMap_map]
  refine List.filterMap_congr fun entry _ => ?_
  rw [Function.comp_apply]
  split <;> rfl

/-- The callbacks of a changed table are those of the changed watch and those of the others. -/
theorem callbacks_update (nodup : table.tokens.Nodup) (present : table.find? token = some watch)
    (change : Watch → Watch) :
    (table.update token change).callbacks.Perm
      ((change watch).callback.toList ++ (table.remove token).callbacks) := by
  induction table with
  | nil => cases present
  | cons entry table inductionHypothesis =>
    obtain ⟨fresh, nodup⟩ := List.nodup_cons.mp nodup
    rw [find?_cons] at present
    rw [remove_cons, update, List.map_cons, callbacks_cons]
    split at present
    · next same =>
      subst same
      obtain ⟨updated, removed⟩ := update_of_absent fresh change
      rw [update] at updated
      rw [updated, if_pos rfl, removed, if_pos (beq_self_eq_true _), Option.some.inj present]
    · next other =>
      rw [if_neg (Ne.symm other), if_neg fun same => other (beq_iff_eq.mp same).symm,
        callbacks_cons]
      refine ((inductionHypothesis nodup present).append_left _).trans ?_
      exact (List.perm_append_comm_assoc _ _ _)

/-- A removed watch takes its callback with it. -/
theorem callbacks_remove (nodup : table.tokens.Nodup)
    (present : table.find? token = some watch) :
    table.callbacks.Perm (watch.callback.toList ++ (table.remove token).callbacks) := by
  have split := callbacks_update nodup present id
  rwa [update_id] at split

theorem callbacks_insert (absent : token ∉ table.tokens) (watch : Watch) :
    (table.insert token watch).callbacks = table.callbacks ++ watch.callback.toList := by
  rw [insert_of_absent absent, callbacks, List.filterMap_append]
  exact congrArg _ ((callbacks_cons (token, watch) []).trans (List.append_nil _))

theorem mem_callbacks {callback : CallbackId} (nodup : table.tokens.Nodup)
    (member : callback ∈ table.callbacks) :
    ∃ token watch, table.find? token = some watch ∧ watch.callback = some callback := by
  obtain ⟨⟨token, watch⟩, inside, holds⟩ := List.mem_filterMap.mp member
  exact ⟨token, watch, find?_of_mem nodup inside, holds⟩

/-- Whether there is a watch under a token, and the callback that it holds. -/
def slot? (table : WatchTable) (token : Token) : Option (Option CallbackId) :=
  (table.find? token).map Watch.callback

theorem slot?_of_find? (present : table.find? token = some watch) :
    table.slot? token = some watch.callback := by
  rw [slot?, present, Option.map_some]

theorem slot?_insert (table : WatchTable) (token key : Token) (watch : Watch) :
    (table.insert token watch).slot? key =
      if key = token then some watch.callback else table.slot? key := by
  rw [slot?, find?_insert]
  split <;> rfl

theorem slot?_remove (table : WatchTable) (token key : Token) :
    (table.remove token).slot? key = if key = token then none else table.slot? key := by
  split
  · next same => rw [same, slot?, find?_remove_self, Option.map_none]
  · next other => rw [slot?, find?_remove_other table other, slot?]

theorem slot?_recall (table : WatchTable) (token key : Token) (callback : Option CallbackId) :
    (table.update token fun watch => { watch with callback }).slot? key =
      if key = token then (table.slot? key).map fun _ => callback else table.slot? key := by
  rw [slot?, find?_update, slot?]
  split
  · rw [Option.map_map, Option.map_map]
    rfl
  · rfl

theorem slot?_amend (table : WatchTable) (token key : Token) (interest : Interest) :
    (table.update token fun watch => { watch with interest }).slot? key = table.slot? key := by
  rw [slot?, find?_update, slot?]
  split
  · rw [Option.map_map]
    rfl
  · rfl

end WatchTable

/-! ### What a history tells -/

namespace ContextStage

/-- The watch whose callback is running. -/
def executes? : ContextStage → Option Token
  | .calling token .. => some token
  | _ => none

/-- The watch whose callback panics. -/
def loses? : ContextStage → ContextAnswer → Option Token
  | .calling token .., .panicked _ => some token
  | _, _ => none

end ContextStage

/-- One start of a callback: of which watch, and what it is told. -/
structure Activation where
  token : Token
  readiness : Readiness
  callback : CallbackId
  deriving DecidableEq

namespace ContextTransition

/-- The callback that is handed over. -/
def gives? (transition : ContextTransition) : Option CallbackId :=
  match transition.event with
  | .called call => call.gives?
  | .answered _ => none

/-- The start of a callback. -/
def starts? (transition : ContextTransition) : Option Activation :=
  match transition.event, transition.before.tasks, transition.after.tasks with
  | .answered _, .dispatching _ :: _, .calling token readiness callback _ :: _ =>
    some { token, readiness, callback }
  | _, _, _ => none

/-- The watch that an `unwatch` takes out of the table. -/
def removes? (transition : ContextTransition) : Option Token :=
  match transition.event, transition.before.tasks, transition.after.tasks with
  | .answered _, .removing token :: _, .deleting _ :: _ => some token
  | _, _, _ => none

end ContextTransition

namespace Context

/-- The callbacks that have been handed over. -/
def given (past : List ContextTransition) : List CallbackId :=
  past.filterMap ContextTransition.gives?

/-- The watches that have been made, with their callbacks. -/
def recorded (past : List ContextTransition) : List (Token × CallbackId) :=
  past.filterMap (machine.told? fun stage _ => stage.records?)

/-- The callbacks that have been destroyed. -/
def destroyed (past : List ContextTransition) : List CallbackId :=
  past.filterMap (machine.told? fun stage _ => stage.destroys?)

/-- The watches whose callbacks have panicked. -/
def lost (past : List ContextTransition) : List Token :=
  past.filterMap (machine.told? ContextStage.loses?)

/-- The callbacks that the context has, in the table or with an operation. -/
def owned (context : Context) : List CallbackId :=
  context.table.callbacks ++ context.tasks.filterMap ContextStage.owned?

/-- The callbacks that are being destroyed. -/
def dying (context : Context) : List CallbackId := context.tasks.filterMap ContextStage.destroys?

/-- The callbacks of watches that are not in the table yet. -/
def arriving (context : Context) : List CallbackId :=
  context.tasks.filterMap ContextStage.brings?

/-- Whether the callback of a watch is running. -/
def executing (context : Context) (token : Token) : Bool :=
  context.tasks.any fun stage => stage.executes? = some token

/-- The watches whose callback is not in the table: it has been taken out for a call, or it has
panicked. -/
def missing (past : List ContextTransition) (context : Context) : List Token :=
  context.carried.map Prod.fst ++ lost past

end Context

/-! ### Which watches are without their callback -/

/-- The watches of a table that are without their callback are the missing ones. The missing ones
have had tokens below the bound, and no callback is missing twice. -/
structure WatchTable.Staffed (table : WatchTable) (missing : List Token) (bound : Token) :
    Prop where
  nodup : missing.Nodup
  bounded : ∀ token ∈ missing, token < bound
  empty : ∀ token callback, table.slot? token = some callback → (callback = none ↔ token ∈ missing)

namespace WatchTable.Staffed

variable {table later : WatchTable} {missing others : List Token} {token bound larger : Token}
  {callback : CallbackId}

/-- What is missing may be put in another order, and watches may leave the table. -/
theorem mono (staffed : table.Staffed missing bound) (same : others.Perm missing)
    (grows : bound ≤ larger)
    (kept : ∀ token callback, later.slot? token = some callback →
      table.slot? token = some callback) : later.Staffed others larger where
  nodup := same.nodup_iff.mpr staffed.nodup
  bounded token member := Nat.lt_of_lt_of_le (staffed.bounded token (same.subset member)) grows
  empty token callback held := by
    rw [staffed.empty token callback (kept token callback held), same.mem_iff]

/-- A callback is taken out. -/
theorem take (staffed : table.Staffed missing bound)
    (held : table.slot? token = some (some callback)) (handed : token < bound) :
    (table.update token fun watch => { watch with callback := none }).Staffed (token :: missing)
      bound where
  nodup := by
    refine List.nodup_cons.mpr ⟨fun member => ?_, staffed.nodup⟩
    cases (staffed.empty token _ held).mpr member
  bounded := List.forall_mem_cons.mpr ⟨handed, staffed.bounded⟩
  empty key content holds := by
    rw [slot?_recall] at holds
    split at holds
    · next same =>
      obtain ⟨-, -, rfl⟩ := Option.map_eq_some_iff.mp holds
      exact iff_of_true rfl (same ▸ List.mem_cons_self)
    · next other =>
      rw [staffed.empty key content holds, List.mem_cons, or_iff_right other]

/-- A callback is put back. -/
theorem put (staffed : table.Staffed (token :: missing) bound) :
    (table.update token fun watch => { watch with callback := some callback }).Staffed missing
      bound where
  nodup := (List.nodup_cons.mp staffed.nodup).2
  bounded key member := staffed.bounded key (List.mem_cons_of_mem _ member)
  empty key content holds := by
    rw [slot?_recall] at holds
    split at holds
    · next same =>
      obtain ⟨-, -, rfl⟩ := Option.map_eq_some_iff.mp holds
      exact iff_of_false nofun (same ▸ (List.nodup_cons.mp staffed.nodup).1)
    · next other =>
      rw [staffed.empty key content holds, List.mem_cons, or_iff_right other]

/-- A callback whose watch has been removed is not missed any more. -/
theorem drop (staffed : table.Staffed (token :: missing) bound)
    (absent : table.slot? token = none) : table.Staffed missing bound where
  nodup := (List.nodup_cons.mp staffed.nodup).2
  bounded key member := staffed.bounded key (List.mem_cons_of_mem _ member)
  empty key content holds := by
    have other : key ≠ token := by
      rintro rfl
      rw [absent] at holds
      cases holds
    rw [staffed.empty key content holds, List.mem_cons, or_iff_right other]

/-- A watch is made under a token that has not been handed out before. -/
theorem insert (staffed : table.Staffed missing bound) {watch : Watch}
    (holds : watch.callback = some callback) :
    (table.insert bound watch).Staffed missing (bound + 1) where
  nodup := staffed.nodup
  bounded token member := Nat.lt_succ_of_lt (staffed.bounded token member)
  empty key content held := by
    rw [slot?_insert] at held
    split at held
    · next same =>
      rw [← Option.some.inj held, holds]
      refine iff_of_false nofun fun member => ?_
      exact Nat.lt_irrefl _ (same ▸ staffed.bounded key member)
    · exact staffed.empty key content held

end WatchTable.Staffed

namespace Context

variable {context next : Context} {stage : ContextStage} {rest : List ContextStage}
  {answer : ContextAnswer} {moved? : Option ContextStage} {past : List ContextTransition}

theorem missing_cons (tasks : context.tasks = stage :: rest) :
    missing past context =
      (stage.carries?.map Prod.fst).toList ++ (rest.filterMap ContextStage.carries?).map Prod.fst ++
        lost past := by
  rw [missing, carried, filterMap_tasks _ tasks, List.map_append]
  cases stage.carries? <;> rfl

theorem missing_moved (tasks : context.tasks = stage :: rest)
    (after : next.tasks = moved?.toList ++ rest) :
    missing ({ before := context, event := .answered answer, after := next } :: past) next =
      ((moved?.bind ContextStage.carries?).map Prod.fst).toList ++
        (rest.filterMap ContextStage.carries?).map Prod.fst ++
        ((stage.loses? answer).toList ++ lost past) := by
  rw [missing, carried, filterMap_moved _ after, List.map_append, lost,
    Machine.filterMap_told? tasks]
  cases moved?.bind ContextStage.carries? <;> rfl

/-- Where no callback is touched nothing is missing that was not missing before. -/
theorem missing_still (tasks : context.tasks = stage :: rest)
    (after : next.tasks = moved?.toList ++ rest)
    (carries : moved?.bind ContextStage.carries? = stage.carries?)
    (keeps : stage.loses? answer = none) :
    missing ({ before := context, event := .answered answer, after := next } :: past) next =
      missing past context := by
  rw [missing_moved tasks after, missing_cons tasks, carries, keeps]
  rfl

theorem Handles.staffed (handles : context.Handles next stage answer moved?)
    (tasks : context.tasks = stage :: rest) (after : next.tasks = moved?.toList ++ rest)
    (orderly : context.Orderly) (numbered : context.Numbered)
    (staffed : context.table.Staffed (missing past context) context.bound) :
    next.table.Staffed
      (missing ({ before := context, event := .answered answer, after := next } :: past) next)
      next.bound := by
  have latest : stage.Latest context.nextToken := numbered.latest stage (tasks ▸ rfl)
  have grows := handles.grows tasks after orderly latest
  have bound := handles.bound tasks after orderly latest
  have bound_recorded : ∀ {token descriptor interest callback},
      stage = .recording token descriptor interest callback → next.bound = token + 1 := by
    rintro token descriptor interest callback rfl
    exact handles.bound_recorded after latest
  -- All steps but five leave the table and what is missing as they are.
  have still : moved?.bind ContextStage.carries? = stage.carries? → stage.loses? answer = none →
      next.table = context.table → next.table.Staffed
        (missing ({ before := context, event := .answered answer, after := next } :: past) next)
        next.bound := by
    intro carries keeps table
    rw [missing_still tasks after carries keeps, table]
    exact staffed.mono (.refl _) grows fun _ _ held => held
  cases handles with
  | accepted _ _ _ _ table | refused _ _ _ _ _ table | returned _ _ _ _ table =>
    exact still rfl rfl table
  | deleted watch answer result table =>
    exact still (ContextStage.afterDelete_owned? watch result).2.1 rfl table
  | destroyed _ _ _ moved idle table =>
    exact still (ContextStage.idle idle).1 rfl table
  | aloof _ _ _ idle moves _ _ table =>
    refine still ?_ ?_ table
    · rw [(ContextStage.idle idle).1]
      exact Option.bind_eq_none_iff.mpr fun moved same => (ContextStage.idle (moves moved same)).1
    · cases stage <;> first | rfl | cases idle
  | amended token descriptor interest table =>
    rw [missing_still tasks after rfl rfl]
    refine staffed.mono (.refl _) grows fun key callback held => ?_
    rwa [table, WatchTable.slot?_amend] at held
  | removed token watch present table =>
    rw [missing_still tasks after rfl rfl]
    refine staffed.mono (.refl _) grows fun key callback held => ?_
    rw [table, WatchTable.slot?_remove] at held
    split at held
    · cases held
    · exact held
  | recorded token descriptor interest callback table =>
    rw [missing_still tasks after rfl rfl, table, bound_recorded rfl]
    rw [bound_recording tasks] at staffed
    exact staffed.insert rfl
  | taken token readiness ready callback watch present holds table =>
    have handed := numbered.table token (WatchTable.token_mem present)
    have held := (WatchTable.slot?_of_find? present).trans (congrArg some holds)
    rw [missing_moved tasks after, table, bound rfl]
    rw [missing_cons tasks] at staffed
    exact staffed.take held handed
  | panicked token readiness callback ready message table =>
    rw [missing_moved tasks after, table]
    rw [missing_cons tasks] at staffed
    exact staffed.mono List.perm_middle grows fun _ _ held => held
  | replaced token callback ready watch present table =>
    rw [missing_moved tasks after, table, bound rfl]
    rw [missing_cons tasks] at staffed
    exact staffed.put
  | orphaned token callback ready absent table =>
    rw [missing_moved tasks after, table, bound rfl]
    rw [missing_cons tasks] at staffed
    exact staffed.drop (by rw [WatchTable.slot?, absent, Option.map_none])

variable {capacity : Nat}

theorem missing_begin (past : List ContextTransition) (context : Context) (call : ContextCall) :
    missing ({ before := context, event := .called call, after := context.begin call } :: past)
      (context.begin call) = missing past context := by
  rw [missing, carried_begin]
  rfl

/-- At every moment the watches without their callback are those from which it has been taken for a
call and those that have lost it to a panic. -/
theorem History.staffed (history : History capacity past context) :
    context.table.Staffed (missing past context) context.bound := by
  refine history.handling
    (motive := fun past context => context.table.Staffed (missing past context) context.bound)
    ⟨.nil, nofun, nofun⟩ ?_ ?_
  · intro past context call history yields staffed
    rw [missing_begin, bound_begin yields history.orderly, begin_eq]
    exact staffed
  · intro past context stage rest answer moved? next history tasks after handles staffed
    exact handles.staffed tasks after history.orderly history.numbered staffed

/-! ### Where the callbacks are -/

/-- A step passes its callback on, or has it destroyed. -/
theorem Handles.owned (handles : context.Handles next stage answer moved?)
    (tasks : context.tasks = stage :: rest) (numbered : context.Numbered)
    (empty : ∀ entry, stage.carries? = some entry → ∀ watch,
      context.table.find? entry.1 = some watch → watch.callback = none) :
    (next.table.callbacks ++ (moved?.bind ContextStage.owned?).toList ++
        stage.destroys?.toList).Perm (context.table.callbacks ++ stage.owned?.toList) := by
  have nodup := numbered.nodup
  cases handles with
  | accepted _ _ _ _ table | refused _ _ _ _ _ table | returned _ _ _ _ table
  | panicked _ _ _ _ _ table | orphaned _ _ _ _ table =>
    rw [table]
    exact .of_eq (List.append_nil _)
  | recorded token descriptor interest callback table =>
    have fresh : token ∉ context.table.tokens := fun member =>
      Nat.lt_irrefl token (bound_recording tasks ▸ numbered.table token member)
    rw [table, WatchTable.callbacks_insert fresh]
    exact .of_eq ((List.append_nil _).trans (List.append_nil _))
  | amended token descriptor interest table =>
    rw [table, WatchTable.callbacks_amend]
    exact .of_eq (List.append_nil _)
  | removed token watch present table =>
    rw [table]
    refine .trans (.of_eq (List.append_nil _)) (.trans ?_ (.of_eq (List.append_nil _).symm))
    exact List.perm_append_comm.trans (WatchTable.callbacks_remove nodup present).symm
  | deleted watch answer result table =>
    rw [table]
    refine .of_eq ((List.append_nil _).trans (congrArg _ ?_))
    rw [Option.bind_some, (ContextStage.afterDelete_owned? watch result).1]
    rfl
  | taken token readiness ready callback watch present holds table =>
    rw [table]
    refine .trans (.of_eq (List.append_nil _)) (.trans ?_ (.of_eq (List.append_nil _).symm))
    have whole := WatchTable.callbacks_remove nodup present
    rw [holds] at whole
    refine .trans ?_ whole.symm
    refine List.perm_append_comm.trans (List.Perm.append_left _ ?_)
    exact WatchTable.callbacks_update nodup present _
  | replaced token callback ready watch present table =>
    rw [table]
    refine .trans (.of_eq ((List.append_nil _).trans (List.append_nil _))) ?_
    have whole := WatchTable.callbacks_remove nodup present
    rw [empty _ rfl watch present] at whole
    refine (WatchTable.callbacks_update nodup present _).trans ?_
    exact (List.Perm.append_left _ whole.symm).trans List.perm_append_comm
  | destroyed callback after answer moved idle table =>
    rw [table, Option.bind_some, idle]
    exact .of_eq (congrArg (· ++ _) (List.append_nil _))
  | aloof _ _ _ idle still _ _ table =>
    have none : moved?.bind ContextStage.owned? = none := Option.bind_eq_none_iff.mpr still
    rw [table, none, idle, (ContextStage.idle idle).2.1]
    exact .of_eq (List.append_nil _)

/-- A carried callback is not in the table. -/
theorem empty_of_carries (tasks : context.tasks = stage :: rest)
    (staffed : context.table.Staffed (missing past context) context.bound)
    {entry : Token × CallbackId} (carries : stage.carries? = some entry) {watch : Watch}
    (present : context.table.find? entry.1 = some watch) : watch.callback = none := by
  rw [missing_cons tasks, carries] at staffed
  exact (staffed.empty _ _ (WatchTable.slot?_of_find? present)).mpr List.mem_cons_self

theorem given_called (past : List ContextTransition) (context : Context) (call : ContextCall) :
    given (⟨context, .called call, context.begin call⟩ :: past) =
      call.gives?.toList ++ given past :=
  Machine.filterMap_cons_toList _ _ _

/-- Each callback that has been handed over is in one place: in the table, with an operation, or
destroyed. -/
theorem History.conserved (history : History capacity past context) :
    (given past).Perm (context.owned ++ destroyed past) := by
  refine history.handling
    (motive := fun past context => (given past).Perm (context.owned ++ destroyed past)) .rfl ?_ ?_
  · intro past context call history yields conserved
    refine List.perm_iff_count.mpr fun callback => ?_
    have before := conserved.count_eq callback
    rw [given_called, begin_eq, owned, filterMap_tasks _ rfl, (call.first_owned? _).1]
    rw [owned] at before
    simp only [List.count_append] at before ⊢
    change _ = _ + (destroyed past).count callback
    omega
  · intro past context stage rest answer moved? next history tasks after handles conserved
    refine List.perm_iff_count.mpr fun callback => ?_
    have before := conserved.count_eq callback
    have step := (handles.owned tasks history.numbered fun entry carries watch present =>
      empty_of_carries tasks history.staffed carries present).count_eq callback
    change (given past).count callback = _
    rw [destroyed, Machine.filterMap_told? tasks, owned, filterMap_moved _ after]
    rw [destroyed, owned, filterMap_tasks _ tasks] at before
    simp only [List.count_append] at before step ⊢
    omega

/-! ### Which watch a callback belongs to -/

/-- What is under a token after a step was there before, or came with the watch that the step has
recorded. A callback that is there was there before, or it was put back. -/
theorem Handles.slot (handles : context.Handles next stage answer moved?) {token : Token}
    {content : Option CallbackId} (held : next.table.slot? token = some content) :
    (∃ callback, stage.records? = some (token, callback) ∧ content = some callback) ∨
      ∃ old, context.table.slot? token = some old ∧ ∀ callback, content = some callback →
        old = some callback ∨ stage.carries? = some (token, callback) := by
  have kept : next.table = context.table → ∃ old, context.table.slot? token = some old ∧
      ∀ callback, content = some callback →
        old = some callback ∨ stage.carries? = some (token, callback) := by
    intro table
    exact ⟨content, table ▸ held, fun _ => Or.inl⟩
  cases handles with
  | accepted _ _ _ _ table | refused _ _ _ _ _ table | deleted _ _ _ table
  | returned _ _ _ _ table | panicked _ _ _ _ _ table | orphaned _ _ _ _ table
  | destroyed _ _ _ _ _ table | aloof _ _ _ _ _ _ _ table => exact Or.inr (kept table)
  | recorded added descriptor interest callback table =>
    rw [table, WatchTable.slot?_insert] at held
    split at held
    · next same =>
      subst same
      exact Or.inl ⟨callback, rfl, (Option.some.inj held).symm⟩
    · exact Or.inr ⟨content, held, fun _ => Or.inl⟩
  | amended changed descriptor interest table =>
    rw [table, WatchTable.slot?_amend] at held
    exact Or.inr ⟨content, held, fun _ => Or.inl⟩
  | removed removed watch present table =>
    rw [table, WatchTable.slot?_remove] at held
    split at held
    · cases held
    · exact Or.inr ⟨content, held, fun _ => Or.inl⟩
  | taken started readiness ready callback watch present holds table =>
    rw [table, WatchTable.slot?_recall] at held
    split at held
    · obtain ⟨old, before, rfl⟩ := Option.map_eq_some_iff.mp held
      exact Or.inr ⟨old, before, nofun⟩
    · exact Or.inr ⟨content, held, fun _ => Or.inl⟩
  | replaced ended callback ready watch present table =>
    rw [table, WatchTable.slot?_recall] at held
    split at held
    · next same =>
      subst same
      obtain ⟨old, before, rfl⟩ := Option.map_eq_some_iff.mp held
      exact Or.inr ⟨old, before, fun _ same => Or.inr (Option.some.inj same ▸ rfl)⟩
    · exact Or.inr ⟨content, held, fun _ => Or.inl⟩

/-- Each watch is recorded once, with a token of its own, and it has no other callback than the
recorded one. -/
structure Recorded (past : List ContextTransition) (context : Context) : Prop where
  nodup : ((recorded past).map Prod.fst).Nodup
  bounded : ∀ entry ∈ recorded past, entry.1 < context.bound
  listed : ∀ token content, context.table.slot? token = some content →
    ∃ callback, (token, callback) ∈ recorded past
  held : ∀ token callback, context.table.slot? token = some (some callback) →
    (token, callback) ∈ recorded past
  carried : ∀ entry ∈ context.carried, entry ∈ recorded past

theorem recorded_answered (tasks : context.tasks = stage :: rest) (answer : ContextAnswer)
    (next : Context) (past : List ContextTransition) :
    recorded (⟨context, .answered answer, next⟩ :: past) =
      stage.records?.toList ++ recorded past :=
  Machine.filterMap_told? tasks _ answer next past

theorem Recorded.begin (records : Recorded past context) (yields : context.yields = true)
    (orderly : context.Orderly) (call : ContextCall) :
    Recorded (⟨context, .called call, context.begin call⟩ :: past) (context.begin call) where
  nodup := records.nodup
  bounded := (bound_begin yields orderly call).symm ▸ records.bounded
  listed := by
    rw [begin_eq]
    exact records.listed
  held := by
    rw [begin_eq]
    exact records.held
  carried := (carried_begin context call).symm ▸ records.carried

/-- The token of a watch that is recorded is the next one that was free. -/
theorem Handles.numbers (handles : context.Handles next stage answer moved?)
    (tasks : context.tasks = stage :: rest) (after : next.tasks = moved?.toList ++ rest)
    (latest : stage.Latest context.nextToken) {entry : Token × CallbackId}
    (records : stage.records? = some entry) :
    context.bound = entry.1 ∧ next.bound = entry.1 + 1 := by
  refine ⟨bound_of_records tasks records, ?_⟩
  cases stage with
  | recording token descriptor interest callback =>
    cases records
    exact handles.bound_recorded after latest
  | _ => cases records

/-- What is in the table after a step belongs to recorded watches. -/
theorem Recorded.slot (records : Recorded past context) (tasks : context.tasks = stage :: rest)
    (handles : context.Handles next stage answer moved?) {token : Token}
    {content : Option CallbackId} (held : next.table.slot? token = some content) :
    (∃ callback, (token, callback) ∈ stage.records?.toList ++ recorded past) ∧
      ∀ callback, content = some callback →
        (token, callback) ∈ stage.records?.toList ++ recorded past := by
  rcases handles.slot held with ⟨callback, brought, same⟩ | ⟨old, held, origin⟩
  · have new : (token, callback) ∈ stage.records?.toList ++ recorded past :=
      List.mem_append_left _ (Option.mem_toList.mpr brought)
    refine ⟨⟨callback, new⟩, fun other content => ?_⟩
    cases same.symm.trans content
    exact new
  · refine ⟨(records.listed token old held).imp fun _ => List.mem_append_right _, ?_⟩
    intro callback content
    refine List.mem_append_right _ ?_
    rcases origin callback content with rfl | carries
    · exact records.held token callback held
    · refine records.carried _ ?_
      rw [Context.carried, filterMap_tasks _ tasks, carries]
      exact List.mem_cons_self

/-- What the operations have after a step belongs to recorded watches. -/
theorem Recorded.carries (records : Recorded past context) (tasks : context.tasks = stage :: rest)
    (after : next.tasks = moved?.toList ++ rest)
    (handles : context.Handles next stage answer moved?) {entry : Token × CallbackId}
    (member : entry ∈ next.carried) : entry ∈ recorded past := by
  have carried := records.carried
  rw [Context.carried, filterMap_tasks _ tasks] at carried
  rw [Context.carried, filterMap_moved _ after] at member
  rcases List.mem_append.mp member with member | member
  · rcases handles.carries (Option.mem_toList.mp member) with same | ⟨watch, present, holds⟩
    · exact carried entry (List.mem_append_left _ (Option.mem_toList.mpr same))
    · refine records.held entry.1 entry.2 ?_
      rw [WatchTable.slot?_of_find? present, holds]
  · exact carried entry (List.mem_append_right _ member)

theorem History.recorded (history : History capacity past context) : Recorded past context := by
  refine history.handling (motive := Recorded) ⟨.nil, nofun, nofun, nofun, nofun⟩ ?_ ?_
  · intro past context call history yields records
    exact records.begin yields history.orderly call
  · intro past context stage rest answer moved? next history tasks after handles records
    have latest : stage.Latest context.nextToken := history.numbered.latest stage (tasks ▸ rfl)
    have grows := handles.grows tasks after history.orderly latest
    have split := recorded_answered tasks answer next past
    refine ⟨?_, ?_, ?_, ?_, ?_⟩ <;> rw [split]
    · cases brought : stage.records? with
      | none => exact records.nodup
      | some entry =>
        refine List.nodup_cons.mpr ⟨fun member => ?_, records.nodup⟩
        obtain ⟨other, member, tokens⟩ := List.mem_map.mp member
        have below := records.bounded other member
        rw [(handles.numbers tasks after latest brought).1, tokens] at below
        exact Nat.lt_irrefl _ below
    · intro entry member
      rcases List.mem_append.mp member with member | member
      · rw [(handles.numbers tasks after latest (Option.mem_toList.mp member)).2]
        exact Nat.lt_succ_self _
      · exact Nat.lt_of_lt_of_le (records.bounded entry member) grows
    · exact fun token content held => (records.slot tasks handles held).1
    · exact fun token callback held => (records.slot tasks handles held).2 callback rfl
    · exact fun entry member =>
        List.mem_append_right _ (records.carries tasks after handles member)

/-- A watch has brought its callback with it. -/
theorem Handles.brings (handles : context.Handles next stage answer moved?)
    (callback : CallbackId) :
    (stage.records?.toList.map Prod.snd).count callback +
        (moved?.bind ContextStage.brings?).toList.count callback ≤
      stage.brings?.toList.count callback := by
  cases handles with
  | deleted watch answer result =>
    rw [Option.bind_some, (ContextStage.afterDelete_owned? watch result).2.2.1]
    exact Nat.le_refl _
  | destroyed _ _ _ moved idle =>
    rw [Option.bind_some, (ContextStage.idle idle).2.2.1]
    exact Nat.le_refl _
  | aloof _ _ _ idle still =>
    have none : moved?.bind ContextStage.brings? = none :=
      Option.bind_eq_none_iff.mpr fun moved same => (ContextStage.idle (still moved same)).2.2.1
    rw [none, (ContextStage.idle idle).2.2.2]
    exact Nat.zero_le _
  | accepted => exact Nat.le_of_eq (Nat.zero_add _)
  | recorded => exact Nat.le_refl _
  | refused | amended | removed | taken | returned | panicked | replaced | orphaned =>
    exact Nat.zero_le _

theorem History.brought (history : History capacity past context) (callback : CallbackId) :
    ((Context.recorded past).map Prod.snd).count callback + context.arriving.count callback ≤
      (given past).count callback := by
  refine history.handling (motive := fun past context =>
    ((Context.recorded past).map Prod.snd).count callback + context.arriving.count callback ≤
      (given past).count callback) (Nat.le_refl 0) ?_ ?_
  · intro past context call history yields brought
    have brings : (call.first context.nextToken).brings?.toList.count callback ≤
        call.gives?.toList.count callback := call.first_brings? context.nextToken callback
    rw [given_called, begin_eq, arriving, filterMap_tasks _ rfl]
    rw [arriving] at brought
    simp only [List.count_append]
    change ((Context.recorded past).map Prod.snd).count callback + _ ≤ _
    omega
  · intro past context stage rest answer moved? next history tasks after handles brought
    have step := handles.brings callback
    change _ ≤ (given past).count callback
    rw [Context.recorded, Machine.filterMap_told? tasks, arriving,
      filterMap_moved _ after, List.map_append]
    rw [Context.recorded, arriving, filterMap_tasks _ tasks] at brought
    simp only [List.count_append] at brought step ⊢
    omega

end Context

end MessagePump

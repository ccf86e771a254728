/-
This file proves what the rest of the program can do to a poller by calling the system.

Whatever is done with descriptors concerns their files first, and none of that depends on who polls
them. A poller only hears news of files: something has happened to one, or one is gone. It hears
nothing else, so its wake signal is out of reach of these calls, and a registration stays as it is
as long as the descriptor it was made through is not closed.
-/

import MessagePump.Kernel.Respond
import MessagePump.Kernel.Transfer

namespace MessagePump

/-! ### News of files -/

/-- What a poller can hear of a file. With a key only those registrations are told that want one of
its conditions. -/
inductive News
  | told (file : FileId) (key : Option EventFlags)
  | gone (file : FileId)
  deriving DecidableEq

/-- The interest list after a piece of news. -/
def InterestList.hear (list : InterestList) : News → InterestList
  | .told file key =>
    list.wakeUp fun registration =>
      registration.source.isFile file && key.all fun key => key.meets registration.wanted
  | .gone file => list.forget (Source.isFile file)

/-- The poller after some news. -/
def Poller.hear (poller : Poller) (news : List News) : Poller :=
  { poller with list := news.foldl InterestList.hear poller.list }

theorem Poller.hear_append (poller : Poller) (first second : List News) :
    poller.hear (first ++ second) = (poller.hear first).hear second := by
  simp only [hear, List.foldl_append]

theorem Poller.map_hear_nil (pollers : List Poller) :
    pollers.map (fun poller => poller.hear []) = pollers :=
  List.map_id _

theorem Poller.map_hear_append (pollers : List Poller) (first second : List News) :
    pollers.map (fun poller => poller.hear (first ++ second)) =
      (pollers.map fun poller => poller.hear first).map fun poller => poller.hear second := by
  rw [List.map_map]
  exact List.map_congr_left fun poller _ => poller.hear_append first second

namespace Kernel

/-- The same files and descriptors with other pollers. -/
def withPollers (kernel : Kernel) (pollers : List Poller) : Kernel := { kernel with pollers }

/-- Files are read and written regardless of who polls them and of what is announced to those. -/
@[simp] theorem withPollers_frame (kernel : Kernel) (pollers : List Poller) :
    (kernel.withPollers pollers).file = kernel.file ∧
      (kernel.withPollers pollers).fileOf? = kernel.fileOf? ∧
      (kernel.withPollers pollers).backlog = kernel.backlog ∧
      (∀ id file, (kernel.withPollers pollers).setFile id file =
        (kernel.setFile id file).withPollers pollers) ∧
      ∀ told key, ((kernel.withPollers pollers).announce told key).file = kernel.file :=
  ⟨rfl, rfl, rfl, fun _ _ => rfl, fun _ _ => rfl⟩

/-! ### What is done to files -/

/-- An action on files: the pollers hear of it, whoever they are, no descriptor is opened or closed,
and what can be polled stays so. -/
structure Touches (action : Kernel → Kernel) (kernel : Kernel) (news : List News) : Prop where
  heard : ∀ pollers, action (kernel.withPollers pollers) =
    (action kernel).withPollers (pollers.map fun poller => poller.hear news)
  descriptors : (action kernel).descriptors = kernel.descriptors
  length : (action kernel).files.length = kernel.files.length
  kinds : ∀ id, kernel.file id ≠ .null → (action kernel).file id ≠ .null

theorem file_setFile (kernel : Kernel) (id other : FileId) (file : File) :
    (kernel.setFile id file).file other =
      if id = other ∧ id < kernel.files.length then file else kernel.file other := by
  simp only [setFile, Kernel.file, List.getD_eq_getElem?_getD, List.getElem?_set]
  by_cases same : id = other
  · subst same
    by_cases inside : id < kernel.files.length
    · simp only [inside, and_self, if_true, Option.getD_some]
    · simp only [inside, and_false, if_true, if_false, Option.getD_none,
        List.getElem?_eq_none (Nat.le_of_not_lt inside)]
  · simp only [same, false_and, if_false]

variable {kernel : Kernel}

theorem Touches.nothing : Touches (fun kernel => kernel) kernel [] where
  heard pollers := by rw [Poller.map_hear_nil]
  descriptors := rfl
  length := rfl
  kinds _ kind := kind

/-- A file that can be polled does not become one that cannot. -/
theorem Touches.setFile (id : FileId) (file : File)
    (kind : kernel.file id ≠ .null → file ≠ .null) :
    Touches (fun kernel => kernel.setFile id file) kernel [] where
  heard pollers := by rw [Poller.map_hear_nil]; rfl
  descriptors := rfl
  length := List.length_set
  kinds other before := by
    rw [file_setFile]
    split
    · next same => exact kind (same.1 ▸ before)
    · exact before

theorem Touches.announce (file : FileId) (key : Option EventFlags) :
    Touches (fun kernel => kernel.announce file key) kernel [.told file key] where
  heard _ := rfl
  descriptors := rfl
  length := rfl
  kinds _ kind := kind

/-- One action after another. -/
theorem Touches.andThen {first second : Kernel → Kernel} {early late : List News}
    (touches : Touches first kernel early) (follows : Touches second (first kernel) late) :
    Touches (fun kernel => second (first kernel)) kernel (early ++ late) where
  heard pollers := by rw [touches.heard, follows.heard, Poller.map_hear_append]
  descriptors := follows.descriptors.trans touches.descriptors
  length := follows.length.trans touches.length
  kinds id kind := follows.kinds id (touches.kinds id kind)

/-- What an action does may depend on the files, but not on the pollers. -/
theorem Touches.congr {action branch : Kernel → Kernel} {news : List News}
    (same : ∀ pollers, action (kernel.withPollers pollers) = branch (kernel.withPollers pollers))
    (touches : Touches branch kernel news) : Touches action kernel news := by
  have here : action kernel = branch kernel := same kernel.pollers
  refine ⟨fun pollers => ?_, ?_, ?_, ?_⟩
  · rw [same, here, touches.heard]
  · rw [here, touches.descriptors]
  · rw [here, touches.length]
  · rw [here]
    exact touches.kinds

/-- No file is gone after this news. -/
def Spares (news : List News) : Prop := ∀ file, .gone file ∉ news

theorem spares_nil : Spares [] := fun _ => List.not_mem_nil

theorem spares_told (file : FileId) (key : Option EventFlags) : Spares [.told file key] := by
  intro other gone
  cases List.mem_singleton.mp gone

theorem Spares.append {early late : List News} (first : Spares early) (second : Spares late) :
    Spares (early ++ late) := fun file gone =>
  (List.mem_append.mp gone).elim (first file) (second file)

/-- An action of which no file is gone. -/
def TouchesOnly (action : Kernel → Kernel) (kernel : Kernel) : Prop :=
  ∃ news, Spares news ∧ Touches action kernel news

theorem TouchesOnly.congr {action branch : Kernel → Kernel} (touches : TouchesOnly branch kernel)
    (same : ∀ pollers, action (kernel.withPollers pollers) = branch (kernel.withPollers pollers)) :
    TouchesOnly action kernel :=
  touches.imp fun _ only => ⟨only.1, only.2.congr same⟩

theorem TouchesOnly.nothing : TouchesOnly (fun kernel => kernel) kernel :=
  ⟨[], spares_nil, .nothing⟩

/-- A file is changed. -/
theorem TouchesOnly.setFile (id : FileId) (file : File)
    (kind : kernel.file id ≠ .null → file ≠ .null) :
    TouchesOnly (fun kernel => kernel.setFile id file) kernel :=
  ⟨[], spares_nil, .setFile id file kind⟩

/-- A file is changed, and something about some file is announced. -/
theorem TouchesOnly.change (kernel : Kernel) (id : FileId) (file : File) (told : FileId)
    (key : Option EventFlags) (kind : kernel.file id ≠ .null → file ≠ .null) :
    TouchesOnly (fun kernel => (kernel.setFile id file).announce told key) kernel :=
  ⟨_, spares_told told key, Touches.andThen (.setFile id file kind) (.announce told key)⟩

theorem withBacklog_kind (file : File) (waiting : Backlog) (kind : file ≠ .null) :
    file.withBacklog waiting ≠ .null := by
  cases file with
  | null => exact absurd rfl kind
  | _ => exact nofun

/-! ### Reading, writing and shutting -/

theorem touches_deliver (kernel : Kernel) (id : FileId) (put : Backlog → Backlog) :
    TouchesOnly (fun kernel => (kernel.deliver id put).2) kernel := by
  cases taken : (put (kernel.backlog id)).unread - (kernel.backlog id).unread with
  | zero => exact TouchesOnly.nothing.congr fun _ => by simp [deliver, taken]
  | succ bytes =>
    exact (TouchesOnly.change kernel id _ id (some .onlyInput)
      (withBacklog_kind (kernel.file id) (put (kernel.backlog id)))).congr fun _ => by
        simp [deliver, taken]

theorem touches_write (kernel : Kernel) (descriptor : Descriptor) (bytes : Nat) :
    TouchesOnly (fun kernel => (kernel.write descriptor bytes).2) kernel := by
  cases leads : kernel.fileOf? descriptor with
  | none => exact TouchesOnly.nothing.congr fun _ => by simp [write, leads]
  | some id =>
    cases found : kernel.file id with
    | socket state =>
      by_cases shut : state.sendShut = true
      · exact TouchesOnly.nothing.congr fun _ => by simp [write, leads, found, shut]
      by_cases empty : bytes = 0
      · exact TouchesOnly.nothing.congr fun _ => by simp [write, leads, found, shut, empty]
      cases pending : state.pending with
      | none =>
        exact (touches_deliver kernel state.peer fun backlog => backlog.putMessages bytes).congr
          fun _ => by simp [write, leads, found, shut, empty, pending]
      | some cause =>
        exact (TouchesOnly.setFile id (.socket { state with pending := none })
          fun _ => nofun).congr fun _ => by simp [write, leads, found, shut, empty, pending]
    | pipeWriter reader =>
      by_cases empty : bytes = 0
      · exact TouchesOnly.nothing.congr fun _ => by simp [write, leads, found, empty]
      by_cases closed : (kernel.file reader).isClosed = true
      · exact TouchesOnly.nothing.congr fun _ => by simp [write, leads, found, empty, closed]
      · exact (touches_deliver kernel reader fun backlog => backlog.putPages bytes).congr
          fun _ => by simp [write, leads, found, empty, closed]
    | counter count =>
      by_cases short : bytes < counterBytes
      · exact TouchesOnly.nothing.congr fun _ => by simp [write, leads, found, short]
      · exact (TouchesOnly.change kernel id (.counter (count + 1)) id (some .onlyInput)
          fun _ => nofun).congr fun _ => by simp [write, leads, found, short]
    | null | pipeReader | closed =>
      exact TouchesOnly.nothing.congr fun _ => by simp [write, leads, found]

/-- What is taken out of a file is told to those that write to it, if they have room now. -/
theorem touches_collect (kernel : Kernel) (id writer : FileId) (taken : Nat) :
    TouchesOnly (fun kernel => kernel.collect id writer taken) kernel := by
  have kind := withBacklog_kind (kernel.file id) ((kernel.backlog id).take taken)
  cases room : decide (((kernel.backlog id).take taken).segments.length <
      (kernel.backlog id).segments.length) &&
        ((kernel.setFile id ((kernel.file id).withBacklog
          ((kernel.backlog id).take taken))).fileConditions writer).output with
  | false =>
    exact (TouchesOnly.setFile id _ kind).congr fun _ => if_neg (Bool.eq_false_iff.mp room)
  | true =>
    exact (TouchesOnly.change kernel id _ writer (some .onlyOutput) kind).congr
      fun _ => if_pos room

theorem touches_read (kernel : Kernel) (descriptor : Descriptor) (limit : Nat) :
    TouchesOnly (fun kernel => (kernel.read descriptor limit).2) kernel := by
  cases leads : kernel.fileOf? descriptor with
  | none => exact TouchesOnly.nothing.congr fun _ => by simp [read, leads]
  | some id =>
    cases found : kernel.file id with
    | socket state =>
      by_cases empty : limit = 0
      · exact TouchesOnly.nothing.congr fun _ => by simp [read, leads, found, empty]
      by_cases present : min limit state.waiting.unread ≠ 0
      · exact (touches_collect kernel id state.peer (min limit state.waiting.unread)).congr
          fun _ => by simp [read, leads, found, empty, present]
      cases pending : state.pending with
      | none =>
        exact TouchesOnly.nothing.congr fun _ => by
          simp [read, leads, found, empty, present, pending]
      | some cause =>
        exact (TouchesOnly.setFile id (.socket { state with pending := none })
          fun _ => nofun).congr fun _ => by simp [read, leads, found, empty, present, pending]
    | pipeReader writer waiting =>
      by_cases empty : limit = 0
      · exact TouchesOnly.nothing.congr fun _ => by simp [read, leads, found, empty]
      by_cases present : min limit waiting.unread ≠ 0
      · exact (touches_collect kernel id writer (min limit waiting.unread)).congr
          fun _ => by simp [read, leads, found, empty, present]
      · exact TouchesOnly.nothing.congr fun _ => by simp [read, leads, found, empty, present]
    | counter count =>
      by_cases short : limit < counterBytes
      · exact TouchesOnly.nothing.congr fun _ => by simp [read, leads, found, short]
      by_cases empty : count = 0
      · exact TouchesOnly.nothing.congr fun _ => by simp [read, leads, found, short, empty]
      · exact (TouchesOnly.change kernel id (.counter 0) id (Option.some .onlyOutput)
          fun _ => nofun).congr fun _ => by simp [read, leads, found, short, empty]
    | null | pipeWriter | closed =>
      exact TouchesOnly.nothing.congr fun _ => by simp [read, leads, found]

theorem touches_shutdown (kernel : Kernel) (descriptor : Descriptor) (how : ShutHow) :
    TouchesOnly (fun kernel => (kernel.shutdown descriptor how).2) kernel := by
  cases leads : kernel.fileOf? descriptor with
  | none => exact TouchesOnly.nothing.congr fun _ => by simp [shutdown, leads]
  | some id =>
    cases found : kernel.file id with
    | socket state =>
      let own := { state with
        receiveShut := state.receiveShut || how.receives
        sendShut := state.sendShut || how.sends }
      obtain ⟨early, spared, first⟩ :=
        TouchesOnly.change kernel id (.socket own) id none fun _ => nofun
      cases other : (kernel.setFile id (.socket own)).file state.peer with
      | socket peer =>
        let shut := { peer with
          receiveShut := peer.receiveShut || how.sends
          sendShut := peer.sendShut || how.receives }
        obtain ⟨late, sparedPeer, second⟩ := TouchesOnly.change
          ((kernel.setFile id (.socket own)).announce id none) state.peer
          (.socket shut) state.peer none fun _ => nofun
        exact ⟨early ++ late, spared.append sparedPeer, (first.andThen second).congr fun _ => by
          simp [shutdown, leads, found, other, own, shut]⟩
      | _ => exact ⟨early, spared, first.congr fun _ => by
          simp [shutdown, leads, found, other, own]⟩
    | _ => exact TouchesOnly.nothing.congr fun _ => by simp [shutdown, leads, found]

/-! ### Closing -/

/-- What is left of the system when a file has been closed and taken out of every poller. -/
def withoutFile (kernel : Kernel) (id : FileId) : Kernel :=
  { kernel with
    files := kernel.files.set id (.closed (leftOf (kernel.file id)))
    pollers := kernel.pollers.map fun poller => poller.hear [.gone id] }

/-- What is connected to a closed file sees that it is gone. -/
theorem closeFile_eq (kernel : Kernel) (id : FileId) :
    kernel.closeFile id = match kernel.file id with
      | .socket state =>
        match (kernel.withoutFile id).file state.peer with
        | .socket other =>
          let other := { other with
            receiveShut := true
            sendShut := true
            pending := if state.waiting.unread = 0 then other.pending else some .connectionReset }
          ((kernel.withoutFile id).setFile state.peer (.socket other)).announce state.peer none
        | _ => kernel.withoutFile id
      | .pipeReader writer _ => (kernel.withoutFile id).announce writer none
      | .pipeWriter reader => (kernel.withoutFile id).announce reader none
      | _ => kernel.withoutFile id :=
  rfl

theorem Touches.withoutFile (kernel : Kernel) (id : FileId) :
    Touches (fun kernel => kernel.withoutFile id) kernel [.gone id] where
  heard _ := rfl
  descriptors := rfl
  length := List.length_set
  kinds other before :=
    (Touches.setFile id (.closed (leftOf (kernel.file id))) fun _ => nofun).kinds other before

/-- Only the closed file is gone. -/
theorem touches_closeFile (kernel : Kernel) (id : FileId) :
    ∃ news, (∀ file, .gone file ∈ news → file = id) ∧
      Touches (fun kernel => kernel.closeFile id) kernel news := by
  have first := Touches.withoutFile kernel id
  have alone : ∀ {late : List News}, Spares late →
      ∀ file, News.gone file ∈ [News.gone id] ++ late → file = id := by
    intro late spared file gone
    rcases List.mem_cons.mp gone with same | gone
    · exact News.gone.inj same
    · exact absurd gone (spared file)
  cases found : kernel.file id with
  | socket state =>
    cases other : (kernel.withoutFile id).file state.peer with
    | socket peer =>
      obtain ⟨late, spared, second⟩ := TouchesOnly.change (kernel.withoutFile id)
        state.peer (.socket { peer with
          receiveShut := true
          sendShut := true
          pending := if state.waiting.unread = 0 then peer.pending else some .connectionReset })
        state.peer none fun _ => nofun
      exact ⟨_, alone spared, (first.andThen second).congr fun _ => by
        rw [closeFile_eq]
        simp [found, other, first.heard]⟩
    | _ => exact ⟨_, alone spares_nil, first.congr fun _ => by
        rw [closeFile_eq]
        simp [found, other, first.heard]⟩
  | pipeReader told | pipeWriter told =>
    exact ⟨_, alone (spares_told told none), (first.andThen (.announce told none)).congr fun _ => by
      rw [closeFile_eq]
      simp [found, first.heard]⟩
  | _ => exact ⟨_, alone spares_nil, first.congr fun _ => by
      rw [closeFile_eq]
      simp [found, first.heard]⟩

end Kernel

/-! ### Calls of the rest of the program -/

/-- What the rest of the program can ask of the system, besides polling. `limit` stands for
descriptors that are opened and closed elsewhere: it changes how many can still be opened. -/
inductive SystemCall
  | openFile (file : File)
  | openSockets
  | openPipe
  | duplicate (descriptor : Descriptor)
  | write (descriptor : Descriptor) (bytes : Nat)
  | read (descriptor : Descriptor) (limit : Nat)
  | shutdown (descriptor : Descriptor) (how : ShutHow)
  | close (descriptor : Descriptor)
  | limit (spare : Option Nat)
  deriving DecidableEq

/-- The descriptor that a call closes. -/
def SystemCall.closes? : SystemCall → Option Descriptor
  | .close descriptor => some descriptor
  | _ => none

namespace Kernel

/-- The system after a call. -/
def perform (kernel : Kernel) : SystemCall → Kernel
  | .openFile file => (kernel.openFile file).2
  | .openSockets => kernel.openSockets.2.2
  | .openPipe => kernel.openPipe.2.2
  | .duplicate descriptor => ((kernel.duplicate? descriptor).map Prod.snd).getD kernel
  | .write descriptor bytes => (kernel.write descriptor bytes).2
  | .read descriptor limit => (kernel.read descriptor limit).2
  | .shutdown descriptor how => (kernel.shutdown descriptor how).2
  | .close descriptor => (kernel.close descriptor).2
  | .limit spare => { kernel with spare }

/-- Every descriptor leads to a file that has been opened. -/
def Regular (kernel : Kernel) : Prop :=
  ∀ entry ∈ kernel.descriptors, entry.2 < kernel.files.length

variable {kernel : Kernel}

theorem fileOf?_mem {descriptor : Descriptor} {file : FileId}
    (leads : kernel.fileOf? descriptor = some file) :
    (descriptor, file) ∈ kernel.descriptors := by
  obtain ⟨before, after, split, -⟩ := List.lookup_eq_some_iff.mp leads
  rw [split]
  exact List.mem_append_right before List.mem_cons_self

/-- What a call does to a poller and to the descriptors: the poller hears news and nothing else, no
file is gone while a descriptor leads to it, and what a descriptor leads to, and whether that can be
polled, does not change unless the descriptor is the one that is closed. -/
structure Serves (action : Kernel → Kernel) (kernel : Kernel) (closed : Option Descriptor)
    (news : List News) : Prop where
  heard : ∀ pollers, action (kernel.withPollers pollers) =
    (action kernel).withPollers (pollers.map fun poller => poller.hear news)
  gone : ∀ file, .gone file ∈ news → ∀ descriptor, (action kernel).fileOf? descriptor ≠ some file
  kept : ∀ descriptor file, kernel.fileOf? descriptor = some file → closed ≠ some descriptor →
    (action kernel).fileOf? descriptor = some file
  regular : kernel.Regular → (action kernel).Regular
  grows : kernel.files.length ≤ (action kernel).files.length
  kinds : ∀ id, id < kernel.files.length → kernel.file id ≠ .null → (action kernel).file id ≠ .null

/-- All pollers hear the same news. -/
theorem Serves.pollers {action : Kernel → Kernel} {closed : Option Descriptor} {news : List News}
    (serves : Serves action kernel closed news) :
    (action kernel).pollers = kernel.pollers.map fun poller => poller.hear news :=
  congrArg Kernel.pollers (serves.heard kernel.pollers)

theorem TouchesOnly.serves {action : Kernel → Kernel} (touches : TouchesOnly action kernel) :
    ∃ news, Serves action kernel none news := by
  obtain ⟨news, spared, touches⟩ := touches
  refine ⟨news, touches.heard, fun file gone => absurd gone (spared file), ?_, ?_, ?_, ?_⟩
  · intro descriptor file leads _
    rw [fileOf?, touches.descriptors]
    exact leads
  · intro regular entry member
    rw [touches.descriptors] at member
    rw [touches.length]
    exact regular entry member
  · exact Nat.le_of_eq touches.length.symm
  · exact fun id _ kind => touches.kinds id kind

/-- An action that no poller hears of and that only opens descriptors. -/
theorem Serves.quiet {action : Kernel → Kernel}
    (heard : ∀ pollers, action (kernel.withPollers pollers) =
      (action kernel).withPollers pollers)
    (opened : ∃ late, (action kernel).descriptors = kernel.descriptors ++ late ∧
      (kernel.Regular → ∀ entry ∈ late, entry.2 < (action kernel).files.length))
    (files : ∃ late, (action kernel).files = kernel.files ++ late) :
    Serves action kernel none [] := by
  obtain ⟨late, descriptors, bounded⟩ := opened
  obtain ⟨new, files⟩ := files
  have grows : kernel.files.length ≤ (action kernel).files.length := by
    rw [files, List.length_append]
    exact Nat.le_add_right _ _
  refine ⟨?_, fun _ gone => absurd gone List.not_mem_nil, ?_, ?_, grows, ?_⟩
  · intro pollers
    rw [heard, Poller.map_hear_nil]
  · intro descriptor file leads _
    rw [fileOf?] at leads
    rw [fileOf?, descriptors, List.lookup_append, leads, Option.some_or]
  · intro regular entry member
    rw [descriptors] at member
    rcases List.mem_append.mp member with member | member
    · exact Nat.lt_of_lt_of_le (regular entry member) grows
    · exact bounded regular entry member
  · intro id inside kind
    rw [file, List.getD_eq_getElem?_getD] at kind
    rw [file, List.getD_eq_getElem?_getD, files, List.getElem?_append_left inside]
    exact kind

theorem Serves.congr {action branch : Kernel → Kernel} {closed : Option Descriptor}
    {news : List News} (serves : Serves branch kernel closed news)
    (same : ∀ pollers, action (kernel.withPollers pollers) = branch (kernel.withPollers pollers)) :
    Serves action kernel closed news := by
  have here : action kernel = branch kernel := same kernel.pollers
  refine ⟨fun pollers => ?_, ?_, ?_, ?_, ?_, ?_⟩
  · rw [same, here, serves.heard]
  all_goals rw [here]
  · exact serves.gone
  · exact serves.kept
  · exact serves.regular
  · exact serves.grows
  · exact serves.kinds

theorem Serves.nothing : Serves (fun kernel => kernel) kernel none [] :=
  .quiet (fun _ => rfl) ⟨[], (List.append_nil _).symm, nofun⟩ ⟨[], (List.append_nil _).symm⟩

/-- Opening a file, once or several times. -/
theorem Serves.andThen {first second : Kernel → Kernel} (serves : Serves first kernel none [])
    (follows : Serves second (first kernel) none []) :
    Serves (fun kernel => second (first kernel)) kernel none [] where
  heard pollers := by
    rw [serves.heard, follows.heard, Poller.map_hear_nil]
  gone _ gone := absurd gone List.not_mem_nil
  kept descriptor file leads closed :=
    follows.kept descriptor file (serves.kept descriptor file leads closed) closed
  regular regular := follows.regular (serves.regular regular)
  grows := Nat.le_trans serves.grows follows.grows
  kinds id inside kind :=
    follows.kinds id (Nat.lt_of_lt_of_le inside serves.grows) (serves.kinds id inside kind)

theorem serves_openFile (kernel : Kernel) (file : File) :
    Serves (fun kernel => (kernel.openFile file).2) kernel none [] := by
  refine .quiet (fun _ => rfl) ⟨[(kernel.nextDescriptor, kernel.files.length)], rfl, ?_⟩
    ⟨[file], rfl⟩
  intro _ entry member
  cases List.mem_singleton.mp member
  exact List.length_append ▸ Nat.lt_succ_self _

theorem serves_duplicate (kernel : Kernel) (descriptor : Descriptor) :
    Serves (fun kernel => kernel.perform (.duplicate descriptor)) kernel none [] := by
  by_cases full : kernel.spare = some 0
  · exact Serves.nothing.congr fun _ => by simp [perform, duplicate?, withPollers, full]
  cases leads : kernel.fileOf? descriptor with
  | none => exact Serves.nothing.congr fun _ => by simp [perform, duplicate?, leads]
  | some file =>
    have opened : Serves (fun kernel => { kernel with
        descriptors := kernel.descriptors ++ [(kernel.nextDescriptor, file)]
        nextDescriptor := kernel.nextDescriptor + 1
        spare := kernel.spare.map fun spare => spare - 1 }) kernel none [] := by
      refine .quiet (fun _ => rfl) ⟨_, rfl, fun regular entry member => ?_⟩
        ⟨[], (List.append_nil _).symm⟩
      cases List.mem_singleton.mp member
      exact regular (descriptor, file) (fileOf?_mem leads)
    refine opened.congr fun pollers => ?_
    have spare : (kernel.withPollers pollers).spare ≠ some 0 := full
    simp [perform, duplicate?, leads, spare]

/-- Closing a descriptor leaves all others as they are. -/
theorem fileOf?_filter {descriptor other : Descriptor} {file : FileId}
    (leads : kernel.fileOf? other = some file) (differs : other ≠ descriptor) :
    (kernel.descriptors.filter fun entry => entry.1 != descriptor).lookup other = some file := by
  rw [fileOf?, List.lookup_eq_some_iff] at leads
  obtain ⟨before, after, split, fresh⟩ := leads
  rw [List.lookup_eq_some_iff, split]
  refine ⟨before.filter fun entry => entry.1 != descriptor,
    after.filter fun entry => entry.1 != descriptor, ?_, ?_⟩
  · have stays : ((other, file).1 != descriptor) = true := bne_iff_ne.mpr differs
    rw [List.filter_append, List.filter_cons, if_pos stays]
  · exact fun entry member => fresh entry (List.mem_filter.mp member).1

theorem serves_close (kernel : Kernel) (descriptor : Descriptor) :
    ∃ news, Serves (fun kernel => (kernel.close descriptor).2) kernel (some descriptor) news := by
  cases leads : kernel.fileOf? descriptor with
  | none =>
    have nothing : Serves (fun kernel => kernel) kernel (some descriptor) [] :=
      { Serves.nothing with kept := fun _ _ leads _ => leads }
    exact ⟨[], nothing.congr fun _ => by simp [close, leads]⟩
  | some id =>
    let shut : Kernel → Kernel := fun kernel => { kernel with
      descriptors := kernel.descriptors.filter fun entry => entry.1 != descriptor }
    have kept : ∀ other file, kernel.fileOf? other = some file → some descriptor ≠ some other →
        (shut kernel).fileOf? other = some file := fun other file leads closed =>
      fileOf?_filter leads fun same => closed (congrArg some same.symm)
    have regular : kernel.Regular → (shut kernel).Regular := fun regular entry member =>
      regular entry (List.mem_filter.mp member).1
    cases more : (shut kernel).descriptors.any fun entry => entry.2 == id with
    | true =>
      have still : Serves shut kernel (some descriptor) [] := by
        refine ⟨fun pollers => ?_, fun _ gone => absurd gone List.not_mem_nil, kept, regular,
          Nat.le_refl _, fun _ _ kind => kind⟩
        rw [Poller.map_hear_nil]
        rfl
      refine ⟨[], still.congr fun pollers => ?_⟩
      simp only [close, withPollers_frame, leads]
      exact if_pos more
    | false =>
      obtain ⟨news, only, touches⟩ := touches_closeFile (shut kernel) id
      have closed : Serves (fun kernel => (shut kernel).closeFile id) kernel (some descriptor)
          news := by
        refine ⟨fun pollers => touches.heard pollers, ?_, ?_, ?_, ?_, ?_⟩
        · rintro file gone other leads
          obtain rfl := only file gone
          have member := fileOf?_mem leads
          rw [touches.descriptors] at member
          rw [List.any_eq_false] at more
          exact more _ member (beq_self_eq_true file)
        · intro other file leads closed
          rw [fileOf?, touches.descriptors]
          exact kept other file leads closed
        · intro before entry member
          rw [touches.descriptors] at member
          rw [touches.length]
          exact regular before entry member
        · exact Nat.le_of_eq touches.length.symm
        · exact fun other _ kind => touches.kinds other kind
      refine ⟨news, closed.congr fun pollers => ?_⟩
      simp only [close, withPollers_frame, leads]
      exact if_neg (Bool.eq_false_iff.mp more)

/-- Every call serves the pollers with news only. -/
theorem perform_serves (kernel : Kernel) (call : SystemCall) :
    ∃ news, Serves (fun kernel => kernel.perform call) kernel call.closes? news := by
  cases call with
  | openFile file => exact ⟨[], serves_openFile kernel file⟩
  | openSockets =>
    exact ⟨[], ((serves_openFile kernel (.socket { peer := kernel.files.length + 1 })).andThen
      (serves_openFile _ (.socket { peer := kernel.files.length }))).congr fun _ => rfl⟩
  | openPipe =>
    exact ⟨[], ((serves_openFile kernel (.pipeReader (kernel.files.length + 1) {})).andThen
      (serves_openFile _ (.pipeWriter kernel.files.length))).congr fun _ => rfl⟩
  | duplicate descriptor => exact ⟨[], serves_duplicate kernel descriptor⟩
  | write descriptor bytes => exact (touches_write kernel descriptor bytes).serves
  | read descriptor limit => exact (touches_read kernel descriptor limit).serves
  | shutdown descriptor how => exact (touches_shutdown kernel descriptor how).serves
  | close descriptor => exact serves_close kernel descriptor
  | limit spare =>
    exact ⟨[], .quiet (fun _ => rfl) ⟨[], (List.append_nil _).symm, nofun⟩
      ⟨[], (List.append_nil _).symm⟩⟩

end Kernel

end MessagePump

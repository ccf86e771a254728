/-
This file proves what a wait of the system has to do with the deadline that it is for.

The system waits for whole milliseconds. What is left until a deadline is rounded up to them, so the
wait covers the deadline, and since something is left it is never nothing. Unless it is cut off at
the longest wait, it ends less than a millisecond after the deadline; when the clock is looked at
then, the deadline has passed and is cleared.

The number of milliseconds is worked out in machine words of several sizes. `WordDuration` repeats
that calculation; it never overflows and comes to the same number.
-/

import MessagePump.Proofs.ContextHistories
import MessagePump.Proofs.DeadlineExpiry

namespace MessagePump

/-! ### Rounding up -/

/-- A number of milliseconds is right to wait for some nanoseconds: it is neither nothing nor
endless, and it is the nanoseconds rounded up unless they exceed the longest wait. -/
structure WaitsFor (millis : Int) (left : Int) : Prop where
  positive : 1 ≤ millis
  bounded : millis ≤ longestWait
  rounded : millis = longestWait ∨
    (millis - 1) * nanosPerMilli < left ∧ left ≤ millis * nanosPerMilli

theorem waitMillis_some (left : Nat) :
    waitMillis (some left) = (min ((left + 999999) / 1000000) 2147483647 : Nat) :=
  rfl

theorem waitMillis_eq_neg_one {timeout : Option Duration} :
    waitMillis timeout = -1 ↔ timeout = none := by
  cases timeout with
  | none => exact iff_of_true rfl rfl
  | some left =>
    rw [waitMillis_some]
    exact iff_of_false (by omega) nofun

theorem waitsFor_of_pos {left : Nat} (some : 0 < left) :
    WaitsFor (waitMillis (.some left)) left := by
  rw [waitMillis_some]
  refine ⟨by omega, ?_, ?_⟩
  · dsimp only [longestWait]
    omega
  · dsimp only [longestWait, nanosPerMilli]
    omega

/-- Who waits for longer waits for no fewer milliseconds. -/
theorem waitMillis_mono {shorter longer : Nat} (le : shorter ≤ longer) :
    waitMillis (some shorter) ≤ waitMillis (some longer) := by
  rw [waitMillis_some, waitMillis_some]
  omega

/-- A wait that is not cut off ends at the deadline or less than a millisecond after it. -/
theorem WaitsFor.ends {millis deadline now : Int}
    (waits : WaitsFor millis (deadline - now)) (short : millis < longestWait) :
    deadline ≤ now + millis * nanosPerMilli ∧
      now + millis * nanosPerMilli < deadline + nanosPerMilli := by
  obtain ⟨-, -, cut | ⟨less, covered⟩⟩ := waits
  · exact absurd cut (Int.ne_of_lt short)
  · rw [Int.sub_mul, Int.one_mul] at less
    constructor <;> omega

/-! ### In machine words -/

/-- A second has a billion nanoseconds. -/
abbrev nanosPerSecond : Nat := 1000000000

/-- A duration in machine words: seconds, and nanoseconds that make less than a second. -/
structure WordDuration where
  seconds : BitVec 64
  nanos : BitVec 32
  carried : nanos.toNat < nanosPerSecond

namespace WordDuration

/-- The duration that the words stand for. -/
def value (words : WordDuration) : Nat :=
  words.seconds.toNat * nanosPerSecond + words.nanos.toNat

/-- All of it in nanoseconds, in 128 bits. -/
def inNanos (words : WordDuration) : BitVec 128 :=
  words.seconds.setWidth 128 * BitVec.ofNat 128 nanosPerSecond + words.nanos.setWidth 128

/-- The milliseconds: the quotient, and one more if there is a remainder. -/
def inMillis (words : WordDuration) : BitVec 128 :=
  let quotient := words.inNanos / BitVec.ofNat 128 nanosPerMilli
  if words.inNanos % BitVec.ofNat 128 nanosPerMilli = 0 then quotient else quotient + 1#128

/-- The argument of the wait, a signed number of 32 bits. -/
def argument : Option WordDuration → BitVec 32
  | none => -1
  | some words =>
    if words.inMillis < BitVec.ofNat 128 longestWait then words.inMillis.setWidth 32
    else (BitVec.ofNat 128 longestWait).setWidth 32

variable (words : WordDuration)

theorem value_lt : words.value < UInt64.size * nanosPerSecond := by
  have seconds := words.seconds.isLt
  have carried := words.carried
  unfold value
  dsimp only [nanosPerSecond, UInt64.size] at carried ⊢
  omega

/-- Neither the product nor the sum overflows. -/
theorem inNanos_toNat : words.inNanos.toNat = words.value := by
  have bound := words.value_lt
  have seconds := words.seconds.isLt
  have nanos := words.nanos.isLt
  unfold value at bound
  rw [inNanos, value, BitVec.toNat_add, BitVec.toNat_mul, BitVec.toNat_setWidth,
    BitVec.toNat_setWidth, BitVec.toNat_ofNat]
  dsimp only [nanosPerSecond, UInt64.size] at bound ⊢
  omega

/-- Adding one to the quotient does not overflow either. -/
theorem inMillis_toNat :
    words.inMillis.toNat = (words.value + (nanosPerMilli - 1)) / nanosPerMilli := by
  have bound := words.value_lt
  have remainder : words.inNanos % BitVec.ofNat 128 nanosPerMilli = 0 ↔
      words.value % nanosPerMilli = 0 := by
    rw [← BitVec.toNat_inj, BitVec.toNat_umod, inNanos_toNat]
    exact Iff.rfl
  have quotient : (words.inNanos / BitVec.ofNat 128 nanosPerMilli).toNat =
      words.value / nanosPerMilli := by
    rw [BitVec.toNat_udiv, inNanos_toNat]
    rfl
  unfold inMillis
  dsimp only [nanosPerMilli, nanosPerSecond, UInt64.size] at bound remainder quotient ⊢
  split
  · next none =>
    rw [quotient]
    have none := remainder.mp none
    omega
  · next some =>
    have some := mt remainder.mpr some
    rw [BitVec.toNat_add, quotient, BitVec.toNat_ofNat]
    omega

/-- Cutting off leaves a number that a signed word of 32 bits can hold. -/
theorem argument_toInt (words? : Option WordDuration) :
    (argument words?).toInt = waitMillis (words?.map value) := by
  cases words? with
  | none => rfl
  | some words =>
    have millis := words.inMillis_toNat
    rw [Option.map_some, waitMillis_some, argument]
    dsimp only [nanosPerMilli, longestWait] at millis ⊢
    rw [← millis]
    split
    · next short =>
      rw [BitVec.lt_def, BitVec.toNat_ofNat] at short
      have kept : (words.inMillis.setWidth 32).toNat = words.inMillis.toNat := by
        rw [BitVec.toNat_setWidth]
        omega
      rw [BitVec.toInt_eq_toNat_of_lt] <;> omega
    · next long =>
      rw [BitVec.lt_def, BitVec.toNat_ofNat] at long
      rw [Nat.min_eq_right (by omega)]
      rfl

/-- Every duration is in words if its seconds fit. -/
theorem exists_value {duration : Nat} (fits : duration < UInt64.size * nanosPerSecond) :
    ∃ words : WordDuration, words.value = duration := by
  have seconds : duration / nanosPerSecond < UInt64.size :=
    Nat.div_lt_of_lt_mul (Nat.mul_comm _ _ ▸ fits)
  have nanos : duration % nanosPerSecond < nanosPerSecond := Nat.mod_lt _ (by decide)
  have nanos' : duration % nanosPerSecond < UInt32.size := Nat.lt_trans nanos (by decide)
  refine ⟨⟨⟨duration / nanosPerSecond, seconds⟩, ⟨duration % nanosPerSecond, nanos'⟩, nanos⟩, ?_⟩
  exact Nat.div_add_mod' duration nanosPerSecond

end WordDuration

/-! ### The waits of a context -/

/-- The bound of a poll that has not waited yet. -/
def ContextStage.bound? : ContextStage → Option (Option Duration)
  | .preparing timeout | .waiting timeout => some timeout
  | _ => none

namespace Context

variable {capacity : Nat} {past : List ContextTransition} {context : Context}

theorem stageRequest_wait {stage : ContextStage} {room : Nat} {millis : Int}
    (asked : context.stageRequest stage = .wait room millis) :
    ∃ timeout, stage = .waiting timeout ∧ millis = waitMillis timeout := by
  cases stage with
  | waiting timeout => exact ⟨timeout, rfl, (ContextRequest.wait.inj asked).2.symm⟩
  | collecting events ready =>
    cases events with
    | nil => cases asked
    | cons event events =>
      simp only [stageRequest] at asked
      split at asked <;> cases asked
  | _ => cases asked

/-- A poll keeps the bound that it was called with until it waits. -/
theorem bounds_followed (capacity : Nat) : machine.Followed { capacity }
    fun _ course stage => ∀ timeout, stage.bound? = some timeout → course.call = .poll timeout where
  idle := rfl
  fresh := by
    intro past context call next first history begun tasks timeout bounded
    obtain ⟨-, rfl⟩ := machine_called begun
    rw [begin_eq] at tasks
    obtain rfl := (List.cons.inj tasks).1
    generalize opened : call.first context.nextToken = stage at bounded
    have opens := opened ▸ call.first_opens context.nextToken
    cases opens <;> cases bounded
    rfl
  own := by
    intro past context answer next stage moved rest course history advanced tasks after _ bounds
      timeout bounded
    obtain ⟨stage, rest, tasks', step⟩ := machine_answered advanced
    cases tasks.symm.trans tasks'
    cases step with
    | prepare =>
      cases after
      cases bounded
      exact bounds timeout rfl
    | delete watch | deleteFailed watch =>
      obtain rfl := List.head_eq_of_cons_eq after
      rcases ContextStage.afterDelete_cases watch _ with ⟨-, same⟩ | ⟨callback, -, same⟩ <;>
        rw [same] at bounded <;> cases bounded
    | finish => exact absurd (congrArg List.length after) (Nat.ne_of_lt (Nat.lt_succ_self _))
    | _ =>
      cases after
      cases bounded
  aside := fun _ _ _ bounds => bounds

/-- Only polls wait, and they do so for their bound in milliseconds. -/
theorem History.wait_asked (history : History capacity past context) {room : Nat} {millis : Int}
    (asked : context.request? = some (.wait room millis)) :
    ∃ course others timeout, machine.courses past = course :: others ∧
      course.call = .poll timeout ∧ millis = waitMillis timeout := by
  obtain ⟨stage, top, asked⟩ := Option.map_eq_some_iff.mp asked
  obtain ⟨rest, tasks⟩ := List.head?_eq_some_iff.mp top
  obtain ⟨timeout, rfl, same⟩ := stageRequest_wait asked
  obtain ⟨course, others, progress, -, bounds⟩ :=
    Machine.History.innermost (bounds_followed capacity) history tasks
  exact ⟨course, others, timeout, progress, bounds timeout rfl, same⟩

end Context

/-! ### The waits of a loop -/

/-- What a loop waits for is ahead, and the wait is right for what is left. -/
theorem Execution.waits_for {earlier : List Move} {poll : Move} {context : ContextId}
    {timeout : Option Duration} {deadline : Instant} {pump : Pump}
    (execution : Execution (poll :: earlier) pump)
    (polls : poll.asks? = some (.poll context timeout))
    (recorded : poll.after.deadline = some deadline) :
    ∃ now, poll.event = .answered (.time now) ∧ now < deadline ∧
      WaitsFor (waitMillis timeout) (deadline - now) := by
  have waits := execution.waits_recorded polls
  rw [recorded] at waits
  obtain ⟨now, time, left, rfl⟩ := waits
  have ahead := remaining_ne_zero.mp left
  exact ⟨now, time, ahead, remaining_of_lt ahead ▸ waitsFor_of_pos (Nat.pos_of_ne_zero left)⟩

/-- A look at the clock that finds the recorded deadline passed clears it, and the loop goes back to
its immediate work. -/
theorem Execution.cleared {earlier : List Move} {look : Move} {now deadline : Instant} {pump : Pump}
    (execution : Execution (look :: earlier) pump) (asked : look.before.request? = some .clock)
    (time : look.event = .answered (.time now)) (recorded : look.before.deadline = some deadline)
    (passed : deadline ≤ now) : look.after.deadline = none ∧ look.asks? = some .immediate := by
  obtain ⟨due, top, moved, rest, held, same, stack, kept, late, -⟩ := execution.looked asked time
  cases same.symm.trans recorded
  obtain ⟨cleared, works⟩ := late passed
  refine ⟨cleared, ?_⟩
  rw [Move.asks?_cons time stack kept, works]
  rfl

/-- A wait covers the deadline that it is for and is never nothing. The system is asked to wait
for ever exactly if no deadline is recorded. Otherwise the recorded one is ahead when the clock
is looked at, and the milliseconds are right for what is left. Unless they are cut off, a wait that
lasts so long ends at the deadline or less than a millisecond after it; a pass without work then
looks at the clock again, and if the same deadline is still recorded it is cleared and nothing is
polled. What the system is asked is what the poll was called with, in milliseconds: these grow with
the duration, and they are what machine words make of it without overflowing. -/
theorem Execution.wait_covers_deadline {later earlier : List Move} {poll : Move} {pump : Pump}
    {context : ContextId} {timeout : Option Duration}
    (execution : Execution (later ++ poll :: earlier) pump)
    (polls : poll.asks? = some (.poll context timeout)) :
    (waitMillis timeout = -1 ↔ poll.after.deadline = none) ∧
    (∀ deadline, poll.after.deadline = some deadline →
      ∃ now, poll.event = .answered (.time now) ∧ now < deadline ∧
        WaitsFor (waitMillis timeout) (deadline - now) ∧
        (waitMillis timeout < longestWait →
          deadline ≤ now + waitMillis timeout * nanosPerMilli ∧
          now + waitMillis timeout * nanosPerMilli < deadline + nanosPerMilli ∧
          ∀ after look between moment, later = after ++ look :: between →
            look.before.request? = some .clock → look.event = .answered (.time moment) →
            look.before.deadline = some deadline →
            now + waitMillis timeout * nanosPerMilli ≤ moment →
              look.after.deadline = none ∧ look.asks? = some .immediate)) ∧
    (∀ after idle between, later = after ++ idle :: between →
      idle.before.request? = some .idle → idle.event = .answered (.worked false) →
      idle.before.running = true → idle.before.deadline ≠ none → idle.asks? = some .clock) ∧
    (∀ capacity past room millis, ∀ state : Context, Context.History capacity past state →
      state.request? = some (.wait room millis) →
        ∃ course others bound, Context.machine.courses past = course :: others ∧
          course.call = .poll bound ∧ millis = waitMillis bound) ∧
    (∀ shorter longer : Duration, shorter ≤ longer →
      waitMillis (some shorter) ≤ waitMillis (some longer)) ∧
    (∀ words? : Option WordDuration,
      (WordDuration.argument words?).toInt = waitMillis (words?.map WordDuration.value)) ∧
    (∀ words : WordDuration, words.inNanos.toNat = words.value ∧
      words.inMillis.toNat = (words.value + (nanosPerMilli - 1)) / nanosPerMilli) ∧
    ∀ duration < UInt64.size * nanosPerSecond, ∃ words : WordDuration, words.value = duration := by
  have reached : ∀ after move between, later = after ++ move :: between →
      Execution (move :: (between ++ poll :: earlier)) move.after := by
    rintro after move between rfl
    rw [List.append_assoc] at execution
    exact Execution.after execution
  have ran := execution.after
  refine ⟨?_, fun deadline recorded => ?_, ?_, fun _ _ _ _ _ history => history.wait_asked,
    fun _ _ => waitMillis_mono, WordDuration.argument_toInt,
    fun words => ⟨words.inNanos_toNat, words.inMillis_toNat⟩, fun _ => WordDuration.exists_value⟩
  · rw [waitMillis_eq_neg_one]
    have waits := ran.waits_recorded polls
    cases recorded : poll.after.deadline with
    | none =>
      rw [recorded] at waits
      exact iff_of_true waits rfl
    | some deadline =>
      rw [recorded] at waits
      obtain ⟨now, -, -, same⟩ := waits
      exact iff_of_false (same ▸ nofun) nofun
  · obtain ⟨now, time, ahead, waits⟩ := ran.waits_for polls recorded
    refine ⟨now, time, ahead, waits, fun short => ?_⟩
    obtain ⟨covered, soon⟩ := waits.ends short
    refine ⟨covered, soon, fun after look between moment split asked looked same full => ?_⟩
    exact (reached after look between split).cleared asked looked same (Int.le_trans covered full)
  · intro after idle between split asked vain going recorded
    obtain ⟨deadline, recorded⟩ := Option.ne_none_iff_exists'.mp recorded
    exact ((reached after idle between split).workless asked vain going).2 deadline recorded

/-- A deadline is a little more than three milliseconds ahead. The wait lasts four milliseconds, and
the pass without work that follows finds the deadline passed. -/
def waitedInFull : List PumpEvent :=
  [.entered, .answered .done, .answered (.worked false),
    .answered (.workedUntil false (some 5000001)), .answered (.worked false),
    .answered (.time 2000000), .answered .done, .answered (.worked false),
    .answered (.workedUntil false (some 5000001)), .answered (.worked false),
    .answered (.time 6000000)]

theorem Execution.wait_covers_deadline_waitedInFull :
    ∃ look between poll earlier, (replayed waitedInFull).1 = look :: between ++ poll :: earlier ∧
      poll.asks? = some (.poll 0 (some 3000001)) ∧ waitMillis (some 3000001) = 4 ∧
      look.event = .answered (.time 6000000) ∧ look.before.deadline = some 5000001 ∧
      look.after.deadline = none ∧ look.asks? = some .immediate := by
  have split : (replayed waitedInFull).1 =
      ((replayed waitedInFull).1.get ⟨0, by decide⟩ :: (replayed waitedInFull).1.tail.take 4) ++
        (replayed waitedInFull).1.get ⟨5, by decide⟩ :: (replayed waitedInFull).1.drop 6 := rfl
  have execution := Execution.of_replayed waitedInFull
  rw [split] at execution
  have polls : ((replayed waitedInFull).1.get ⟨5, by decide⟩).asks? =
      some (.poll 0 (some 3000001)) := by decide
  have recorded : ((replayed waitedInFull).1.get ⟨0, by decide⟩).before.deadline =
      some 5000001 := by decide
  obtain ⟨-, covered, -⟩ := Execution.wait_covers_deadline execution polls
  obtain ⟨now, time, -, -, full⟩ := covered 5000001 (by decide)
  obtain rfl : now = 2000000 := by
    have looked : ((replayed waitedInFull).1.get ⟨5, by decide⟩).event =
        .answered (.time 2000000) := by decide
    cases time.symm.trans looked
    rfl
  obtain ⟨-, -, clears⟩ := full (by decide)
  obtain ⟨cleared, unpolled⟩ := clears [] _ _ 6000000 rfl (by decide) (by decide) recorded
    (by decide)
  exact ⟨_, _, _, _, split, polls, by decide, by decide, recorded, cleared, unpolled⟩

end MessagePump

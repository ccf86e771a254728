/-
This file proves that the counter of a wake signal accounts for everything that is added to it.

As long as the descriptor is intact, what has been drained and what is still in the counter are
together the signals that were not swallowed and the amounts that were accepted. Only a full counter
swallows a signal, and only an amount that does not fit is refused, so the counter never wraps
around. Neither changes anything, and since a full counter is pending as well, something is left to
be drained after every signal.
-/

import MessagePump.Proofs.Latching

namespace MessagePump

/-! ### Adding in machine words -/

/-- An amount is added to a counter in machine words. What is left up to the largest word decides
whether it fits, so that no sum has to be looked at. -/
def addWords (count amount : BitVec 64) : Except IoError (BitVec 64) :=
  if amount = .allOnes 64 then .error .invalidArgument
  else if amount < .allOnes 64 - count then .ok (count + amount)
  else .error .again

theorem eq_allOnes_iff {amount : BitVec 64} :
    amount = .allOnes 64 ↔ counterLimit < amount.toNat := by
  have bound := amount.isLt
  rw [← BitVec.toNat_inj, BitVec.toNat_allOnes]
  dsimp only [counterLimit]
  omega

/-- The difference does not wrap around, and neither does the sum where there is one. -/
theorem addWords_toNat (count amount : BitVec 64) :
    (addWords count amount).map BitVec.toNat = addToCounter count.toNat amount.toNat := by
  have counted := count.isLt
  have room : amount < .allOnes 64 - count ↔ count.toNat + amount.toNat ≤ counterLimit := by
    rw [BitVec.lt_def, BitVec.toNat_sub, BitVec.toNat_allOnes]
    dsimp only [counterLimit]
    omega
  unfold addWords addToCounter
  by_cases largest : amount = .allOnes 64
  · rw [if_pos largest, if_pos (eq_allOnes_iff.mp largest)]
    rfl
  · rw [if_neg largest, if_neg (mt eq_allOnes_iff.mpr largest)]
    by_cases fits : amount < .allOnes 64 - count
    · have sum : (count + amount).toNat = count.toNat + amount.toNat :=
        BitVec.toNat_add_of_lt (Nat.lt_of_le_of_lt (room.mp fits) (by decide))
      rw [if_pos fits, if_neg (Nat.not_lt.mpr (room.mp fits)), ← sum]
      rfl
    · rw [if_neg fits, if_pos (Nat.not_le.mp (mt room.mpr fits))]
      rfl

/-! ### Calls -/

/-- What can be done to a wake signal. An amount that is added directly is a word of 64 bits. -/
inductive WakeCall
  | signal
  | add (amount : BitVec 64)
  | drain
  deriving DecidableEq

namespace WakeSource

/-- Whether a signal would be swallowed: it succeeds, but its write is refused. -/
def swallows (source : WakeSource) : Bool :=
  source.signal.2.isNone && !(source.write 1).isOk

/-- What a call makes of a wake signal. A call that fails leaves it as it is. -/
def after (source : WakeSource) : WakeCall → WakeSource
  | .signal => source.signal.1
  | .add amount => (source.write amount.toNat).toOption.getD source
  | .drain => (source.drain.toOption.map Prod.snd).getD source

/-- How many signals a call sends that are not swallowed. -/
def sends (source : WakeSource) : WakeCall → Nat
  | .signal => if source.swallows then 0 else 1
  | _ => 0

/-- The amount that a call adds directly, if it is accepted. -/
def accepts (source : WakeSource) : WakeCall → Nat
  | .add amount => if (source.write amount.toNat).isOk then amount.toNat else 0
  | _ => 0

/-- What a call drains. -/
def drains (source : WakeSource) : WakeCall → Nat
  | .drain => (source.drain.toOption.map Prod.fst).getD 0
  | _ => 0

/-- A new wake signal after some calls, the latest first. -/
def reached : List WakeCall → WakeSource
  | [] => {}
  | call :: earlier => (reached earlier).after call

/-- The sum of a measure of every call, each taken at its own moment. -/
def total (measure : WakeSource → WakeCall → Nat) : List WakeCall → Nat
  | [] => 0
  | call :: earlier => measure (reached earlier) call + total measure earlier

/-! ### What one call does -/

/-- The descriptor leads to the counter, and the counter is within its limit. -/
structure Counts (source : WakeSource) : Prop where
  intact : source.target = .counter
  bounded : source.count ≤ counterLimit

variable {source : WakeSource}

theorem write_counter (intact : source.target = .counter) (amount : Nat) :
    source.write amount =
      (addToCounter source.count amount).map fun count => { source with count } := by
  simp only [write, intact]

/-- An amount that fits is added. -/
theorem write_fits (intact : source.target = .counter) {amount : Nat}
    (fits : source.count + amount ≤ counterLimit) :
    source.write amount = .ok { source with count := source.count + amount } := by
  rw [write_counter intact, addToCounter, if_neg (by omega), if_neg (Nat.not_lt.mpr fits)]
  rfl

/-- An amount that does not fit is refused. -/
theorem write_exceeds (intact : source.target = .counter) {amount : Nat}
    (exceeds : counterLimit < source.count + amount) :
    source.write amount =
      .error (if counterLimit < amount then .invalidArgument else .again) := by
  rw [write_counter intact, addToCounter, if_pos exceeds]
  split <;> rfl

namespace Counts

/-- The largest word is never accepted, and every other one is if there is room for it. -/
theorem write_word (counts : source.Counts) (amount : BitVec 64) :
    if source.count + amount.toNat ≤ counterLimit then
      source.write amount.toNat = .ok { source with count := source.count + amount.toNat }
    else
      source.write amount.toNat =
        .error (if amount = .allOnes 64 then .invalidArgument else .again) := by
  split
  · next fits => exact write_fits counts.intact fits
  · next exceeds =>
    rw [write_exceeds counts.intact (Nat.not_le.mp exceeds)]
    simp only [eq_allOnes_iff]

/-- Adding in machine words comes to the same. -/
theorem write_words (counts : source.Counts) (amount : BitVec 64) :
    source.write amount.toNat =
      (addWords (.ofNat 64 source.count) amount).map fun count =>
        { source with count := count.toNat } := by
  have held : (BitVec.ofNat 64 source.count).toNat = source.count := by
    have bounded := counts.bounded
    rw [BitVec.toNat_ofNat]
    dsimp only [counterLimit] at bounded
    omega
  rw [write_counter counts.intact, ← held, ← addWords_toNat, held]
  cases addWords (.ofNat 64 source.count) amount <;> rfl

/-- Only a full counter swallows a signal. -/
theorem swallows_iff (counts : source.Counts) :
    source.swallows = true ↔ source.count = counterLimit := by
  have bounded := counts.bounded
  unfold swallows
  rw [signal_counter counts.intact]
  by_cases full : source.count = counterLimit
  · rw [write_exceeds counts.intact (full ▸ Nat.lt_succ_self _)]
    exact iff_of_true rfl full
  · rw [write_fits counts.intact (by omega)]
    exact iff_of_false nofun full

/-- A signal adds one, unless the counter is full. -/
theorem signal_eq (counts : source.Counts) :
    source.signal = ({ source with count := min (source.count + 1) counterLimit }, none) := by
  have bounded := counts.bounded
  have limited : (if source.count + 1 ≤ counterLimit then source.count + 1 else source.count) =
      min (source.count + 1) counterLimit := by
    split <;> omega
  rw [signal_counter counts.intact, limited]

/-- What a call makes of the counter. -/
theorem after_eq (counts : source.Counts) (call : WakeCall) :
    source.after call = { source with
      count := match call with
        | .signal => min (source.count + 1) counterLimit
        | .add amount => if source.count + amount.toNat ≤ counterLimit then
            source.count + amount.toNat else source.count
        | .drain => 0 } := by
  cases call with
  | signal => rw [after, counts.signal_eq]
  | add amount =>
    have written := counts.write_word amount
    dsimp only [after]
    split at written
    · next fits => rw [written, if_pos fits]; rfl
    · next exceeds => rw [written, if_neg exceeds]; rfl
  | drain => rw [after, drain_counter counts.intact]; rfl

/-- A call keeps the counter within its limit, and what it drains and leaves there is what was there
and what it has sent and added. -/
theorem balances (counts : source.Counts) (call : WakeCall) :
    (source.after call).Counts ∧
      source.drains call + (source.after call).count =
        source.count + source.sends call + source.accepts call := by
  have bounded := counts.bounded
  rw [counts.after_eq]
  cases call with
  | signal =>
    refine ⟨⟨counts.intact, Nat.min_le_right _ _⟩, ?_⟩
    dsimp only [drains, sends, accepts]
    by_cases full : source.count = counterLimit
    · rw [if_pos (counts.swallows_iff.mpr full)]
      omega
    · rw [if_neg (mt counts.swallows_iff.mp full)]
      omega
  | add amount =>
    have written := counts.write_word amount
    dsimp only [drains, sends, accepts]
    split at written
    · next fits =>
      rw [written, if_pos fits]
      exact ⟨⟨counts.intact, fits⟩, (Nat.zero_add _).trans rfl⟩
    · next exceeds =>
      rw [written, if_neg exceeds]
      exact ⟨⟨counts.intact, bounded⟩, Nat.zero_add _⟩
  | drain =>
    refine ⟨⟨counts.intact, Nat.zero_le _⟩, ?_⟩
    rw [drains, drain_counter counts.intact]
    rfl

/-- Nothing but a drain takes anything out. -/
theorem count_le_after (counts : source.Counts) {call : WakeCall} (keeps : call ≠ .drain) :
    source.count ≤ (source.after call).count := by
  have bounded := counts.bounded
  rw [counts.after_eq]
  cases call with
  | signal => exact Nat.le_min.mpr ⟨Nat.le_succ _, bounded⟩
  | add amount =>
    dsimp only
    split
    · exact Nat.le_add_right _ _
    · exact Nat.le_refl _
  | drain => exact absurd rfl keeps

end Counts

/-! ### Any number of calls -/

theorem counts_reached (calls : List WakeCall) : (reached calls).Counts := by
  induction calls with
  | nil => exact ⟨rfl, Nat.zero_le _⟩
  | cons call earlier inductionHypothesis => exact (inductionHypothesis.balances call).1

/-- What has been drained and what is still there are what has been sent and added. -/
theorem total_drains_add_count (calls : List WakeCall) :
    total drains calls + (reached calls).count = total sends calls + total accepts calls := by
  induction calls with
  | nil => rfl
  | cons call earlier inductionHypothesis =>
    obtain ⟨-, balanced⟩ := (counts_reached earlier).balances call
    dsimp only [total, reached]
    omega

/-- What is there stays there until the next drain. -/
theorem count_le_reached {since earlier : List WakeCall} (keeps : .drain ∉ since) :
    (reached earlier).count ≤ (reached (since ++ earlier)).count := by
  induction since with
  | nil => exact Nat.le_refl _
  | cons call since inductionHypothesis =>
    rw [List.mem_cons, not_or] at keeps
    exact Nat.le_trans (inductionHypothesis keeps.2)
      ((counts_reached (since ++ earlier)).count_le_after (Ne.symm keeps.1))

theorem drain_reached (calls : List WakeCall) :
    (reached calls).drain = .ok ((reached calls).count, reached (.drain :: calls)) := by
  have drained := drain_counter (counts_reached calls).intact
  rw [drained, reached, WakeSource.after, drained]
  rfl

/-- After any number of calls on a new wake signal, the counter is within its limit, and what has
been drained and what is still there are together the signals that were not swallowed and the
amounts that were accepted. At any such moment a signal succeeds and leaves something behind; it
adds one unless the counter is full, and only then it is swallowed. An amount is added as it is in
machine words: if it fits it is added without wrapping around, and otherwise it is refused and
nothing changes. A drain returns the whole counter, empty or not, and leaves nothing, and the first
one after a signal returns something. -/
theorem conserves_signals (calls : List WakeCall) :
    (reached calls).count ≤ counterLimit ∧
    total drains calls + (reached calls).count = total sends calls + total accepts calls ∧
    ((reached calls).signal = (reached (.signal :: calls), none) ∧
      (reached (.signal :: calls)).count = min ((reached calls).count + 1) counterLimit ∧
      ((reached calls).swallows = true ↔ (reached calls).count = counterLimit)) ∧
    (∀ amount : BitVec 64,
      (reached calls).write amount.toNat =
        (addWords (.ofNat 64 (reached calls).count) amount).map (fun count =>
          { reached calls with count := count.toNat }) ∧
      if (reached calls).count + amount.toNat ≤ counterLimit then
        (reached calls).write amount.toNat = .ok (reached (.add amount :: calls)) ∧
          (reached (.add amount :: calls)).count = (reached calls).count + amount.toNat
      else
        (reached calls).write amount.toNat =
            .error (if amount = .allOnes 64 then .invalidArgument else .again) ∧
          reached (.add amount :: calls) = reached calls) ∧
    ((reached calls).drain = .ok ((reached calls).count, reached (.drain :: calls)) ∧
      (reached (.drain :: calls)).count = 0) ∧
    ∀ since, .drain ∉ since → ∃ count, 1 ≤ count ∧
      (reached (since ++ .signal :: calls)).drain =
        .ok (count, reached (.drain :: since ++ .signal :: calls)) := by
  have counts := counts_reached calls
  have signalled : (reached (.signal :: calls)).count =
      min ((reached calls).count + 1) counterLimit := by
    rw [reached, counts.after_eq]
  refine ⟨counts.bounded, total_drains_add_count calls,
    ⟨?_, signalled, counts.swallows_iff⟩, fun amount => ⟨counts.write_words amount, ?_⟩,
    ⟨drain_reached calls, ?_⟩, fun since keeps => ⟨_, ?_, drain_reached _⟩⟩
  · rw [reached, WakeSource.after, counts.signal_eq]
  · have written := counts.write_word amount
    rw [reached, counts.after_eq]
    dsimp only
    split at written
    · next fits =>
      rw [if_pos fits, if_pos fits]
      exact ⟨written, rfl⟩
    · next exceeds =>
      rw [if_neg exceeds, if_neg exceeds]
      exact ⟨written, rfl⟩
  · rw [reached, counts.after_eq]
  · -- What the signal has left is still there when the drain comes.
    refine Nat.le_trans ?_ (count_le_reached keeps)
    rw [signalled]
    exact Nat.le_min.mpr ⟨Nat.succ_pos _, by decide⟩

/-- The counter is filled up with one amount. A signal is swallowed then, and two more amounts are
refused. -/
def filledUp : List WakeCall :=
  [.add 1, .signal, .add (.allOnes 64), .add 0xfffffffffffffffe]

theorem conserves_signals_filledUp :
    (reached filledUp).count = counterLimit ∧ total accepts filledUp = counterLimit ∧
      total sends filledUp = 0 ∧ (reached filledUp).swallows = true ∧
      ∃ count, 1 ≤ count ∧
        (reached ([.add 1] ++ .signal :: filledUp)).drain =
          .ok (count, reached (.drain :: [.add 1] ++ .signal :: filledUp)) := by
  obtain ⟨-, balanced, ⟨-, -, swallows⟩, -, -, drains⟩ := conserves_signals filledUp
  have full : (reached filledUp).count = counterLimit := by decide
  have accepted : total accepts filledUp = counterLimit := by decide
  have undrained : total WakeSource.drains filledUp = 0 := rfl
  rw [undrained, full, accepted, Nat.zero_add] at balanced
  exact ⟨full, accepted, by omega, swallows.mpr full, drains [.add 1] (by decide)⟩

end WakeSource

end MessagePump

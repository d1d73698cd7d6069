import TsBat3.Foundation.Machine
import Mathlib.Data.BitVec
import Mathlib.Tactic.Ring

/-! # The pause of the main loop

At the end of a turn the main loop sleeps for what is left of 25 ms since the last time that the
device was heard. The rest is computed in 64 bits and kept in 32, so that what is passed to
`usleep` depends on the time of silence modulo 2^32 microseconds
(`TsBat3.pauseVal_toInt`). Once the silence has lasted 2147.508648 seconds a negative rest comes out
positive.
-/

namespace TsBat3

/-- `struct timeval`, with the microseconds that `gettimeofday` gives -/
structure Timeval where
  sec : BitVec 64
  usec : BitVec 64
  usec_lt : usec.toNat < 1000000

/-- The time in microseconds. -/
def Timeval.micros (time : Timeval) : Int := time.sec.toInt * 1000000 + time.usec.toInt

/-- `val`, as it is first assigned -/
def pauseVal (lastrun now : Timeval) : BitVec 32 :=
  (25 * 1000 - (now.sec - lastrun.sec) * 1000 * 1000 - (now.usec - lastrun.usec)).setWidth 32

/-- The argument of `usleep`. -/
def usleepArg (lastrun now : Timeval) : BitVec 32 :=
  if (pauseVal lastrun now).toInt ≤ 0 then 0 else pauseVal lastrun now

/-- The microseconds from the last time that the device was heard until now. -/
def silence (lastrun now : Timeval) : Int := now.micros - lastrun.micros

private theorem setWidth_intCast (value : Int) :
    (value : BitVec 64).setWidth 32 = (value : BitVec 32) := by
  apply BitVec.eq_of_toNat_eq
  change (BitVec.ofInt 64 value).toNat % 2 ^ 32 = (BitVec.ofInt 32 value).toNat
  rw [BitVec.toNat_ofInt, BitVec.toNat_ofInt]
  omega

private theorem intCast_toInt (value : BitVec 64) : ((value.toInt : Int) : BitVec 64) = value :=
  BitVec.ofInt_toInt

/-- No step of the computation matters but the last: the rest is the exact one, wrapped. -/
theorem pauseVal_eq (lastrun now : Timeval) :
    pauseVal lastrun now = ((25000 - silence lastrun now : Int) : BitVec 32) := by
  have rest : 25 * 1000 - (now.sec - lastrun.sec) * 1000 * 1000 - (now.usec - lastrun.usec) =
      ((25000 - silence lastrun now : Int) : BitVec 64) := by
    unfold silence Timeval.micros
    simp only [Int.cast_sub, Int.cast_add, Int.cast_mul, Int.cast_ofNat, intCast_toInt]
    ring
  rw [pauseVal, rest, setWidth_intCast]

private theorem pauseVal_toInt (lastrun now : Timeval) :
    (pauseVal lastrun now).toInt = (25000 - silence lastrun now).bmod (2 ^ 32) := by
  rw [pauseVal_eq]
  exact BitVec.toInt_ofInt _

/-- A pause is too long when it is longer than the 25 ms it is meant to fill up. -/
def Bounded (pause : BitVec 32) : Prop := 0 ≤ pause.toInt ∧ pause.toInt ≤ 25000

/-- The silence, as far as 32 bits count it, leaves a rest that is either short or comes out
negative. -/
def Counted (lastrun now : Timeval) : Prop := silence lastrun now % 2 ^ 32 ≤ 2 ^ 31 + 25000

/-- Clamping a wrapped rest at zero bounds it unless the rest comes out positive. -/
theorem clamped_iff (silence : Int) :
    max 0 ((25000 - silence).bmod (2 ^ 32)) ≤ 25000 ↔ silence % 2 ^ 32 ≤ 2 ^ 31 + 25000 := by
  rw [Int.bmod_def]
  split <;> omega

private theorem usleepArg_toInt (lastrun now : Timeval) :
    (usleepArg lastrun now).toInt = max 0 (pauseVal lastrun now).toInt := by
  unfold usleepArg
  split
  · rename_i spent
    exact (max_eq_left spent).symm
  · rename_i left
    exact (max_eq_right (le_of_not_ge left)).symm

/-- **The pause is bounded** exactly when the silence has not been counted as a positive
rest. -/
theorem usleepArg_bounded_iff (lastrun now : Timeval) :
    Bounded (usleepArg lastrun now) ↔ Counted lastrun now := by
  unfold Bounded Counted
  rw [usleepArg_toInt, pauseVal_toInt, ← clamped_iff]
  exact and_iff_right (le_max_left 0 _)

/-- After 2148 seconds of silence the loop sleeps for more than half an hour. -/
theorem usleepArg_unbounded :
    ¬ ∀ lastrun now : Timeval, lastrun.micros ≤ now.micros →
      Bounded (usleepArg lastrun now) := by
  intro bounded
  have long := (bounded ⟨0, 0, by decide⟩ ⟨2148, 0, by decide⟩ (by decide)).2
  exact absurd long (by decide)

/-- A turn of the loop: when the device was heard in it, if it was, and when the turn ends. -/
structure Turn where
  heard : Option Timeval
  now : Timeval

/-- The pauses of the loop. Its state is `lastrun`, which only the device moves. -/
def pauses : Machine Timeval Turn (BitVec 32) where
  step lastrun turn :=
    let lastrun := turn.heard.getD lastrun
    (lastrun, usleepArg lastrun turn.now)

theorem pauses_step (lastrun : Timeval) (turn : Turn) :
    pauses.step lastrun turn =
      (turn.heard.getD lastrun, usleepArg (turn.heard.getD lastrun) turn.now) := rfl

/-- **Runs of the loop.** The pauses of a run are all bounded exactly when no turn of it ends
with a silence that is counted as a positive rest. -/
theorem pauses_bounded_iff (lastrun : Timeval) (turns : List Turn) :
    (∀ taken ∈ pauses.trace lastrun turns, Bounded taken.output) ↔
      ∀ taken ∈ pauses.trace lastrun turns, Counted taken.after taken.event.now := by
  apply forall₂_congr
  intro taken member
  obtain ⟨before, turn, after, -, rfl⟩ := (pauses.mem_trace lastrun turns taken).mp member
  simp only [Machine.stepAt, pauses_step]
  exact usleepArg_bounded_iff _ turn.now

/-- A device that is heard at least every 35 minutes keeps the pauses short. -/
theorem pauses_bounded {lastrun : Timeval} {turns : List Turn}
    (heard : ∀ taken ∈ pauses.trace lastrun turns,
      0 ≤ silence taken.after taken.event.now ∧
        silence taken.after taken.event.now ≤ 35 * 60 * 1000000) :
    ∀ taken ∈ pauses.trace lastrun turns, Bounded taken.output := by
  rw [pauses_bounded_iff]
  intro taken member
  obtain ⟨later, often⟩ := heard taken member
  unfold Counted
  omega

end TsBat3

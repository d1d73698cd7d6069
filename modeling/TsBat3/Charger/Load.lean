import TsBat3.Core.State
import Mathlib.Logic.Function.Basic
import Mathlib.Tactic.SplitIfs

/-! # Charging

`doload` turns the state of the last reply into the one to request. On mains
power it charges until a fixed time, or until the recorded battery voltage has
been stable for a while. A call reports the branch it takes and what it does to
the voltage history.
-/

namespace TsBat3

/-- The period of the charging pulse. -/
def MAX_PWM_T : Word := 0x0200

/-- The least low time with the default current. -/
def MIN_PWM_T : Int := 0x0100

/-- The default target current. -/
def DEFTARGET : Int := 400

/-- Minutes after which a near voltage is stable. -/
def STABLE_TIME : Int := 15

def BIG_STEP : Int := 100

def SMALL_STEP : Int := 10

/-- The battery current in microamperes. -/
def battI (ticks : Word) : Int := (ticks.toNat - 29000) * 60

def changeled (state : Bat3) : Bat3 :=
  if state.led = .ON then { state with led := .OFF } else { state with led := .ON }

def switchOpamp (state : Bat3) (sw : OnOff) : Bat3 :=
  { state with opampEn := sw, pwm1en := sw, pwm2en := sw }

section Pwm

variable {F : Type}

/-- The low time for the next round. -/
def calcLoad (state : Bat3) (target : Action F) : Bat3 :=
  let diff := target.current - (battI state.batI).tdiv 1000
  let newpwm : Int := state.pwmLo.toNat
  let newpwm :=
    if diff > BIG_STEP then newpwm - 10
    else if diff < -BIG_STEP then newpwm + 10
    else if diff > SMALL_STEP then newpwm - 1
    else if diff < -SMALL_STEP then newpwm + 1
    else newpwm
  let newpwm :=
    if target.current = DEFTARGET then
      if newpwm < MIN_PWM_T then MIN_PWM_T else newpwm
    else if newpwm < 0 then 0 else newpwm
  let newpwm := if newpwm > state.pwmT.toNat then (state.pwmT.toNat : Int) else newpwm
  { state with pwmLo := .ofInt 16 newpwm }

/-- The change of the low time for a difference between target and current. -/
def correction (diff : Int) : Int :=
  if diff > BIG_STEP then -10
  else if diff < -BIG_STEP then 10
  else if diff > SMALL_STEP then -1
  else if diff < -SMALL_STEP then 1
  else 0

/-- The least low time for a target current. -/
def pwmFloor (current : Int) : Int := if current = DEFTARGET then MIN_PWM_T else 0

/-- The low time asked for before the bounds apply. -/
def wantedPwm (state : Bat3) (target : Action F) : Int :=
  state.pwmLo.toNat + correction (target.current - (battI state.batI).tdiv 1000)

/-- `newpwm`, as it is stored in the low time -/
def newpwm (state : Bat3) (target : Action F) : Int :=
  let diff := target.current - (battI state.batI).tdiv 1000
  let newpwm : Int := state.pwmLo.toNat
  let newpwm :=
    if diff > BIG_STEP then newpwm - 10
    else if diff < -BIG_STEP then newpwm + 10
    else if diff > SMALL_STEP then newpwm - 1
    else if diff < -SMALL_STEP then newpwm + 1
    else newpwm
  let newpwm :=
    if target.current = DEFTARGET then
      if newpwm < MIN_PWM_T then MIN_PWM_T else newpwm
    else if newpwm < 0 then 0 else newpwm
  if newpwm > state.pwmT.toNat then (state.pwmT.toNat : Int) else newpwm

theorem calcLoad_eq (state : Bat3) (target : Action F) :
    calcLoad state target = { state with pwmLo := .ofInt 16 (newpwm state target) } := rfl

/-- The floor applies before the ceiling, and the ceiling is the device's period. -/
theorem newpwm_eq (state : Bat3) (target : Action F) :
    newpwm state target =
      min (max (wantedPwm state target) (pwmFloor target.current)) state.pwmT.toNat := by
  have step (newpwm diff : Int) :
      (if diff > BIG_STEP then newpwm - 10
        else if diff < -BIG_STEP then newpwm + 10
        else if diff > SMALL_STEP then newpwm - 1
        else if diff < -SMALL_STEP then newpwm + 1
        else newpwm) = newpwm + correction diff := by
    unfold correction
    split_ifs
    · rfl
    · rfl
    · rfl
    · rfl
    · exact (add_zero newpwm).symm
  have floor (newpwm : Int) :
      (if target.current = DEFTARGET then if newpwm < MIN_PWM_T then MIN_PWM_T else newpwm
        else if newpwm < 0 then 0 else newpwm) = max newpwm (pwmFloor target.current) := by
    unfold pwmFloor
    split_ifs <;> omega
  have ceiling (newpwm period : Int) :
      (if newpwm > period then period else newpwm) = min newpwm period := by
    split_ifs <;> omega
  unfold newpwm wantedPwm
  dsimp only
  rw [step, floor, ceiling]

theorem pwmFloor_nonneg (current : Int) : 0 ≤ pwmFloor current := by
  unfold pwmFloor
  split <;> decide

/-- Storing the new low time in 16 bits loses nothing. -/
theorem calcLoad_stored (state : Bat3) (target : Action F) :
    ((calcLoad state target).pwmLo.toNat : Int) = newpwm state target := by
  have low : 0 ≤ newpwm state target := by
    rw [newpwm_eq]
    exact le_min (le_max_of_le_right (pwmFloor_nonneg _)) (Int.natCast_nonneg _)
  have high : newpwm state target < (2 ^ 16 : Nat) := by
    rw [newpwm_eq]
    exact (min_le_right _ _).trans_lt (Int.ofNat_lt.mpr state.pwmT.isLt)
  rw [calcLoad_eq, BitVec.toNat_ofInt, Int.emod_eq_of_lt low high, Int.toNat_of_nonneg low]

/-- **The new low time.** -/
theorem calcLoad_pwmLo (state : Bat3) (target : Action F) :
    ((calcLoad state target).pwmLo.toNat : Int) =
      min (max (wantedPwm state target) (pwmFloor target.current)) state.pwmT.toNat := by
  rw [calcLoad_stored, newpwm_eq]

end Pwm

/-- What a call does to the voltage history. -/
inductive Note (F : Type)
  /-- `process_first_degree` has appended a weight. `previous` is the weight before
  it in the history. -/
  | appended (newval : Int) (previous : Option F) (weight : F)
  /-- `check_stable` has set `stable_time`. -/
  | started (now : Time)
  /-- `stable_time` has been set to 0. -/
  | cleared
  /-- `reset_history` has emptied the history. -/
  | reset

section History

variable {F : Type}

def resetHistory (target : Action F) : Action F :=
  { target with alarm := 0, stableTime := 0, weightpos := 0 }

/-- The newest weight. -/
def Action.curr (target : Action F) : F := target.weight (target.weightpos - 1)

/-- The weight before the newest. -/
def Action.prev (target : Action F) : F := target.weight (target.weightpos - 2)

/-- The weight of a new value. -/
def newweight (ar : Arith F) (target : Action F) (newval : Int) : F :=
  if target.weightpos = 0 then ar.ofInt newval else ar.blend newval target.curr

/-- The array with its values moved to the front by one place. -/
def shift (weight : Nat → F) : Nat → F :=
  fun pos => if pos + 1 < MAXMIN then weight (pos + 1) else weight pos

/-- Append the weight of a new value to the history. A full history gives up its
oldest weight. -/
def processFirstDegree (ar : Arith F) (target : Action F) (newval : Int) : Action F :=
  let weightpos := target.weightpos + 1
  let (weight, weightpos) :=
    if weightpos = MAXMIN then (shift target.weight, weightpos - 1)
    else (target.weight, weightpos)
  { target with
    weight := Function.update weight (weightpos - 1) (newweight ar target newval)
    weightpos }

def Note.ofAppend (ar : Arith F) (target : Action F) (newval : Int) : Note F :=
  .appended newval (if target.weightpos = 0 then none else some target.curr)
    (newweight ar target newval)

/-- The result of `check_stable`. -/
structure Check (F : Type) where
  stable : Bool
  target : Action F
  notes : List (Note F)

/-- Whether the history has been stable for `STABLE_TIME`. The call starts or
clears the timer. -/
def checkStable (ar : Arith F) (now : Time) (target : Action F) : Check F :=
  if target.weightpos < 2 then { stable := false, target, notes := [] }
  else if ar.near target.curr target.prev then
    if target.stableTime = 0 then
      { stable := false, target := { target with stableTime := now }, notes := [.started now] }
    else
      { stable := decide (now - target.stableTime > STABLE_TIME * 60), target, notes := [] }
  else { stable := false, target := { target with stableTime := 0 }, notes := [.cleared] }

end History

/-- The readings of a clock that does not go back, in the order in which `doload`
can take them. -/
structure Clock where
  /-- compared with the deadline or the alarm -/
  entry : Time
  /-- the new alarm -/
  record : Time
  /-- in `check_stable` before the voltage is recorded -/
  before : Time
  /-- in `check_stable` behind it -/
  after : Time
  /-- compared with the time of a day -/
  day : Time
  entry_le : entry ≤ record
  record_le : record ≤ before
  before_le : before ≤ after
  after_le : after ≤ day

/-- A clock that stands still during a call. -/
def Clock.still (now : Time) : Clock := ⟨now, now, now, now, now, le_rfl, le_rfl, le_rfl, le_rfl⟩

/-- Where a call of `doload` has gone. -/
inductive Branch
  | battery
  | timeReached
  | timed
  | stable
  | charging
deriving DecidableEq, Repr

/-- The result of `doload`. -/
structure Load (F : Type) where
  state : Bat3
  target : Action F
  branch : Branch
  notes : List (Note F)

section Doload

variable {F : Type} (ar : Arith F) (now : Clock)

/-- The branch on batteries. -/
def loadBattery (state : Bat3) (target : Action F) : Load F where
  state := { switchOpamp state .OFF with buckEn := .OFF, offsetEn := .OFF }
  target := resetHistory target
  branch := .battery
  notes := [.reset]

/-- The assignments that all charging ends with. -/
def loading (state : Bat3) : Bat3 :=
  { state with buckEn := .OFF, offsetEn := .OFF, pwmT := MAX_PWM_T }

/-- The branch with an end time. -/
def loadTimed (state : Bat3) (target : Action F) : Load F :=
  if target.hours < now.entry then
    { state := switchOpamp state .OFF, target, branch := .timeReached, notes := [] }
  else
    { state := loading (switchOpamp (calcLoad state target) .ON)
      target
      branch := .timed
      notes := [] }

/-- Record the battery voltage when the alarm is due, unless the history has been
stable. -/
def record (batU : Word) (target : Action F) : Action F × List (Note F) :=
  if target.alarm ≤ now.entry then
    let target := { target with alarm := now.record + 1 }
    let check := checkStable ar now.before target
    if check.stable then (check.target, check.notes)
    else
      (processFirstDegree ar check.target batU.toNat,
        check.notes ++ [.ofAppend ar check.target batU.toNat])
  else (target, [])

/-- The second check of the history. -/
def recheck (batU : Word) (target : Action F) : Check F :=
  checkStable ar now.after (record ar now batU target).1

/-- The branch without an end time. -/
def loadStable (state : Bat3) (target : Action F) : Load F :=
  let check := recheck ar now state.batU target
  let notes := (record ar now state.batU target).2 ++ check.notes
  if check.stable ∧ now.day - check.target.stableTime < 24 * 60 * 60 then
    { state := if state.opampEn = .ON then switchOpamp state .OFF else state
      target := check.target
      branch := .stable
      notes }
  else
    let state := calcLoad state check.target
    let state := if state.opampEn = .OFF then switchOpamp state .ON else state
    { state := loading state, target := check.target, branch := .charging, notes }

/-- Soft JP3 goes off whatever the branch. -/
def softJP3Off (state : Bat3) : Bat3 :=
  if state.softJP3 = .ON then { state with softJP3 := .OFF } else state

def doload (state : Bat3) (target : Action F) : Load F :=
  if state.batRun = .ON then loadBattery (softJP3Off state) target
  else if target.hours ≠ 0 then loadTimed now (softJP3Off state) target
  else loadStable ar now (softJP3Off state) target

theorem softJP3Off_eq (state : Bat3) : softJP3Off state = { state with softJP3 := .OFF } := by
  unfold softJP3Off
  cases jumper : state.softJP3 with
  | ON => rfl
  | OFF => rw [if_neg OnOff.noConfusion, ← jumper]

variable {ar now} {state : Bat3} {target : Action F}

/-- **What a call does**: one of three branches on the state without soft JP3. -/
theorem doload_cases (ar : Arith F) (now : Clock) (state : Bat3) (target : Action F) :
    (state.batRun = .ON ∧
      doload ar now state target = loadBattery (softJP3Off state) target) ∨
    (state.batRun = .OFF ∧ target.hours ≠ 0 ∧
      doload ar now state target = loadTimed now (softJP3Off state) target) ∨
    (state.batRun = .OFF ∧ target.hours = 0 ∧
      doload ar now state target = loadStable ar now (softJP3Off state) target) := by
  unfold doload
  cases running : state.batRun with
  | ON => exact Or.inl ⟨rfl, if_pos rfl⟩
  | OFF =>
      rw [if_neg OnOff.noConfusion]
      by_cases endless : target.hours = 0
      · exact Or.inr (Or.inr ⟨rfl, endless, if_neg (not_not_intro endless)⟩)
      · exact Or.inr (Or.inl ⟨rfl, endless, if_pos endless⟩)

/-- A check changes the timer alone. -/
theorem checkStable_target (ar : Arith F) (now : Time) (target : Action F) :
    ∃ stableTime, (checkStable ar now target).target = { target with stableTime } := by
  unfold checkStable
  split
  · exact ⟨target.stableTime, rfl⟩
  split
  · split
    · exact ⟨now, rfl⟩
    · exact ⟨target.stableTime, rfl⟩
  · exact ⟨0, rfl⟩

/-- The parameters that charging leaves as they are: all but the history's. -/
def Action.SameOptions (target next : Action F) : Prop :=
  ∃ weight weightpos alarm stableTime,
    next = { target with weight, weightpos, alarm, stableTime }

theorem Action.SameOptions.trans {first second third : Action F} (left : first.SameOptions second)
    (right : second.SameOptions third) : first.SameOptions third := by
  obtain ⟨_, _, _, _, rfl⟩ := left
  obtain ⟨weight, weightpos, alarm, stableTime, rfl⟩ := right
  exact ⟨weight, weightpos, alarm, stableTime, rfl⟩

theorem sameOptions_checkStable (ar : Arith F) (now : Time) (target : Action F) :
    target.SameOptions (checkStable ar now target).target := by
  obtain ⟨stableTime, checked⟩ := checkStable_target ar now target
  rw [checked]
  exact ⟨target.weight, target.weightpos, target.alarm, stableTime, rfl⟩

theorem sameOptions_record (ar : Arith F) (now : Clock) (batU : Word) (target : Action F) :
    target.SameOptions (record ar now batU target).1 := by
  unfold record
  split
  · have checked := sameOptions_checkStable ar now.before { target with alarm := now.record + 1 }
    have alarmed : target.SameOptions { target with alarm := now.record + 1 } := ⟨_, _, _, _, rfl⟩
    dsimp only
    split
    · exact alarmed.trans checked
    · exact (alarmed.trans checked).trans ⟨_, _, _, _, rfl⟩
  · exact ⟨_, _, _, _, rfl⟩

theorem sameOptions_recheck (ar : Arith F) (now : Clock) (batU : Word) (target : Action F) :
    target.SameOptions (recheck ar now batU target).target :=
  (sameOptions_record ar now batU target).trans (sameOptions_checkStable ar now.after _)

/-- With an end time the history stays as it is. -/
theorem loadTimed_target (now : Clock) (state : Bat3) (target : Action F) :
    (loadTimed now state target).target = target ∧ (loadTimed now state target).notes = [] := by
  unfold loadTimed
  split
  · exact ⟨rfl, rfl⟩
  · exact ⟨rfl, rfl⟩

/-- Without an end time the history is recorded and checked on either branch. -/
theorem loadStable_target (ar : Arith F) (now : Clock) (state : Bat3) (target : Action F) :
    (loadStable ar now state target).target = (recheck ar now state.batU target).target ∧
      (loadStable ar now state target).notes =
        (record ar now state.batU target).2 ++ (recheck ar now state.batU target).notes := by
  unfold loadStable
  dsimp only
  split
  · exact ⟨rfl, rfl⟩
  · exact ⟨rfl, rfl⟩

/-- A call leaves the options as they are. -/
theorem sameOptions_doload (ar : Arith F) (now : Clock) (state : Bat3) (target : Action F) :
    target.SameOptions (doload ar now state target).target := by
  rcases doload_cases ar now state target with ⟨_, taken⟩ | ⟨_, _, taken⟩ | ⟨_, _, taken⟩
  · rw [taken]
    exact ⟨_, _, _, _, rfl⟩
  · rw [taken, (loadTimed_target now _ target).1]
    exact ⟨_, _, _, _, rfl⟩
  · rw [taken, (loadStable_target ar now _ target).1]
    exact sameOptions_recheck ar now _ target

/-- The fields of a state that are about the EEPROM. -/
def Bat3.rom (state : Bat3) : Byte × Byte × OnOff × OnOff :=
  (state.eeAddr, state.eeData, state.eeRead, state.eeWrite)

/-- Charging leaves the EEPROM's fields as they are. -/
theorem rom_doload (ar : Arith F) (now : Clock) (state : Bat3) (target : Action F) :
    (doload ar now state target).state.rom = state.rom := by
  have quiet : (softJP3Off state).rom = state.rom := by
    rw [softJP3Off_eq]
    rfl
  rw [← quiet]
  rcases doload_cases ar now state target with ⟨_, taken⟩ | ⟨_, _, taken⟩ | ⟨_, _, taken⟩
  · rw [taken]
    rfl
  · rw [taken]
    unfold loadTimed
    split
    · rfl
    · rfl
  · rw [taken]
    unfold loadStable
    dsimp only
    split
    · change (if _ then _ else _ : Bat3).rom = _
      split
      · rfl
      · rfl
    · change (if _ then _ else _ : Bat3).rom = _
      split
      · rfl
      · rfl

/-- The state in which a call has charged: the period is `MAX_PWM_T` and the low
time is the one that `calc_load` computes. -/
def Charged (state : Bat3) (target : Action F) (loaded : Bat3) : Prop :=
  loaded.pwmT = MAX_PWM_T ∧ (loaded.pwmLo.toNat : Int) =
    min (max (wantedPwm state target) (pwmFloor target.current)) state.pwmT.toNat

theorem charged_loadTimed (on : (loadTimed now state target).state.opampEn = .ON) :
    Charged state target (loadTimed now state target).state := by
  unfold loadTimed at on ⊢
  by_cases reached : target.hours < now.entry
  · rw [if_pos reached] at on
    exact OnOff.noConfusion on
  · rw [if_neg reached]
    exact ⟨rfl, calcLoad_pwmLo state target⟩

theorem charged_loadStable (on : (loadStable ar now state target).state.opampEn = .ON) :
    Charged state target (loadStable ar now state target).state := by
  unfold loadStable at on ⊢
  dsimp only at on ⊢
  split at on
  · -- the stable branch leaves the op-amp off
    change (if state.opampEn = .ON then switchOpamp state .OFF else state).opampEn = .ON at on
    by_cases opamp : state.opampEn = .ON
    · rw [if_pos opamp] at on
      exact OnOff.noConfusion on
    · rw [if_neg opamp] at on
      exact absurd on opamp
  · rename_i unstable
    rw [if_neg unstable]
    have low := calcLoad_pwmLo state (recheck ar now state.batU target).target
    have current : (recheck ar now state.batU target).target.current = target.current := by
      obtain ⟨_, _, _, _, same⟩ := sameOptions_recheck ar now state.batU target
      rw [same]
    have wanted : wantedPwm state (recheck ar now state.batU target).target =
        wantedPwm state target := by
      unfold wantedPwm
      rw [current]
    rw [wanted, current] at low
    refine ⟨rfl, Eq.trans ?_ low⟩
    change ((if _ then _ else _ : Bat3).pwmLo.toNat : Int) = _
    split
    · rfl
    · rfl

/-- **Charging.** Whenever a call leaves the op-amp on, it has charged. -/
theorem charged_doload (on : (doload ar now state target).state.opampEn = .ON) :
    Charged state target (doload ar now state target).state := by
  have same : Charged (softJP3Off state) target = Charged state target := by
    rw [softJP3Off_eq]
    rfl
  rw [← same]
  rcases doload_cases ar now state target with
    ⟨_, taken⟩ | ⟨_, _, taken⟩ | ⟨_, _, taken⟩
  · rw [taken] at on
    exact OnOff.noConfusion on
  · rw [taken] at on ⊢
    exact charged_loadTimed on
  · rw [taken] at on ⊢
    exact charged_loadStable on

end Doload

end TsBat3

import TsBat3.Charger.Params
import TsBat3.Charger.Load

/-! # The charging enables

The op-amp and the two pulse outputs belong together, and the branches on batteries
and with an end time switch all three. The branch without an end time switches them
only when the op-amp is not yet as it should be, and then trusts the pulse outputs
to be like the op-amp.
-/

namespace TsBat3

/-- How a branch is meant to leave the enables: on when it charges, off otherwise. -/
def Branch.switch : Branch → OnOff
  | .battery | .timeReached | .stable => .OFF
  | .timed | .charging => .ON

/-- The state has all three enables at a position. -/
def Bat3.Enabled (state : Bat3) (sw : OnOff) : Prop :=
  state.opampEn = sw ∧ state.pwm1en = sw ∧ state.pwm2en = sw

instance (state : Bat3) (sw : OnOff) : Decidable (state.Enabled sw) :=
  inferInstanceAs (Decidable (_ ∧ _ ∧ _))

/-- A call leaves the enables as it has decided. -/
def EnablesFollow {F : Type} (load : Load F) : Prop := load.state.Enabled load.branch.switch

/-- What the voltage history asks for: off while it has been stable for less than a
day, and on otherwise. -/
def historySwitch {F : Type} (ar : Arith F) (now : Clock) (batU : Word) (target : Action F) :
    OnOff :=
  let check := recheck ar now batU target
  if check.stable ∧ now.day - check.target.stableTime < 24 * 60 * 60 then .OFF else .ON

/-- The pulse outputs are like the op-amp when that is as the history asks. -/
def PulsesFollow {F : Type} (ar : Arith F) (now : Clock) (state : Bat3) (target : Action F) :
    Prop :=
  state.opampEn = historySwitch ar now state.batU target → state.Enabled state.opampEn

section Enables

variable {F : Type}

theorem enabled_switchOpamp (state : Bat3) (sw : OnOff) : (switchOpamp state sw).Enabled sw :=
  ⟨rfl, rfl, rfl⟩

/-- The branches with an end time switch all three. -/
theorem follow_loadTimed (now : Clock) (state : Bat3) (target : Action F) :
    EnablesFollow (loadTimed now state target) := by
  unfold loadTimed
  split
  · exact enabled_switchOpamp state .OFF
  · exact enabled_switchOpamp (calcLoad state target) .ON

/-- Switching all three when the op-amp is not at a position takes them there exactly
when the pulse outputs follow the op-amp that is there already. -/
theorem enabled_switchUnless (state : Bat3) (sw : OnOff) :
    (if state.opampEn = sw then state else switchOpamp state sw).Enabled sw ↔
      (state.opampEn = sw → state.Enabled state.opampEn) := by
  by_cases there : state.opampEn = sw
  · rw [if_pos there, there]
    exact ⟨fun enabled _ => enabled, fun follow => follow rfl⟩
  · rw [if_neg there]
    exact ⟨fun _ same => absurd same there, fun _ => enabled_switchOpamp state sw⟩

/-- The branches without an end time leave all three as decided exactly when the
pulse outputs follow. -/
theorem follow_loadStable (ar : Arith F) (now : Clock) (state : Bat3) (target : Action F) :
    EnablesFollow (loadStable ar now state target) ↔ PulsesFollow ar now state target := by
  unfold loadStable PulsesFollow historySwitch
  dsimp only
  split
  · have switched : (if state.opampEn = .ON then switchOpamp state .OFF else state) =
        if state.opampEn = .OFF then state else switchOpamp state .OFF := by
      cases state.opampEn <;> rfl
    rw [switched]
    exact enabled_switchUnless state .OFF
  · generalize (recheck ar now state.batU target).target = checked
    have switched : (if (calcLoad state checked).opampEn = .OFF then
          switchOpamp (calcLoad state checked) .ON else calcLoad state checked) =
        if (calcLoad state checked).opampEn = .ON then calcLoad state checked
        else switchOpamp (calcLoad state checked) .ON := by
      cases (calcLoad state checked).opampEn <;> rfl
    rw [switched]
    exact enabled_switchUnless (calcLoad state checked) .ON

/-- **The enables move together** exactly when, on mains power and without an end
time, the pulse outputs are like the op-amp where that is as the history asks. -/
theorem enables_follow_iff (ar : Arith F) (now : Clock) (state : Bat3) (target : Action F) :
    EnablesFollow (doload ar now state target) ↔
      (state.batRun = .OFF → target.hours = 0 → PulsesFollow ar now state target) := by
  rcases doload_cases ar now state target with ⟨battery, taken⟩ | ⟨_, timed, taken⟩ |
    ⟨mains, endless, taken⟩
  · rw [taken]
    refine ⟨fun _ mains => OnOff.noConfusion (battery.symm.trans mains), fun _ => ?_⟩
    exact enabled_switchOpamp (softJP3Off state) .OFF
  · rw [taken]
    exact ⟨fun _ _ endless => absurd endless timed, fun _ => follow_loadTimed now _ target⟩
  · have same :
        PulsesFollow ar now (softJP3Off state) target = PulsesFollow ar now state target := by
      rw [softJP3Off_eq]
      rfl
    rw [taken, follow_loadStable, same]
    exact ⟨fun follow _ _ => follow, fun follow => follow mains endless⟩

end Enables

/-- A charger that finds the op-amp on and a pulse output off leaves it off. -/
theorem pulse_stays_off :
    ¬ ∀ (now : Clock) (state : Bat3) (target : Action ℚ),
      EnablesFollow (doload Arith.exact now state target) := by
  intro follow
  have followed := follow (.still 1000) { Bat3.blank with opampEn := .ON }
    (setHours 0 (startParams 0 []) (-1))
  have pulse : (doload Arith.exact (.still 1000) { Bat3.blank with opampEn := .ON }
      (setHours 0 (startParams 0 []) (-1))).state.pwm1en = .OFF := by decide +kernel
  have branch : (doload Arith.exact (.still 1000) { Bat3.blank with opampEn := .ON }
      (setHours 0 (startParams 0 []) (-1))).branch = .charging := by decide +kernel
  have on := followed.2.1
  rw [pulse, branch] at on
  exact OnOff.noConfusion on

end TsBat3

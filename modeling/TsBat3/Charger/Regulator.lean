import TsBat3.Charger.Load
import TsBat3.Charger.Params

/-! # The current regulator

A call of `calc_load` moves the low time against the measured current. More current never asks
for less low time, and while the low time lies between its floor and the device's period it is
moved by little, never out of these bounds, and never the wrong way.
-/

namespace TsBat3

/-- The measured current in mA, as `calc_load` compares it with the target. -/
def measured (state : Bat3) : Int := (battI state.batI).tdiv 1000

private theorem battI_le {low high : Word} (ordered : low ≤ high) : battI low ≤ battI high := by
  have ticks : low.toNat ≤ high.toNat := ordered
  unfold battI
  omega

/-- The further the current is below its target, the lower is the low time. -/
theorem correction_le {low high : Int} (ordered : low ≤ high) :
    correction high ≤ correction low := by
  unfold correction BIG_STEP SMALL_STEP
  split_ifs <;> omega

section Regulator

variable {F : Type}

theorem wantedPwm_eq (state : Bat3) (target : Action F) :
    wantedPwm state target =
      state.pwmLo.toNat + correction (target.current - measured state) := rfl

/-- More current does not ask for less low time. -/
theorem wantedPwm_le (state : Bat3) (target : Action F) {low high : Word} (ordered : low ≤ high) :
    wantedPwm { state with batI := low } target ≤ wantedPwm { state with batI := high } target := by
  have current : (battI low).tdiv 1000 ≤ (battI high).tdiv 1000 :=
    Int.tdiv_le_tdiv (by decide) (battI_le ordered)
  exact add_le_add_right (correction_le (Int.sub_le_sub_left current _)) _

private theorem calcLoad_le (state : Bat3) (target : Action F) {low high : Word}
    (ordered : low ≤ high) :
    (calcLoad { state with batI := low } target).pwmLo ≤
      (calcLoad { state with batI := high } target).pwmLo := by
  have wanted := wantedPwm_le state target ordered
  apply BitVec.le_def.mpr
  apply Int.ofNat_le.mp
  rw [calcLoad_pwmLo, calcLoad_pwmLo]
  exact min_le_min_right _ (max_le_max_right _ wanted)

/-- What a call does to a low time between its floor and the device's period. -/
structure Regulated (state : Bat3) (target : Action F) : Prop where
  stored : ((calcLoad state target).pwmLo.toNat : Int) = newpwm state target
  floor_le : pwmFloor target.current ≤ (calcLoad state target).pwmLo.toNat
  le_period : (calcLoad state target).pwmLo ≤ state.pwmT
  slow : (state.pwmLo.toNat : Int) - 10 ≤ (calcLoad state target).pwmLo.toNat ∧
    ((calcLoad state target).pwmLo.toNat : Int) ≤ state.pwmLo.toNat + 10
  below : measured state < target.current - 10 →
    (state.pwmLo.toNat : Int) ≠ pwmFloor target.current →
      (calcLoad state target).pwmLo < state.pwmLo
  above : target.current + 10 < measured state → state.pwmLo ≠ state.pwmT →
    state.pwmLo < (calcLoad state target).pwmLo
  steady : target.current - 10 ≤ measured state → measured state ≤ target.current + 10 →
    (calcLoad state target).pwmLo = state.pwmLo

/-- The correction has the sign of the difference when that is more than 10 mA. -/
theorem correction_spec (diff : Int) :
    (-10 ≤ correction diff ∧ correction diff ≤ 10) ∧ (10 < diff → correction diff < 0) ∧
      (diff < -10 → 0 < correction diff) ∧ (-10 ≤ diff → diff ≤ 10 → correction diff = 0) := by
  unfold correction BIG_STEP SMALL_STEP
  split_ifs <;> omega

theorem regulated {state : Bat3} {target : Action F}
    (floored : pwmFloor target.current ≤ state.pwmLo.toNat) (capped : state.pwmLo ≤ state.pwmT) :
    Regulated state target := by
  have new := calcLoad_pwmLo state target
  rw [wantedPwm_eq] at new
  obtain ⟨slow, below, above, steady⟩ := correction_spec (target.current - measured state)
  generalize correction (target.current - measured state) = moved at *
  rw [BitVec.le_def] at capped
  refine ⟨calcLoad_stored state target, ?_, ?_, ?_, ?_, ?_, ?_⟩
  · omega
  · rw [BitVec.le_def]
    omega
  · omega
  · intro low other
    have down := below (by omega)
    rw [BitVec.lt_def]
    omega
  · intro high other
    have up := above (by omega)
    have room := BitVec.toNat_ne.mp other
    rw [BitVec.lt_def]
    omega
  · intro low high
    have same := steady (by omega) (by omega)
    apply BitVec.eq_of_toNat_eq
    omega

/-- **The regulator** is monotone, and never steers the wrong way. -/
theorem calcLoad_regulates (state : Bat3) (target : Action F) :
    (∀ low high : Word, low ≤ high →
      (calcLoad { state with batI := low } target).pwmLo ≤
        (calcLoad { state with batI := high } target).pwmLo) ∧
    (pwmFloor target.current ≤ state.pwmLo.toNat → state.pwmLo ≤ state.pwmT →
      Regulated state target) :=
  ⟨fun _ _ ordered => calcLoad_le state target ordered, regulated⟩

end Regulator

/-- A measured current of 60 mA with the default target. -/
theorem calcLoad_regulates_default :
    let state := { Bat3.blank with batI := 30000, pwmLo := 0x150, pwmT := 0x200 }
    let target : Action Int := initParams (staticParams 0)
    (calcLoad { state with batI := 29000 } target).pwmLo ≤
        (calcLoad { state with batI := 30000 } target).pwmLo ∧
      Regulated state target :=
  ⟨(calcLoad_regulates _ _).1 29000 30000 (by decide),
    (calcLoad_regulates _ _).2 (by decide) (by decide)⟩

end TsBat3

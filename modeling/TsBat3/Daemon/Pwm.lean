import TsBat3.Daemon.Round

/-! # The pulse of a charging request

A request that charges asks for the period `MAX_PWM_T`, with a low time that is
bounded from below by a floor and from above by the period that the device
reported. It is safe exactly when that period is neither too long for the low time
nor, with the default current, too short for the floor.
-/

namespace TsBat3

/-- The low time of a charging request fits its period and, with the default current,
does not overcharge the battery. -/
def PwmSafe (request : BAT3request) (current : Int) : Prop :=
  request.pwmLo.toNat ≤ request.pwmT.toNat ∧ request.pwmT = 0x200 ∧
    (current = 400 → 0x100 ≤ request.pwmLo.toNat)

/-- The reported period bounds the low time as the new period does. -/
def PwmBounded {F : Type} (sample : Bat3) (params : Action F) : Prop :=
  (sample.pwmT.toNat ≤ 0x200 ∨ wantedPwm sample params ≤ 0x200) ∧
    (params.current = 400 → 0x100 ≤ sample.pwmT.toNat)

section Pwm

variable {F : Type}

/-- A state that has been charged makes a safe request exactly when the reported
period was right. -/
theorem pwmSafe_of_charged {sample loaded : Bat3} {params : Action F}
    (charged : Charged sample params loaded) (req : BAT3request) :
    PwmSafe (encodeRequest req loaded) params.current ↔ PwmBounded sample params := by
  obtain ⟨period, low⟩ := charged
  have full : loaded.pwmT.toNat = 512 := by
    rw [period]
    rfl
  change loaded.pwmLo.toNat ≤ loaded.pwmT.toNat ∧ loaded.pwmT = 0x200 ∧
    (params.current = 400 → 0x100 ≤ loaded.pwmLo.toNat) ↔ _
  rw [full]
  unfold PwmBounded
  by_cases default : params.current = 400
  · have floor : pwmFloor params.current = 256 := if_pos default
    rw [floor] at low
    simp only [default, true_implies]
    constructor
    · rintro ⟨fits, _, enough⟩
      omega
    · rintro ⟨fits, enough⟩
      exact ⟨by omega, period, by omega⟩
  · have floor : pwmFloor params.current = 0 := if_neg default
    rw [floor] at low
    simp only [default, false_implies, and_true]
    constructor
    · rintro ⟨fits, _⟩
      omega
    · rintro fits
      exact ⟨by omega, period⟩

/-- **PWM safety.** In every run, a request with the op-amp on is safe exactly when
the period of the sample it was made of was right. -/
theorem pwmSafe_iff (ar : Arith F) (start : Daemon F) (events : List DaemonEvent) :
    ∀ taken ∈ (daemon ar).trace start events, ∀ round, taken.output = some round →
      round.request.outputs.opampEn = true →
        (PwmSafe round.request taken.before.params.current ↔
          PwmBounded taken.before.state taken.before.params) := by
  refine (daemon ar).forall_mem_trace (fun state event round made on => ?_) start events
  obtain ⟨now, msg, reads, _, same, _⟩ := daemon_round made
  rw [same, request_doRound] at on ⊢
  have lit : (prepare ar now (eeprom state).2 state.params).state.opampEn = .ON := by
    change ((prepare ar now (eeprom state).2 state.params).state.opampEn == OnOff.ON) = true at on
    exact eq_of_beq on
  have bounded :
      PwmBounded (eeprom state).2 state.params ↔ PwmBounded state.state state.params := by
    have framed := eeprom_frame (fun sample => (sample.pwmLo, sample.pwmT, sample.batI))
      (fun _ _ _ _ _ => rfl) state
    simp only [Prod.mk.injEq] at framed
    obtain ⟨low, period, current⟩ := framed
    unfold PwmBounded wantedPwm
    rw [low, period, current]
  change PwmSafe _ state.params.current ↔ PwmBounded state.state state.params
  rw [← bounded]
  exact pwmSafe_of_charged (charged_prepare lit) _

end Pwm

/-- The parameters are those at the start, with the end time taken back. -/
def chargingStart (sample : Bat3) : Daemon ℚ :=
  runCommand (startDaemon 0 [] sample) (.hours 0 (some (-1)))

/-- The round of a daemon at a clock that stands still, on a silent line. -/
def silentRound (start : Daemon ℚ) (now : Time) : Round ℚ :=
  (doRound Arith.exact (.still now) [] [] (eeprom start).2 start.params).1

/-- With the usual period the request is safe. -/
theorem pwmSafe_usual :
    PwmSafe (silentRound (chargingStart { Bat3.blank with pwmT := 0x200 }) 1000).request 400 :=
  (pwmSafe_iff Arith.exact (chargingStart { Bat3.blank with pwmT := 0x200 })
    [.round (.still 1000) [] []] _ List.mem_cons_self _ rfl (by decide +kernel)).mpr
      ⟨Or.inl (by decide), fun _ => by decide⟩

/-- After a device reset the first charging request asks for a low time of 0. -/
theorem pwm_unsafe_after_reset :
    ¬ ∀ (start : Daemon ℚ) (events : List DaemonEvent),
      ∀ taken ∈ (daemon Arith.exact).trace start events, ∀ round, taken.output = some round →
        round.request.outputs.opampEn = true →
          PwmSafe round.request taken.before.params.current := by
  intro safe
  have asked := safe (chargingStart .blank) [.round (.still 1000) [] []] _ List.mem_cons_self
    (silentRound (chargingStart .blank) 1000) rfl (by decide +kernel)
  have low : (silentRound (chargingStart .blank) 1000).request.pwmLo.toNat = 0 := by decide +kernel
  have enough := asked.2.2 rfl
  rw [low] at enough
  exact absurd enough (by decide)

end TsBat3

import TsBat3.Foundation.Bisection
import TsBat3.Vendor.Charge
import Mathlib.Tactic.SplitIfs

/-! # The search for the low time

The vendor's charging daemon asks for no low time beyond its period, whatever the commands and
the currents, as long as the device goes on with the low time last asked for. Ten turns of a
search that nothing disturbs end it; when more low time means less current, it ends at the place
at which the current falls to the target.
-/

namespace TsBat3

section Search

variable {state : BAT3chargeState} {req : BAT3request} {rep : BAT3reply}

/-- The window of the search. -/
def BAT3chargeState.window (state : BAT3chargeState) : SearchWindow where
  lo := state.lockLo.toNat
  hi := state.lockHi.toNat

/-- The search has a window that has not been tested yet. -/
def BAT3chargeState.Fresh (state : BAT3chargeState) : Prop :=
  state.locked = false ∧ state.lockHi = 501 ∧ state.lockLo = 0

instance : Decidable state.Fresh := inferInstanceAs (Decidable (_ ∧ _))

/-! ### What a turn does to the search -/

/-- The window is as it was, and the search is not ended. -/
structure Kept (state next : BAT3chargeState) : Prop where
  lockMax : next.lockMax = state.lockMax
  lockHi : next.lockHi = state.lockHi
  lockLo : next.lockLo = state.lockLo
  locked : next.locked = true → state.locked = true

theorem Kept.refl (state : BAT3chargeState) : Kept state state := ⟨rfl, rfl, rfl, id⟩

theorem Kept.trans {next last : BAT3chargeState} (first : Kept state next)
    (second : Kept next last) : Kept state last where
  lockMax := second.lockMax.trans first.lockMax
  lockHi := second.lockHi.trans first.lockHi
  lockLo := second.lockLo.trans first.lockLo
  locked := first.locked ∘ second.locked

theorem Kept.unlocked {next : BAT3chargeState} (kept : Kept state next)
    (unlocked : state.locked = false) : next.locked = false := by
  rw [← Bool.not_eq_true]
  intro locked
  exact Bool.false_ne_true (unlocked.symm.trans (kept.locked locked))

theorem Kept.window {next : BAT3chargeState} (kept : Kept state next) :
    next.window = state.window := by
  unfold BAT3chargeState.window
  rw [kept.lockHi, kept.lockLo]

/-- The search is begun anew. -/
structure Renewed (state next : BAT3chargeState) : Prop where
  lockMax : next.lockMax = state.lockMax
  lockHi : next.lockHi = state.lockMax + 1
  lockLo : next.lockLo = 0
  locked : next.locked = false

theorem Renewed.kept {next last : BAT3chargeState} (renewed : Renewed state next)
    (kept : Kept next last) : Renewed state last where
  lockMax := kept.lockMax.trans renewed.lockMax
  lockHi := kept.lockHi.trans renewed.lockHi
  lockLo := kept.lockLo.trans renewed.lockLo
  locked := kept.unlocked renewed.locked

/-- The current that a command asks for, in mA. -/
def BAT3UDPcommand.target : BAT3UDPcommand → Option Int
  | .cmd3 targetI => some targetI
  | .cmd4 targetI _ _ => some targetI
  | _ => none

/-- No command asks for a current that is far from the one looked for. -/
def Near (state : BAT3chargeState) (command : Option BAT3UDPcommand) : Prop :=
  ∀ targetI ∈ command.bind BAT3UDPcommand.target, |state.targetI - targetI * 1000| ≤ 3000

instance (state : BAT3chargeState) (command : Option BAT3UDPcommand) :
    Decidable (Near state command) := inferInstanceAs (Decidable (∀ targetI ∈ _, _))

theorem retarget_cases (state : BAT3chargeState) (targetI : Int) :
    (|state.targetI - targetI * 1000| ≤ 3000 ∧ Kept state (retarget state targetI)) ∨
      (¬ |state.targetI - targetI * 1000| ≤ 3000 ∧ Renewed state (retarget state targetI)) := by
  unfold retarget
  split
  · rename_i far
    exact Or.inr ⟨not_le.mpr far, rfl, rfl, rfl, rfl⟩
  · rename_i near
    exact Or.inl ⟨not_lt.mp near, rfl, rfl, rfl, id⟩

/-- A command begins the search anew when it asks for a current far from the one looked for. -/
theorem command_cases (state : BAT3chargeState) (command : Option BAT3UDPcommand) :
    Kept state (BAT3UDPcommandCheck state command) ∨
      (¬ Near state command ∧ Renewed state (BAT3UDPcommandCheck state command)) := by
  have aimed (targetI : Int) (last : BAT3chargeState) (same : Kept (retarget state targetI) last)
      (asked : command.bind BAT3UDPcommand.target = some targetI) :
      Kept state last ∨ (¬ Near state command ∧ Renewed state last) := by
    rcases retarget_cases state targetI with ⟨-, kept⟩ | ⟨far, renewed⟩
    · exact Or.inl (kept.trans same)
    · exact Or.inr ⟨fun near => far (near targetI asked), renewed.kept same⟩
  cases command with
  | none => exact Or.inl (Kept.refl state)
  | some command =>
      cases command with
      | cmd1 socket => exact Or.inl ⟨rfl, rfl, rfl, id⟩
      | cmd2 => exact Or.inl ⟨rfl, rfl, rfl, id⟩
      | cmd3 targetI => exact aimed targetI _ ⟨rfl, rfl, rfl, id⟩ rfl
      | cmd4 targetI timeOn timeOff => exact aimed targetI _ ⟨rfl, rfl, rfl, id⟩ rfl
      | other => exact Or.inl (Kept.refl state)

private theorem kept_dutyTick (state : BAT3chargeState) : Kept state (dutyTick state) := by
  unfold dutyTick
  dsimp only
  split
  · split
    · split
      · exact ⟨rfl, rfl, rfl, id⟩
      · exact ⟨rfl, rfl, rfl, id⟩
    · exact ⟨rfl, rfl, rfl, id⟩
  · split
    · split
      · exact ⟨rfl, rfl, rfl, fun locked => absurd locked Bool.false_ne_true⟩
      · exact ⟨rfl, rfl, rfl, id⟩
    · exact ⟨rfl, rfl, rfl, id⟩

/-- The part of the duty cycle in a turn: a second that begins on the mains. -/
def duty (state : BAT3chargeState) (rep : BAT3reply) (t : Time) : BAT3chargeState :=
  if t ≠ state.lastT ∧ rep.outputs.batRun = false then dutyTick state else state

/-- The duty cycle does not look at the log. -/
theorem dutyTick_log (state : BAT3chargeState) (numSamples : Nat) (lastT : Time) :
    dutyTick { state with numSamples, lastT } = { dutyTick state with numSamples, lastT } := by
  unfold dutyTick
  dsimp only
  split
  · split
    · split
      · rfl
      · rfl
    · rfl
  · split
    · split
      · rfl
      · rfl
    · rfl

/-- What the clock does to a state but for the log is what the duty cycle does. -/
theorem nextSecond_spec (state : BAT3chargeState) (rep : BAT3reply) (t : Time) :
    ∃ numSamples, (nextSecond state rep t).1 =
      { duty state rep t with numSamples, lastT := t } := by
  have logged : ∃ numSamples info,
      (if state.numSamples > 0 then
        ({ state with numSamples := 0 },
          if state.txSocket > -1 then some (logInfo state rep) else none)
      else (state, none)) = (({ state with numSamples } : BAT3chargeState), info) := by
    split
    · exact ⟨_, _, rfl⟩
    · exact ⟨state.numSamples, none, rfl⟩
  obtain ⟨numSamples, info, logged⟩ := logged
  unfold nextSecond
  by_cases another : t ≠ state.lastT
  · refine ⟨numSamples, ?_⟩
    rw [if_pos another, logged]
    dsimp only
    cases running : rep.outputs.batRun with
    | true =>
        have still : duty state rep t = state := if_neg fun mains => by
          rw [running] at mains
          exact Bool.false_ne_true mains.2.symm
        rw [still]
        rfl
    | false =>
        have ticked : duty state rep t = dutyTick state := if_pos ⟨another, running⟩
        rw [ticked]
        exact dutyTick_log state numSamples t
  · have still : duty state rep t = state := if_neg fun begun => another begun.1
    refine ⟨state.numSamples, ?_⟩
    rw [if_neg another, still, not_not.mp another]

/-- Another sample changes the samples alone. -/
theorem addSample_eq (state : BAT3chargeState) (rep : BAT3reply) :
    ∃ pwm V I T numSamples, addSample state rep = { state with pwm, V, I, T, numSamples } := by
  unfold addSample
  split
  · exact ⟨_, _, _, _, _, rfl⟩
  · exact ⟨state.pwm, state.V, state.I, state.T, state.numSamples, rfl⟩

theorem log_spec (state : BAT3chargeState) (rep : BAT3reply) (t : Time) :
    ∃ pwm V I T numSamples, (BAT3UDPlogUpdate state rep t).1 =
      { duty state rep t with pwm, V, I, T, numSamples, lastT := t } := by
  obtain ⟨count, ticked⟩ := nextSecond_spec state rep t
  obtain ⟨pwm, V, I, T, numSamples, added⟩ := addSample_eq (nextSecond state rep t).1 rep
  refine ⟨pwm, V, I, T, numSamples, added.trans ?_⟩
  rw [ticked]

private theorem kept_log (state : BAT3chargeState) (rep : BAT3reply) (t : Time) :
    Kept state (BAT3UDPlogUpdate state rep t).1 := by
  obtain ⟨pwm, V, I, T, numSamples, logged⟩ := log_spec state rep t
  have ticked : Kept state (duty state rep t) := by
    unfold duty
    split
    · exact kept_dutyTick state
    · exact Kept.refl state
  rw [logged]
  exact ticked.trans ⟨rfl, rfl, rfl, id⟩

/-- Whatever a turn meets, the search goes on, or is begun anew by a command. -/
theorem listen_cases (state : BAT3chargeState) (event : ChargeEvent) :
    Kept state (listen state event).1 ∨
      (¬ Near state event.command ∧ Renewed state (listen state event).1) := by
  have logged := kept_log (BAT3UDPcommandCheck state event.command) event.rep event.t
  rcases command_cases state event.command with kept | ⟨far, renewed⟩
  · exact Or.inl (kept.trans logged)
  · exact Or.inr ⟨far, renewed.kept logged⟩

/-- Following the current leaves the search at its end, changes the low time by one at most, and
gives a target up at an end of the period only. -/
theorem regulate_spec (state : BAT3chargeState) (req : BAT3request) (rep : BAT3reply) :
    ∃ targetI pwmLo, regulate state req rep = ({ state with targetI }, { req with pwmLo }) ∧
      (targetI = state.targetI ∨ (targetI = 0 ∧ (req.pwmLo = 0 ∨ state.lockMax ≤ req.pwmLo))) ∧
      (pwmLo = req.pwmLo ∨ (req.pwmLo < state.lockMax ∧ pwmLo = req.pwmLo + 1) ∨
        (0 < req.pwmLo ∧ pwmLo = req.pwmLo - 1)) := by
  unfold regulate
  split
  · split
    · rename_i room
      exact ⟨state.targetI, _, rfl, Or.inl rfl, Or.inr (Or.inl ⟨room, rfl⟩)⟩
    · rename_i top
      exact ⟨0, req.pwmLo, rfl, Or.inr ⟨rfl, Or.inr (BitVec.not_lt.mp top)⟩, Or.inl rfl⟩
  split
  · split
    · rename_i room
      exact ⟨state.targetI, _, rfl, Or.inl rfl, Or.inr (Or.inr ⟨room, rfl⟩)⟩
    · rename_i bottom
      refine ⟨0, req.pwmLo, rfl, Or.inr ⟨rfl, Or.inl ?_⟩, Or.inl rfl⟩
      exact BitVec.le_zero_iff.mp (BitVec.not_lt.mp bottom)
  · exact ⟨state.targetI, req.pwmLo, rfl, Or.inl rfl, Or.inl rfl⟩

/-- What a reply leaves of a window within the period is within the period. -/
theorem tighten_within (req : BAT3request) (rep : BAT3reply) {period : Nat}
    (max : state.lockMax.toNat = period) (lo : state.lockLo.toNat ≤ period)
    (asked : state.lockHi ≤ state.lockMax → req.pwmLo.toNat ≤ period) :
    (tighten state req rep).lockLo.toNat ≤ period ∧
      (tighten state req rep).lockHi.toNat ≤ period := by
  unfold tighten
  split
  · exact ⟨lo, max.le⟩
  · rename_i begun
    have below : state.lockHi ≤ state.lockMax := BitVec.not_lt.mp begun
    have tested := asked below
    have hi : state.lockHi.toNat ≤ period := max ▸ BitVec.le_def.mp below
    split
    · exact ⟨tested, hi⟩
    · exact ⟨lo, tested⟩

theorem tighten_eq (state : BAT3chargeState) (req : BAT3request) (rep : BAT3reply) :
    ∃ lockHi lockLo, tighten state req rep = { state with lockHi, lockLo } := by
  unfold tighten
  split
  · exact ⟨_, state.lockLo, rfl⟩
  split
  · exact ⟨state.lockHi, _, rfl⟩
  · exact ⟨_, state.lockLo, rfl⟩

/-- The middle of a window of words is a word. -/
theorem mid_toNat (state : BAT3chargeState) :
    ((BitVec.ofInt 16 state.window.mid).toNat : Int) = state.window.mid := by
  have word (bound : Word) : (0 : Int) ≤ bound.toNat ∧ (bound.toNat : Int) ≤ 65535 := by
    have small := bound.isLt
    omega
  obtain ⟨nonneg, small⟩ : 0 ≤ state.window.mid ∧ state.window.mid ≤ 65535 :=
    SearchWindow.mid_within (word state.lockLo) (word state.lockHi)
  rw [BitVec.toNat_ofInt, Int.toNat_of_nonneg (Int.emod_nonneg _ (by decide))]
  apply Int.emod_eq_of_lt nonneg
  omega

/-- **A turn of the search**: it asks for the middle of the window that the reply leaves, and
ends when that is narrow. -/
theorem seek_spec (state : BAT3chargeState) (req : BAT3request) (rep : BAT3reply) :
    ∃ locked pwmLo, seek state req rep =
        ({ tighten state req rep with locked }, { req with pwmLo }) ∧
      (locked = true ↔ state.locked = true ∨ (tighten state req rep).window.Settled) ∧
      (pwmLo.toNat : Int) = (tighten state req rep).window.mid := by
  obtain ⟨lockHi, lockLo, left⟩ := tighten_eq state req rep
  have middle := mid_toNat (tighten state req rep)
  unfold seek
  rw [left] at middle ⊢
  by_cases settled : ({ state with lockHi, lockLo } : BAT3chargeState).window.Settled
  · exact ⟨true, _, Prod.ext (if_pos settled) rfl, iff_of_true rfl (Or.inr settled), middle⟩
  · refine ⟨state.locked, _, Prod.ext (if_neg settled) rfl, ?_, middle⟩
    exact ⟨Or.inl, fun ended => ended.resolve_right settled⟩

/-- The request of a turn but for the low time, which `regulate` and `seek` set. -/
theorem updatePwm_request (state : BAT3chargeState) (req : BAT3request) (rep : BAT3reply) :
    ∃ pwmLo, (updatePwm state req rep).2 = { enablePwm state req with pwmLo } := by
  unfold updatePwm
  dsimp only
  split
  · obtain ⟨targetI, pwmLo, followed, -⟩ := regulate_spec state (enablePwm state req) rep
    rw [followed]
    exact ⟨pwmLo, rfl⟩
  · obtain ⟨locked, pwmLo, sought, -⟩ := seek_spec state (enablePwm state req) rep
    rw [sought]
    exact ⟨pwmLo, rfl⟩

/-! ### Requests -/

/-- The window is within the period, and so is the low time, once the search has begun. -/
def BAT3chargeState.Within (state : BAT3chargeState) (pwmLo : Word) : Prop :=
  state.lockMax = 500 ∧ state.lockLo.toNat ≤ 500 ∧
    ((state.locked = false ∧ state.lockHi = 501) ∨
      (state.lockHi.toNat ≤ 500 ∧ pwmLo.toNat ≤ 500))

theorem BAT3chargeState.Within.listen {pwmLo : Word} {event : ChargeEvent}
    (within : state.Within pwmLo) (echo : state.Fresh ∨ event.rep.pwmLo = pwmLo) :
    (listen state event).1.Within event.rep.pwmLo := by
  obtain ⟨period, lo, begun⟩ := within
  rcases listen_cases state event with kept | ⟨-, renewed⟩
  swap
  · refine ⟨renewed.lockMax.trans period, ?_, Or.inl ⟨renewed.locked, ?_⟩⟩
    · rw [renewed.lockLo]
      decide
    · rw [renewed.lockHi, period]
      rfl
  refine ⟨kept.lockMax.trans period, kept.lockLo ▸ lo, ?_⟩
  rw [kept.lockHi]
  rcases begun with ⟨unlocked, top⟩ | ⟨below, asked⟩
  · exact Or.inl ⟨kept.unlocked unlocked, top⟩
  · refine Or.inr ⟨below, ?_⟩
    rcases echo with ⟨-, top, -⟩ | echo
    · rw [top] at below
      exact absurd below (by decide)
    · rw [echo]
      exact asked

theorem BAT3chargeState.Within.updatePwm (rep : BAT3reply) (within : state.Within req.pwmLo) :
    (updatePwm state req rep).1.lockMax = 500 ∧
      (updatePwm state req rep).1.lockLo.toNat ≤ 500 ∧
      (updatePwm state req rep).1.lockHi.toNat ≤ 500 ∧
      (updatePwm state req rep).2.pwmLo.toNat ≤ 500 := by
  obtain ⟨period, lo, begun⟩ := within
  unfold TsBat3.updatePwm
  dsimp only
  split
  · rename_i locked
    obtain ⟨below, asked⟩ := begun.resolve_left fun fresh => by
      rw [fresh.1] at locked
      exact Bool.false_ne_true locked
    obtain ⟨targetI, pwmLo, followed, -, near⟩ := regulate_spec state (enablePwm state req) rep
    rw [followed]
    refine ⟨period, lo, below, ?_⟩
    have before : (enablePwm state req).pwmLo = req.pwmLo := rfl
    rw [period, before] at near
    dsimp only
    rcases near with same | ⟨room, more⟩ | ⟨room, less⟩
    · rw [same]
      exact asked
    · bv_omega
    · bv_omega
  · rename_i seeking
    have unlocked : state.locked = false := Bool.eq_false_iff.mpr seeking
    obtain ⟨locked, pwmLo, sought, -, middle⟩ := seek_spec state (enablePwm state req) rep
    obtain ⟨lockHi, lockLo, left⟩ := tighten_eq state (enablePwm state req) rep
    obtain ⟨low, high⟩ := tighten_within (enablePwm state req) rep
      (congrArg BitVec.toNat period) lo fun started => by
        rcases begun with ⟨-, top⟩ | ⟨-, asked⟩
        · rw [top, period] at started
          exact absurd started (by decide)
        · exact asked
    have inside : 0 ≤ (tighten state (enablePwm state req) rep).window.mid ∧
        (tighten state (enablePwm state req) rep).window.mid ≤ 500 :=
      SearchWindow.mid_within ⟨Int.natCast_nonneg _, Int.ofNat_le.mpr low⟩
        ⟨Int.natCast_nonneg _, Int.ofNat_le.mpr high⟩
    rw [sought]
    refine ⟨?_, low, high, ?_⟩
    · rw [left]
      exact period
    · dsimp only
      omega

end Search

section Runs

variable (shutdelay : Int)

/-! ### Runs -/

/-- The reply and the request of a turn, in the state that they meet. -/
abbrev ChargeStep := Machine.Step ChargeLoop ChargeEvent ChargeTurn

theorem charge_state (loop : ChargeLoop) (event : ChargeEvent) :
    ((BAT3BatteryCharge shutdelay).step loop event).1.state =
      (updatePwm (listen loop.state event).1 (BAT3requestInitFromReply event.rep loop.req)
        event.rep).1 := rfl

theorem charge_req (loop : ChargeLoop) (event : ChargeEvent) :
    ((BAT3BatteryCharge shutdelay).step loop event).1.req =
      (updatePwm (listen loop.state event).1 (BAT3requestInitFromReply event.rep loop.req)
        event.rep).2 := rfl

theorem charge_request (loop : ChargeLoop) (event : ChargeEvent) :
    ((BAT3BatteryCharge shutdelay).step loop event).2.request =
      ((BAT3BatteryCharge shutdelay).step loop event).1.req := rfl

/-- Once the search has begun, the device goes on with the low time that was asked for. -/
def Echoes (taken : ChargeStep) : Prop :=
  taken.before.state.Fresh ∨ taken.event.rep.pwmLo = taken.before.req.pwmLo

instance : DecidablePred Echoes := fun _ => inferInstanceAs (Decidable (_ ∨ _))

/-- A request that stays within what the device and the charger are made for. -/
structure Ranged (req : BAT3request) : Prop where
  pwmLo : req.pwmLo.toNat ≤ 500
  pwmT : req.pwmT = 500
  together : req.outputs.PWM1en = req.outputs.PWM2en
  opampEn : req.outputs.opampEn = true
  softJP3 : req.outputs.softJP3 = false
  alarm : req.alarm = 0

/-- A turn at a device that goes on with what was asked for keeps the search within the
period. -/
theorem within_turn {loop : ChargeLoop} {event : ChargeEvent}
    (within : loop.state.Within loop.req.pwmLo)
    (echo : Echoes ((BAT3BatteryCharge shutdelay).stepAt loop event)) :
    ((BAT3BatteryCharge shutdelay).step loop event).1.state.Within
        ((BAT3BatteryCharge shutdelay).step loop event).1.req.pwmLo ∧
      ((BAT3BatteryCharge shutdelay).step loop event).1.state.lockHi.toNat ≤ 500 ∧
      Ranged ((BAT3BatteryCharge shutdelay).step loop event).2.request := by
  have heard : (listen loop.state event).1.Within
      (BAT3requestInitFromReply event.rep loop.req).pwmLo := within.listen echo
  obtain ⟨period, lo, hi, asked⟩ := heard.updatePwm event.rep
  obtain ⟨pwmLo, request⟩ := updatePwm_request (listen loop.state event).1
    (BAT3requestInitFromReply event.rep loop.req) event.rep
  rw [charge_request, charge_state, charge_req]
  refine ⟨⟨period, lo, Or.inr ⟨hi, asked⟩⟩, hi, ?_⟩
  rw [request] at asked ⊢
  exact ⟨asked, heard.1, rfl, rfl, rfl, rfl⟩

theorem within_start (samples : Nat → ℚ) (req : BAT3request) (targetI on off : Int) :
    (startCharge samples req targetI on off).state.Within
      (startCharge samples req targetI on off).req.pwmLo :=
  ⟨rfl, Nat.zero_le _, Or.inl ⟨rfl, rfl⟩⟩

/-- **What is asked for** in every turn, whatever the commands, the currents and the clock: a low
time within the period, the two PWMs together and the amplifier, no sleep and no shutdown by the
device. -/
theorem requests_ranged (samples : Nat → ℚ) (req : BAT3request) (targetI on off : Int)
    (events : List ChargeEvent)
    (echoes : ∀ taken ∈ (BAT3BatteryCharge shutdelay).trace
      (startCharge samples req targetI on off) events, Echoes taken) :
    ∀ taken ∈ (BAT3BatteryCharge shutdelay).trace (startCharge samples req targetI on off) events,
      Ranged taken.output.request := by
  have kept := Machine.trace_invariant (BAT3BatteryCharge shutdelay)
    (fun loop => loop.state.Within loop.req.pwmLo) Echoes
    (fun loop event within echo => (within_turn shutdelay within echo).1)
    _ events (within_start samples req targetI on off) echoes
  intro taken member
  have within := (kept taken member).1
  have echo := echoes taken member
  obtain ⟨before, event, after, -, rfl⟩ :=
    (Machine.mem_trace (BAT3BatteryCharge shutdelay) _ events taken).mp member
  exact (within_turn shutdelay within echo).2.2

/-- A turn at a device whose current falls by 60 µA with every step of its low time. -/
def sampleTurn (pwmLo : Nat) : ChargeEvent where
  command := none
  rep :=
    { adc0 := 0, adc2 := 0, adc6 := 48640, adc7 := .ofNat 16 (29500 - pwmLo),
      pwmLo := .ofNat 16 pwmLo, pwmT := 500, temp := 0, outputs := .ofWord 0, eeAddr := 0,
      eeData := 0 }
  t := 1

/-- The state in which the daemon begins to charge with 12 mA. -/
def sampleCharge : ChargeLoop :=
  startCharge (fun _ => 0) ⟨0, .ofWord 0, 0, 0, 0, 0⟩ 12000 60 60

/-- The turns of a search for 12 mA. -/
def sampleSearch : List ChargeEvent :=
  [250, 375, 312, 281, 296, 304, 300, 298, 299].map sampleTurn

/-- The request of the first turn. -/
theorem requests_ranged_sample :
    Ranged ((BAT3BatteryCharge 300).step sampleCharge (sampleTurn 1000)).2.request :=
  requests_ranged 300 _ _ 12000 60 60 (sampleTurn 1000 :: sampleSearch) (by decide +kernel) _
    List.mem_cons_self

end Runs

end TsBat3

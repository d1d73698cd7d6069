import TsBat3.Foundation.Feedback
import TsBat3.Charger.Regulator
import TsBat3.Daemon.Round

/-! # The regulated current

While the daemon charges with one target and the device does what it is asked for, the low time
comes to rest, whatever the device reported at the start: the current is then within 10 mA of the
target, or the low time is at a bound and the current still on the far side of the target. The
device's current is a function of the low time that falls, by no more than 20 mA in a step.
-/

namespace TsBat3

/-- `calc_load` as a regulator of the low time, with the period that charging asks for. -/
def loadRegulator (current : Int) : Regulator where
  floor := pwmFloor current
  ceiling := 512
  dead := SMALL_STEP
  far := BIG_STEP
  stride := 10
  floor_le := by
    unfold pwmFloor
    split <;> decide
  dead_nonneg := by decide
  dead_le := by decide
  stride_pos := by decide

/-- The current that flows at a low time, in mA. -/
structure Gentle (flow : Int → Int) : Prop where
  falling : ∀ low, flow (low + 1) ≤ flow low
  slow : ∀ low, flow low ≤ flow (low + 1) + 20

private theorem Gentle.slope {flow : Int → Int} (gentle : Gentle flow) (low : Int) (steps : Nat) :
    flow (low + steps) ≤ flow low ∧ flow low ≤ flow (low + steps) + 20 * steps := by
  induction steps with
  | zero => simp
  | succ steps ih =>
      have falls := gentle.falling (low + steps)
      have slowly := gentle.slow (low + steps)
      rw [Nat.cast_succ, ← add_assoc]
      omega

/-- The steps of `calc_load` fit such a current. -/
theorem tuned_loadRegulator {flow : Int → Int} (gentle : Gentle flow) (current : Int) :
    (loadRegulator current).Tuned fun low => current - flow low := by
  have between (low high : Int) (ordered : low ≤ high) :
      flow high ≤ flow low ∧ flow low ≤ flow high + 20 * (high - low) := by
    have slope := gentle.slope low (high - low).toNat
    rw [Int.toNat_of_nonneg (by omega), add_sub_cancel] at slope
    exact slope
  refine ⟨fun low high ordered => ?_, fun place => ?_, fun place => ?_,
    fun low high ordered near => ?_⟩
  · have falls := (between low high ordered).1
    omega
  · have slowly := gentle.slow place
    change current - flow (place + 1) ≤ current - flow place + 2 * 10
    omega
  · have slowly := (between place (place + 10) (by omega)).2
    change current - flow (place + 10) ≤ current - flow place + 2 * 100
    omega
  · have slowly := (between low high ordered).2
    change 2 * (high - low) < 10 at near
    change current - flow high ≤ current - flow low + (100 - 10)
    omega

section Rounds

variable {F : Type} {ar : Arith F}

/-- A charging round and what its device does: it takes the low time and the period over, and its
current is the one that flows at this low time. -/
structure Follows (flow : Int → Int) (current : Int)
    (taken : Machine.Step (Daemon F) DaemonEvent (Option (Round F))) : Prop where
  current : taken.before.params.current = current
  charges : ∃ round, taken.output = some round ∧ round.load.state.opampEn = .ON ∧
    taken.after.state.pwmLo = round.request.pwmLo ∧ taken.after.state.pwmT = round.request.pwmT
  flows : measured taken.after.state = flow taken.after.state.pwmLo.toNat

/-- The pulse that a charging round asks for. -/
theorem pulse_round {state : Daemon F} {event : DaemonEvent} {round : Round F}
    (made : ((daemon ar).step state event).2 = some round)
    (on : round.load.state.opampEn = .ON) :
    round.request.pwmT = MAX_PWM_T ∧ (round.request.pwmLo.toNat : Int) =
      min (max (state.state.pwmLo.toNat + correction (state.params.current - measured state.state))
        (pwmFloor state.params.current)) state.state.pwmT.toNat := by
  obtain ⟨now, msg, reads, _, same, _⟩ := daemon_round made
  rw [same, load_doRound] at on
  obtain ⟨period, low⟩ := charged_prepare on
  have framed := eeprom_frame (fun sample => (sample.pwmLo, sample.pwmT, measured sample))
    (fun _ _ _ _ _ => rfl) state
  simp only [Prod.mk.injEq] at framed
  rw [wantedPwm_eq, framed.1, framed.2.1, framed.2.2] at low
  rw [same, request_doRound]
  exact ⟨period, low⟩

/-- The pulse after a round that the device follows. -/
theorem Follows.pulse {flow : Int → Int} {current : Int} {state : Daemon F} {event : DaemonEvent}
    (follows : Follows flow current ((daemon ar).stepAt state event)) :
    ((daemon ar).step state event).1.state.pwmT = MAX_PWM_T ∧
      (((daemon ar).step state event).1.state.pwmLo.toNat : Int) =
        min (max (state.state.pwmLo.toNat + correction (current - measured state.state))
          (pwmFloor current)) state.state.pwmT.toNat ∧
      measured ((daemon ar).step state event).1.state =
        flow ((daemon ar).step state event).1.state.pwmLo.toNat := by
  obtain ⟨target, ⟨round, made, on, low, period⟩, flows⟩ := follows
  obtain ⟨asked, wanted⟩ := pulse_round made on
  have target : state.params.current = current := target
  have low : ((daemon ar).step state event).1.state.pwmLo = round.request.pwmLo := low
  have period : ((daemon ar).step state event).1.state.pwmT = round.request.pwmT := period
  rw [target] at wanted
  exact ⟨period.trans asked, low ▸ wanted, flows⟩

/-- The device reports the period and a low time between its bounds, with the current at it. -/
structure Closed (flow : Int → Int) (current : Int) (state : Bat3) : Prop where
  period : state.pwmT = MAX_PWM_T
  within : (loadRegulator current).Within state.pwmLo.toNat
  flows : measured state = flow state.pwmLo.toNat

/-- **A round** that the device follows is a move of the regulator. -/
theorem Closed.round {flow : Int → Int} {current : Int} {state : Daemon F} {event : DaemonEvent}
    (closed : Closed flow current state.state)
    (follows : Follows flow current ((daemon ar).stepAt state event)) :
    Closed flow current ((daemon ar).step state event).1.state ∧
      (((daemon ar).step state event).1.state.pwmLo.toNat : Int) =
        (loadRegulator current).move (fun low => current - flow low) state.state.pwmLo.toNat := by
  obtain ⟨period, low, flows⟩ := follows.pulse
  have moved : (((daemon ar).step state event).1.state.pwmLo.toNat : Int) =
      (loadRegulator current).move (fun low => current - flow low) state.state.pwmLo.toNat := by
    rw [low, closed.flows, closed.period]
    rfl
  refine ⟨⟨period, ?_, flows⟩, moved⟩
  rw [moved]
  exact Regulator.within_move _

/-- Rounds that the device follows are moves of the regulator. -/
theorem Closed.rounds {flow : Int → Int} {current : Int} {state : Daemon F}
    {events : List DaemonEvent} (closed : Closed flow current state.state)
    (follows : ∀ taken ∈ (daemon ar).trace state events, Follows flow current taken) :
    (((daemon ar).run state events).state.pwmLo.toNat : Int) =
      ((loadRegulator current).move fun low => current - flow low)^[events.length]
        state.state.pwmLo.toNat := by
  induction events generalizing state with
  | nil => rfl
  | cons event events ih =>
      rw [Machine.trace_cons, List.forall_mem_cons] at follows
      obtain ⟨next, moved⟩ := closed.round follows.1
      rw [List.length_cons, Function.iterate_succ_apply, ← moved]
      exact ih next follows.2

/-- **The current settles.** While the daemon charges with one target and the device follows, the
low time comes to rest, whatever the device reported at the start, and stays: within 10 mA of the
target, or at a bound on the near side of it. -/
theorem current_settles (ar : Arith F) (flow : Int → Int) (gentle : Gentle flow) (current : Int)
    (start : Daemon F) (first second : DaemonEvent) (events : List DaemonEvent)
    (enough : 1025 ≤ events.length)
    (follows : ∀ taken ∈ (daemon ar).trace start (first :: second :: events),
      Follows flow current taken) :
    let low : Int := ((daemon ar).run start (first :: second :: events)).state.pwmLo.toNat
    (current - 10 ≤ flow low ∧ flow low ≤ current + 10) ∨
      (low = pwmFloor current ∧ flow low < current - 10) ∨
      (low = 512 ∧ current + 10 < flow low) := by
  rw [Machine.trace_cons, List.forall_mem_cons, Machine.trace_cons, List.forall_mem_cons] at follows
  obtain ⟨one, two, later⟩ := follows
  obtain ⟨full, -, -⟩ := one.pulse
  obtain ⟨period, low, flows⟩ := two.pulse
  have closed : Closed flow current
      ((daemon ar).step ((daemon ar).step start first).1 second).1.state := by
    refine ⟨period, ?_, flows⟩
    rw [low, full]
    exact ⟨le_min (le_max_right _ _) (loadRegulator current).floor_le, min_le_right _ _⟩
  have room : 2 * ((loadRegulator current).ceiling - (loadRegulator current).floor) + 1 ≤
      events.length := by
    have floor := pwmFloor_nonneg current
    change 2 * (512 - pwmFloor current) + 1 ≤ (events.length : Int)
    omega
  have rested := Regulator.rests (tuned_loadRegulator gentle current) closed.within room
  rw [← closed.rounds later] at rested
  rw [Machine.run_cons, Machine.run_cons]
  have dead : (loadRegulator current).dead = 10 := rfl
  unfold Regulator.AtRest at rested
  rw [dead] at rested
  dsimp only at rested
  rcases rested with ⟨above, below⟩ | ⟨bound, short⟩ | ⟨bound, excess⟩
  · exact Or.inl ⟨by omega, by omega⟩
  · exact Or.inr (Or.inl ⟨bound, by omega⟩)
  · exact Or.inr (Or.inr ⟨bound, by omega⟩)

end Rounds

/-- A reply with a low time, and near 400 mA with a current of 736 mA less that. -/
def regulatedReply (low : Nat) : BAT3reply where
  adc0 := 0
  adc2 := 0
  adc6 := 0
  adc7 := .ofNat 16 (41056 - 16 * low)
  pwmLo := .ofNat 16 low
  pwmT := 512
  temp := 0
  outputs := .ofWord 0
  eeAddr := 0
  eeData := 0

/-- A daemon that has charged for long and is to go on for long. -/
def regulatedStart (low : Nat) : Daemon ℚ where
  state := decodeReply (regulatedReply low)
  romstate := .WRITE
  params := { startParams 0 [] with samples := -1, hours := 100000 }
  loglevel := 3
  cntsamples := 10001
  swContinue := true

def regulatedRound (low : Nat) : DaemonEvent :=
  .round (.still 1000) [] [(regulatedReply low).toBytes]

/-- A daemon that charges with 400 mA, at a device that passes 736 mA less the low time: the current
falls from 413 mA until it is 410 mA. -/
theorem current_settles_settled :
    let low : Int := ((daemon Arith.exact).run (regulatedStart 323)
      (regulatedRound 324 :: regulatedRound 325 ::
        List.replicate 1025 (regulatedRound 326))).state.pwmLo.toNat
    (400 - 10 ≤ 736 - low ∧ 736 - low ≤ 400 + 10) ∨
      (low = pwmFloor 400 ∧ 736 - low < 400 - 10) ∨ (low = 512 ∧ 400 + 10 < 736 - low) := by
  have first : ((daemon Arith.exact).step (regulatedStart 323) (regulatedRound 324)).1 =
      regulatedStart 324 := rfl
  have second : ((daemon Arith.exact).step (regulatedStart 324) (regulatedRound 325)).1 =
      regulatedStart 325 := rfl
  have third : ((daemon Arith.exact).step (regulatedStart 325) (regulatedRound 326)).1 =
      regulatedStart 326 := rfl
  have still : ((daemon Arith.exact).step (regulatedStart 326) (regulatedRound 326)).1 =
      regulatedStart 326 := rfl
  refine current_settles Arith.exact (fun low => 736 - low)
    ⟨fun low => by omega, fun low => by omega⟩ 400 (regulatedStart 323) (regulatedRound 324)
    (regulatedRound 325) (List.replicate 1025 (regulatedRound 326)) (List.length_replicate.ge) ?_
  rw [Machine.trace_cons, first, Machine.trace_cons, second, List.replicate_succ,
    Machine.trace_cons, third, Machine.trace_replicate _ still]
  simp only [List.forall_mem_cons]
  refine ⟨⟨rfl, ⟨_, rfl, rfl, rfl, rfl⟩, rfl⟩, ⟨rfl, ⟨_, rfl, rfl, rfl, rfl⟩, rfl⟩,
    ⟨rfl, ⟨_, rfl, rfl, rfl, rfl⟩, rfl⟩, fun taken member => ?_⟩
  rw [List.eq_of_mem_replicate member]
  exact ⟨rfl, ⟨_, rfl, rfl, rfl, rfl⟩, rfl⟩

end TsBat3

import TsBat3.Vendor.Search
import Mathlib.Algebra.Order.Ring.Int

/-! # The seconds of the charging daemon

Without commands the daemon charges in the first seconds of every period of the duty cycle, counted
on the mains, and in no others; an on time of 0 makes it charge without a pause. A power failure
that lasts shuts the system down after the delay, and again every 15 seconds.
-/

namespace TsBat3

variable (shutdelay : Int)

/-- A second begins in the turn. -/
def SecondBegins (taken : ChargeStep) : Prop := taken.event.t ≠ taken.before.lastT

instance : DecidablePred SecondBegins := fun _ => inferInstanceAs (Decidable (_ ≠ _))

/-- The seconds that have begun on the mains. -/
def mainsSeconds (turns : List ChargeStep) : Nat :=
  turns.countP fun taken => SecondBegins taken ∧ taken.event.rep.outputs.batRun = false

/-- The seconds that have begun since the power failed. -/
def batterySeconds (turns : List ChargeStep) : Nat :=
  turns.foldl (fun seconds taken =>
    if SecondBegins taken then
      if taken.event.rep.outputs.batRun then seconds + 1 else 0
    else seconds) 0

/-! ### The duty cycle -/

/-- No command asks for a current. -/
def ChargeEvent.Quiet (event : ChargeEvent) : Prop :=
  event.command.bind BAT3UDPcommand.target = none

instance : DecidablePred ChargeEvent.Quiet := fun event => by
  unfold ChargeEvent.Quiet
  exact inferInstance

/-- The reply reports a low time at an end of the period. -/
def AtEnd (event : ChargeEvent) : Prop := event.rep.pwmLo = 0 ∨ 500 ≤ event.rep.pwmLo

instance : DecidablePred AtEnd := fun _ => inferInstanceAs (Decidable (_ ∨ _))

/-- What the request of a turn leaves of the state but for the search. -/
theorem updatePwm_spec (state : BAT3chargeState) (req : BAT3request) (rep : BAT3reply) :
    ∃ targetI locked lockHi lockLo, (updatePwm state req rep).1 =
        { state with targetI, locked, lockHi, lockLo } ∧
      (targetI = state.targetI ∨
        (targetI = 0 ∧ (req.pwmLo = 0 ∨ state.lockMax ≤ req.pwmLo))) := by
  unfold updatePwm
  dsimp only
  split
  · obtain ⟨targetI, pwmLo, followed, given, -⟩ := regulate_spec state (enablePwm state req) rep
    rw [followed]
    exact ⟨targetI, state.locked, state.lockHi, state.lockLo, rfl, given⟩
  · obtain ⟨locked, pwmLo, sought, -⟩ := seek_spec state (enablePwm state req) rep
    obtain ⟨lockHi, lockLo, left⟩ := tighten_eq state (enablePwm state req) rep
    rw [sought, left]
    exact ⟨state.targetI, locked, lockHi, lockLo, rfl, Or.inl rfl⟩

/-- A command that asks for no current leaves all but the receiver of the log. -/
theorem command_quiet {event : ChargeEvent} (quiet : event.Quiet) (state : BAT3chargeState) :
    ∃ txSocket, BAT3UDPcommandCheck state event.command = { state with txSocket } := by
  unfold ChargeEvent.Quiet at quiet
  generalize event.command = command at quiet ⊢
  cases command with
  | none => exact ⟨state.txSocket, rfl⟩
  | some command =>
      cases command with
      | cmd1 socket => exact ⟨socket, rfl⟩
      | cmd2 => exact ⟨-1, rfl⟩
      | cmd3 targetI => cases quiet
      | cmd4 targetI timeOn timeOff => cases quiet
      | other => exact ⟨state.txSocket, rfl⟩

/-- The place of the duty cycle, after a number of seconds on the mains, and the current: it is the
one asked for while the timer runs, unless it has been given up, and 0 else. -/
structure OnDuty (on off targetI : Int) (givenUp : Prop) (seconds : Nat)
    (state : BAT3chargeState) : Prop where
  timeOn : state.timeOn = on
  timeOff : state.timeOff = off
  masterI : state.masterI = targetI
  lockMax : state.lockMax = 500
  timer : state.timer = on - seconds % (on + off)
  idle : state.timer ≤ 0 → state.targetI = 0
  active : 0 < state.timer → state.targetI = targetI ∨ (givenUp ∧ state.targetI = 0)

section Cycle

variable {on off targetI : Int} {givenUp : Prop} {seconds : Nat} {state : BAT3chargeState}

private theorem emod_succ {count : Nat} {period : Int} (positive : 0 < period) :
    ((count + 1 : Nat) : Int) % period =
      if (count : Int) % period + 1 = period then 0 else (count : Int) % period + 1 := by
  have low := Int.emod_nonneg (count : Int) positive.ne'
  have high := Int.emod_lt_of_pos (count : Int) positive
  rw [Nat.cast_succ, ← Int.emod_add_emod]
  split
  · rename_i last
    rw [last, Int.emod_self]
  · exact Int.emod_eq_of_lt (by omega) (by omega)

/-- **A second of the duty cycle.** -/
theorem OnDuty.tick (charging : 0 < on) (pause : 0 ≤ off)
    (duty : OnDuty on off targetI givenUp seconds state) :
    OnDuty on off targetI givenUp (seconds + 1) (dutyTick state) := by
  obtain ⟨timeOn, timeOff, masterI, lockMax, timer, idle, active⟩ := duty
  have period : 0 < on + off := by omega
  have low := Int.emod_nonneg (seconds : Int) period.ne'
  have high := Int.emod_lt_of_pos (seconds : Int) period
  have next := @emod_succ seconds _ period
  generalize (seconds : Int) % (on + off) = place at timer low high next
  unfold dutyTick
  by_cases running : 0 < state.timer
  · rw [if_pos running]
    dsimp only
    by_cases ended : state.timer - 1 = 0
    · rw [if_pos ended]
      by_cases pausing : 0 < state.timeOff
      · rw [if_pos pausing]
        refine ⟨timeOn, timeOff, masterI, lockMax, ?_, fun _ => rfl, fun still => ?_⟩
        · rw [next, if_neg (by omega)]
          dsimp only
          omega
        · exact absurd still (by dsimp only; omega)
      · rw [if_neg pausing]
        refine ⟨timeOn, timeOff, masterI, lockMax, ?_, fun below => ?_, fun _ => active running⟩
        · rw [next, if_pos (by omega)]
          dsimp only
          omega
        · exact absurd below (by dsimp only; omega)
    · rw [if_neg ended]
      refine ⟨timeOn, timeOff, masterI, lockMax, ?_, fun below => ?_, fun _ => active running⟩
      · rw [next, if_neg (by omega)]
        dsimp only
        omega
      · exact absurd below (by dsimp only; omega)
  · rw [if_neg running]
    dsimp only
    by_cases anew : state.timer - 1 ≤ -state.timeOff
    · rw [if_pos anew, if_pos (timeOn ▸ charging)]
      refine ⟨timeOn, timeOff, masterI, lockMax, ?_, fun below => ?_, fun _ => Or.inl masterI⟩
      · rw [next, if_pos (by omega)]
        dsimp only
        omega
      · exact absurd below (by dsimp only; omega)
    · rw [if_neg anew]
      refine ⟨timeOn, timeOff, masterI, lockMax, ?_, fun _ => idle (not_lt.mp running), ?_⟩
      · rw [next, if_neg (by omega)]
        dsimp only
        omega
      · intro still
        exact absurd still (by dsimp only; omega)

/-- The place of the duty cycle in a turn that no command changes. -/
theorem OnDuty.listen {event : ChargeEvent} (charging : 0 < on) (pause : 0 ≤ off)
    (quiet : event.Quiet)
    (duty : OnDuty on off targetI givenUp seconds state) :
    OnDuty on off targetI givenUp
        (seconds + if event.t ≠ state.lastT ∧ event.rep.outputs.batRun = false then 1 else 0)
        (listen state event).1 ∧
      (listen state event).1.lastT = event.t := by
  obtain ⟨txSocket, same⟩ := command_quiet quiet state
  obtain ⟨pwm, V, I, T, numSamples, logged⟩ := log_spec { state with txSocket } event.rep event.t
  have kept : OnDuty on off targetI givenUp seconds { state with txSocket } :=
    ⟨duty.timeOn, duty.timeOff, duty.masterI, duty.lockMax, duty.timer, duty.idle, duty.active⟩
  have ticked : OnDuty on off targetI givenUp
      (seconds + if event.t ≠ state.lastT ∧ event.rep.outputs.batRun = false then 1 else 0)
      (TsBat3.duty { state with txSocket } event.rep event.t) := by
    unfold TsBat3.duty
    by_cases begun : event.t ≠ state.lastT ∧ event.rep.outputs.batRun = false
    · rw [if_pos begun, if_pos begun]
      exact kept.tick charging pause
    · rw [if_neg begun, if_neg begun]
      exact kept
  unfold TsBat3.listen
  rw [same, logged]
  exact ⟨⟨ticked.timeOn, ticked.timeOff, ticked.masterI, ticked.lockMax, ticked.timer, ticked.idle,
    ticked.active⟩, rfl⟩

/-- The request of a turn leaves the place of the duty cycle, and may give the current up at an end
of the period. -/
theorem OnDuty.updatePwm {event : ChargeEvent} (req : BAT3request)
    (asked : req.pwmLo = event.rep.pwmLo)
    (duty : OnDuty on off targetI givenUp seconds state) :
    OnDuty on off targetI (givenUp ∨ AtEnd event) seconds (updatePwm state req event.rep).1 ∧
      (TsBat3.updatePwm state req event.rep).1.lastT = state.lastT := by
  obtain ⟨current, locked, lockHi, lockLo, followed, given⟩ := updatePwm_spec state req event.rep
  rw [followed]
  refine ⟨⟨duty.timeOn, duty.timeOff, duty.masterI, duty.lockMax, duty.timer, ?_, ?_⟩, rfl⟩
  · intro ended
    rcases given with same | ⟨zero, -⟩
    · exact same.trans (duty.idle ended)
    · exact zero
  · intro running
    rcases given with same | ⟨zero, low | high⟩
    · rw [same]
      exact (duty.active running).imp_right (And.imp_left Or.inl)
    · exact Or.inr ⟨Or.inr (Or.inl (asked ▸ low)), zero⟩
    · rw [duty.lockMax, asked] at high
      exact Or.inr ⟨Or.inr (Or.inr high), zero⟩

/-- The timer does not run, and the current is the one asked for unless it has been given up. -/
structure Unpaused (targetI : Int) (givenUp : Prop) (state : BAT3chargeState) : Prop where
  timeOn : state.timeOn ≤ 0
  timer : state.timer ≤ 0
  lockMax : state.lockMax = 500
  active : state.targetI = targetI ∨ givenUp

/-- A second of a duty cycle without an on time only moves the timer. -/
theorem dutyTick_unpaused (never : state.timeOn ≤ 0)
    (still : state.timer ≤ 0) :
    ∃ timer, timer ≤ 0 ∧ dutyTick state = { state with timer } := by
  unfold dutyTick
  rw [if_neg (not_lt.mpr still)]
  dsimp only
  split
  · rw [if_neg (not_lt.mpr never)]
    exact ⟨state.timeOn, never, rfl⟩
  · exact ⟨state.timer - 1, by omega, rfl⟩

theorem Unpaused.listen {event : ChargeEvent}
    (quiet : event.Quiet)
    (unpaused : Unpaused targetI givenUp state) :
    Unpaused targetI givenUp (listen state event).1 := by
  obtain ⟨txSocket, same⟩ := command_quiet quiet state
  obtain ⟨pwm, V, I, T, numSamples, logged⟩ := log_spec { state with txSocket } event.rep event.t
  have ticked : ∃ timer, timer ≤ 0 ∧
      duty { state with txSocket } event.rep event.t = { state with txSocket, timer } := by
    unfold duty
    split
    · exact @dutyTick_unpaused { state with txSocket } unpaused.timeOn unpaused.timer
    · exact ⟨state.timer, unpaused.timer, rfl⟩
  obtain ⟨timer, below, ticked⟩ := ticked
  unfold TsBat3.listen
  rw [same, logged, ticked]
  exact ⟨unpaused.timeOn, below, unpaused.lockMax, unpaused.active⟩

theorem Unpaused.updatePwm {event : ChargeEvent} (req : BAT3request)
    (asked : req.pwmLo = event.rep.pwmLo)
    (unpaused : Unpaused targetI givenUp state) :
    Unpaused targetI (givenUp ∨ AtEnd event) (updatePwm state req event.rep).1 := by
  obtain ⟨current, locked, lockHi, lockLo, followed, given⟩ := updatePwm_spec state req event.rep
  rw [followed]
  refine ⟨unpaused.timeOn, unpaused.timer, unpaused.lockMax, ?_⟩
  rcases given with same | ⟨-, low | high⟩
  · rw [same]
    exact unpaused.active.imp_right Or.inl
  · exact Or.inr (Or.inr (Or.inl (asked ▸ low)))
  · rw [unpaused.lockMax, asked] at high
    exact Or.inr (Or.inr (Or.inr high))

end Cycle

section Runs

variable {samples : Nat → ℚ} {req : BAT3request} {targetI on off : Int}
  {events : List ChargeEvent} {event : ChargeEvent}

theorem mainsSeconds_append (turns : List ChargeStep) (taken : ChargeStep) :
    mainsSeconds (turns ++ [taken]) = mainsSeconds turns +
      if SecondBegins taken ∧ taken.event.rep.outputs.batRun = false then 1 else 0 := by
  unfold mainsSeconds
  rw [List.countP_append, List.countP_singleton]
  simp only [decide_eq_true_eq]

/-- The place of the duty cycle after a run. -/
theorem onDuty_run (charging : 0 < on) (pause : 0 ≤ off)
    (quiet : ∀ event ∈ events, event.Quiet) :
    let turns := (BAT3BatteryCharge shutdelay).trace (startCharge samples req targetI on off) events
    let loop := (BAT3BatteryCharge shutdelay).run (startCharge samples req targetI on off) events
    OnDuty on off targetI (∃ taken ∈ turns, AtEnd taken.event) (mainsSeconds turns) loop.state ∧
      loop.state.lastT = loop.lastT := by
  apply Machine.trace_history (BAT3BatteryCharge shutdelay)
    (fun turns loop => OnDuty on off targetI (∃ taken ∈ turns, AtEnd taken.event)
      (mainsSeconds turns) loop.state ∧ loop.state.lastT = loop.lastT)
    (fun taken => taken.event.Quiet)
  · rintro turns loop event ⟨duty, clock⟩ still
    obtain ⟨heard, begun⟩ := duty.listen charging pause still
    obtain ⟨placed, same⟩ := heard.updatePwm (BAT3requestInitFromReply event.rep loop.req) rfl
    refine ⟨?_, same.trans begun⟩
    rw [mainsSeconds_append, charge_state]
    rw [clock] at placed
    refine ⟨placed.timeOn, placed.timeOff, placed.masterI, placed.lockMax, placed.timer,
      placed.idle, fun running => (placed.active running).imp_right (And.imp_left ?_)⟩
    rintro (⟨taken, member, atEnd⟩ | now)
    · exact ⟨taken, List.mem_append_left _ member, atEnd⟩
    · exact ⟨_, List.mem_append_right _ List.mem_cons_self, now⟩
  · exact ⟨⟨rfl, rfl, rfl, rfl, (sub_zero on).symm, fun ended => absurd charging (not_lt.mpr ended),
      fun _ => Or.inl rfl⟩, rfl⟩
  · intro taken member
    exact quiet _ (Machine.event_mem (BAT3BatteryCharge shutdelay) member)

/-- The place of the duty cycle in the turn after a run. -/
theorem onDuty_turn (charging : 0 < on) (pause : 0 ≤ off)
    (quiet : ∀ turn ∈ events ++ [event], turn.Quiet) :
    let daemon := BAT3BatteryCharge shutdelay
    let start := startCharge samples req targetI on off
    OnDuty on off targetI (∃ taken ∈ daemon.trace start events, AtEnd taken.event)
      (mainsSeconds (daemon.trace start (events ++ [event])))
      (listen (daemon.run start events).state event).1 := by
  intro daemon start
  obtain ⟨duty, clock⟩ := @onDuty_run shutdelay samples req targetI on off events charging pause
    fun event member => quiet event (List.mem_append_left _ member)
  obtain ⟨heard, -⟩ := duty.listen charging pause
    (quiet event (List.mem_append_right _ List.mem_cons_self))
  rw [clock] at heard
  rw [Machine.trace_append]
  change OnDuty on off targetI _ (mainsSeconds (_ ++ [daemon.stepAt _ event])) _
  rw [mainsSeconds_append]
  exact heard

private theorem charge_enabled (loop : ChargeLoop) (event : ChargeEvent) :
    ((BAT3BatteryCharge shutdelay).step loop event).2.request.outputs.PWM1en = true ↔
      0 < (listen loop.state event).1.targetI := by
  obtain ⟨pwmLo, request⟩ := updatePwm_request (listen loop.state event).1
    (BAT3requestInitFromReply event.rep loop.req) event.rep
  rw [charge_request, charge_req, request]
  exact decide_eq_true_iff

variable (samples : Nat → ℚ) (req : BAT3request) (targetI : Int)

/-- **The duty cycle.** Without a command that asks for a current, every turn that charges is in the
first seconds of a period, counted on the mains, and every turn in these charges unless a low
time at an end of the period has been met. -/
theorem charges_on_duty (charging : 0 < on) (pause : 0 ≤ off) (events : List ChargeEvent)
    (event : ChargeEvent)
    (quiet : ∀ turn ∈ events ++ [event], turn.Quiet) :
    let daemon := BAT3BatteryCharge shutdelay
    let start := startCharge samples req targetI on off
    let request := (daemon.step (daemon.run start events) event).2.request
    let seconds := mainsSeconds (daemon.trace start (events ++ [event]))
    (request.outputs.PWM1en = true → 0 < targetI ∧ (seconds : Int) % (on + off) < on) ∧
      ((∀ event ∈ events, ¬ AtEnd event) → 0 < targetI → (seconds : Int) % (on + off) < on →
        request.outputs.PWM1en = true) := by
  intro daemon start request seconds
  have placed : OnDuty on off targetI (∃ taken ∈ daemon.trace start events, AtEnd taken.event)
      seconds (listen (daemon.run start events).state event).1 :=
    onDuty_turn shutdelay charging pause quiet
  have timer := placed.timer
  have enabled := charge_enabled shutdelay (daemon.run start events) event
  constructor
  · intro on
    have aimed := enabled.mp on
    have running : 0 < (listen (daemon.run start events).state event).1.timer := by
      by_contra ended
      rw [placed.idle (not_lt.mp ended)] at aimed
      exact lt_irrefl 0 aimed
    rcases placed.active running with same | ⟨-, zero⟩
    · exact ⟨same ▸ aimed, by omega⟩
    · exact absurd aimed (by omega)
  · intro inside positive early
    rcases placed.active (by omega) with same | ⟨⟨taken, member, atEnd⟩, -⟩
    · exact enabled.mpr (same ▸ positive)
    · exact absurd atEnd (inside _ (Machine.event_mem daemon member))

/-- A turn of the sample device in a second. -/
def sampleSecond (t : Time) : ChargeEvent := { sampleTurn 250 with t }

theorem charges_on_duty_sample :
    let daemon := BAT3BatteryCharge 300
    let start := startCharge (fun _ => 0) ⟨0, .ofWord 0, 0, 0, 0, 0⟩ 12000 2 1
    let events := [1, 2, 3].map sampleSecond
    let request := (daemon.step (daemon.run start events) (sampleSecond 4)).2.request
    let seconds := mainsSeconds (daemon.trace start (events ++ [sampleSecond 4]))
    (request.outputs.PWM1en = true → (0 : Int) < 12000 ∧ (seconds : Int) % (2 + 1) < 2) ∧
      ((∀ event ∈ events, ¬ AtEnd event) → (0 : Int) < 12000 → (seconds : Int) % (2 + 1) < 2 →
        request.outputs.PWM1en = true) :=
  charges_on_duty 300 _ _ 12000 (by decide) (by decide) ([1, 2, 3].map sampleSecond)
    (sampleSecond 4) (by decide)

/-- **No on time, no pause.** Without a command that asks for a current, a daemon with an on time of
0 charges in every turn, whatever the off time, unless a low time at an end of the period has
been met. -/
theorem charges_without_pause (never : on ≤ 0) (positive : 0 < targetI)
    (events : List ChargeEvent) (event : ChargeEvent)
    (quiet : ∀ turn ∈ events ++ [event], turn.Quiet)
    (inside : ∀ event ∈ events, ¬ AtEnd event) :
    let daemon := BAT3BatteryCharge shutdelay
    let start := startCharge samples req targetI on off
    (daemon.step (daemon.run start events) event).2.request.outputs.PWM1en = true := by
  intro daemon start
  have unpaused : Unpaused targetI (∃ taken ∈ daemon.trace start events, AtEnd taken.event)
      (daemon.run start events).state := by
    apply Machine.trace_history daemon
      (fun turns loop => Unpaused targetI (∃ taken ∈ turns, AtEnd taken.event) loop.state)
      (fun taken => taken.event.Quiet)
    · intro turns loop event unpaused still
      have next := (Unpaused.listen still unpaused).updatePwm
        (BAT3requestInitFromReply event.rep loop.req) rfl
      refine ⟨next.timeOn, next.timer, next.lockMax, next.active.imp_right ?_⟩
      rintro (⟨taken, member, atEnd⟩ | now)
      · exact ⟨taken, List.mem_append_left _ member, atEnd⟩
      · exact ⟨_, List.mem_append_right _ List.mem_cons_self, now⟩
    · exact ⟨never, never, rfl, Or.inl rfl⟩
    · intro taken member
      exact quiet _ (List.mem_append_left _ (Machine.event_mem daemon member))
  have heard := unpaused.listen (quiet event (List.mem_append_right _ List.mem_cons_self))
  apply (charge_enabled shutdelay (daemon.run start events) event).mpr
  rcases heard.active with same | ⟨taken, member, atEnd⟩
  · exact same ▸ positive
  · exact absurd atEnd (inside _ (Machine.event_mem daemon member))

/-- Asked to charge in 0 of every 60 seconds, the daemon charges. -/
theorem charges_without_pause_sample :
    let daemon := BAT3BatteryCharge 300
    let start := startCharge (fun _ => 0) ⟨0, .ofWord 0, 0, 0, 0, 0⟩ 12000 0 60
    (daemon.step (daemon.run start ([1, 2, 3].map sampleSecond)) (sampleSecond 4)).2.request
      |>.outputs.PWM1en = true :=
  charges_without_pause 300 _ _ 12000 (by decide) (by decide) ([1, 2, 3].map sampleSecond)
    (sampleSecond 4) (by decide) (by decide)

end Runs

/-! ### The shutdown -/

/-- The seconds until a shutdown, after some seconds on batteries. -/
structure Due (shutdelay : Int) (seconds : Nat) (pending : Int) : Prop where
  none : seconds = 0 → pending = -1
  first : 0 < seconds → seconds ≤ shutdelay → pending = shutdelay + 1 - seconds
  again : 0 < shutdelay → shutdelay < seconds → pending = 15 - (seconds - shutdelay - 1) % 15
  never : shutdelay ≤ 0 → pending = -1

/-- **A second of the shutdown.** -/
theorem Due.tick {seconds : Nat} {pending : Int} (batRun : Bool)
    (due : Due shutdelay seconds pending) :
    Due shutdelay (if batRun then seconds + 1 else 0)
        (shutdownTick shutdelay batRun pending).1 ∧
      ((shutdownTick shutdelay batRun pending).2 = true ↔
        batRun = true ∧ 0 < shutdelay ∧ shutdelay ≤ seconds ∧
          (seconds - shutdelay) % 15 = 0) := by
  obtain ⟨none, first, again, never⟩ := due
  unfold shutdownTick
  cases batRun with
  | false =>
      refine ⟨⟨fun _ => rfl, fun some => absurd some (lt_irrefl 0), fun positive past => ?_,
        fun _ => rfl⟩, iff_of_false Bool.false_ne_true fun failed => ?_⟩
      · exact absurd past (not_lt.mpr positive.le)
      · exact Bool.false_ne_true failed.1
  | true =>
      rw [if_pos rfl, if_pos rfl]
      by_cases positive : 0 < shutdelay
      swap
      · rw [if_neg positive]
        have still := never (not_lt.mp positive)
        refine ⟨⟨?_, ?_, ?_, fun _ => still⟩, iff_of_false Bool.false_ne_true fun due => ?_⟩
        · omega
        · omega
        · exact fun enabled => absurd enabled positive
        · exact positive due.2.1
      rw [if_pos positive]
      by_cases running : 0 < pending
      · rw [if_pos running]
        dsimp only
        by_cases now : pending - 1 = 0
        · rw [if_pos now]
          exact ⟨⟨by omega, by omega, by omega, by omega⟩,
            iff_of_true rfl ⟨rfl, positive, by omega, by omega⟩⟩
        · rw [if_neg now]
          exact ⟨⟨by omega, by omega, by omega, by omega⟩,
            iff_of_false Bool.false_ne_true (by omega)⟩
      · have begun : seconds = 0 := by
          by_contra some
          rcases le_or_gt (seconds : Int) shutdelay with early | past
          · have left := first (Nat.pos_of_ne_zero some) early
            omega
          · have left := again positive past
            omega
        rw [if_neg running]
        refine ⟨⟨by omega, by omega, by omega, by omega⟩,
          iff_of_false Bool.false_ne_true fun due => ?_⟩
        have late := due.2.2.1
        omega

theorem batterySeconds_append (turns : List ChargeStep) (taken : ChargeStep) :
    batterySeconds (turns ++ [taken]) =
      if SecondBegins taken then
        if taken.event.rep.outputs.batRun then batterySeconds turns + 1 else 0
      else batterySeconds turns := by
  unfold batterySeconds
  rw [List.foldl_append]
  rfl

private theorem charge_pending (loop : ChargeLoop) (event : ChargeEvent) :
    ((BAT3BatteryCharge shutdelay).step loop event).1.shutdownPending =
      (if event.t ≠ loop.lastT then
        shutdownTick shutdelay event.rep.outputs.batRun loop.shutdownPending
      else (loop.shutdownPending, false)).1 := rfl

private theorem charge_shutdown (loop : ChargeLoop) (event : ChargeEvent) :
    ((BAT3BatteryCharge shutdelay).step loop event).2.shutdown =
      (if event.t ≠ loop.lastT then
        shutdownTick shutdelay event.rep.outputs.batRun loop.shutdownPending
      else (loop.shutdownPending, false)).2 := rfl

/-- The seconds until a shutdown after a run. -/
theorem due_run (samples : Nat → ℚ) (req : BAT3request) (targetI on off : Int)
    (events : List ChargeEvent) :
    let daemon := BAT3BatteryCharge shutdelay
    let start := startCharge samples req targetI on off
    Due shutdelay (batterySeconds (daemon.trace start events))
      (daemon.run start events).shutdownPending := by
  intro daemon start
  apply Machine.trace_history daemon
    (fun turns loop => Due shutdelay (batterySeconds turns) loop.shutdownPending) (fun _ => True)
  · intro turns loop event due _
    have next := due.tick shutdelay event.rep.outputs.batRun
    rw [batterySeconds_append, charge_pending]
    by_cases begun : event.t ≠ loop.lastT
    · rw [if_pos begun, if_pos (show SecondBegins (daemon.stepAt loop event) from begun)]
      exact next.1
    · rw [if_neg begun, if_neg (show ¬ SecondBegins (daemon.stepAt loop event) from begun)]
      exact due
  · exact ⟨fun _ => rfl, fun some => absurd some (lt_irrefl 0),
      fun positive past => absurd past (not_lt.mpr positive.le), fun _ => rfl⟩
  · exact fun _ _ => trivial

/-- **The shutdown** takes place in exactly the seconds that are due: when the power has failed for
more seconds than the delay, and every 15 seconds from then on. -/
theorem shutdown_iff (samples : Nat → ℚ) (req : BAT3request) (targetI on off : Int)
    (events : List ChargeEvent) (event : ChargeEvent) :
    let daemon := BAT3BatteryCharge shutdelay
    let start := startCharge samples req targetI on off
    let taken := daemon.stepAt (daemon.run start events) event
    let seconds := batterySeconds (daemon.trace start (events ++ [event]))
    taken.output.shutdown = true ↔
      SecondBegins taken ∧ event.rep.outputs.batRun = true ∧ 0 < shutdelay ∧
        shutdelay < seconds ∧ (seconds - shutdelay - 1) % 15 = 0 := by
  intro daemon start taken seconds
  have due : Due shutdelay (batterySeconds (daemon.trace start events))
      (daemon.run start events).shutdownPending := due_run shutdelay _ _ _ _ _ events
  have next := (due.tick shutdelay event.rep.outputs.batRun).2
  have counted : seconds = if SecondBegins taken then
      if event.rep.outputs.batRun then batterySeconds (daemon.trace start events) + 1 else 0
      else batterySeconds (daemon.trace start events) := by
    change batterySeconds (daemon.trace start (events ++ [event])) = _
    rw [Machine.trace_append]
    exact batterySeconds_append _ _
  change ((BAT3BatteryCharge shutdelay).step _ event).2.shutdown = true ↔ _
  rw [charge_shutdown]
  by_cases begun : event.t ≠ (daemon.run start events).lastT
  · rw [if_pos begun, next]
    rw [if_pos (show SecondBegins taken from begun)] at counted
    refine ⟨fun ⟨failed, enabled, late, quarter⟩ => ⟨begun, failed, enabled, ?_⟩,
      fun ⟨_, failed, enabled, late, quarter⟩ => ⟨failed, enabled, ?_⟩⟩
    · rw [if_pos failed] at counted
      omega
    · rw [if_pos failed] at counted
      omega
  · rw [if_neg begun]
    exact iff_of_false Bool.false_ne_true fun now => begun now.1

end TsBat3

import TsBat3.Daemon.Round
import TsBat3.Charger.Recording

/-! # Charging without an end time

The daemon starts with an end time of -1, which `setHours` and the client's
`hours` command take for none. `doload` takes it for a deadline that has passed. A
daemon without an end time therefore never charges on the voltage history.
-/

namespace TsBat3

/-- A call charges until the voltage history is stable. -/
def ChargesOnHistory {F : Type} (load : Load F) : Prop :=
  load.branch = .charging ∧ load.state.opampEn = .ON

section EndTime

variable {F : Type} (ar : Arith F)

/-- Only a client's `hours` command with a number changes the end time. -/
theorem hours_step {state : Daemon F} {event : DaemonEvent}
    (unset : ∀ now number, event ≠ .command (.hours now (some number))) :
    ((daemon ar).step state event).1.params.hours = state.params.hours := by
  cases made : ((daemon ar).step state event).2 with
  | some round =>
      obtain ⟨now, msg, reads, _, same, _, _, params⟩ := daemon_round made
      obtain ⟨_, _, _, _, kept⟩ := sameOptions_prepare ar now (eeprom state).2 state.params
      rw [params, same, load_doRound, kept]
  | none =>
      rcases daemon_idle made with same | ⟨command, asked, ran⟩
      · rw [same]
      · rw [ran]
        cases command with
        | current number => cases number <;> rfl
        | hours now number =>
            cases number with
            | none => rfl
            | some number => exact absurd asked (unset now number)
        | loglevel number => cases number <;> rfl
        | exit => rfl
        | other => rfl

/-- A call on mains power with a deadline that has passed leaves the op-amp off. -/
theorem doload_reached {now : Clock} {sample : Bat3} {target : Action F}
    (mains : sample.batRun = .OFF) (unset : target.hours = -1) :
    (doload ar now sample target).branch = (if -1 < now.entry then .timeReached else .timed) ∧
      (-1 < now.entry → (doload ar now sample target).state.opampEn = .OFF) := by
  rcases doload_cases ar now sample target with ⟨other, _⟩ | ⟨_, _, taken⟩ | ⟨_, other, _⟩
  · exact OnOff.noConfusion (other.symm.trans mains)
  · rw [taken]
    unfold loadTimed
    rw [unset]
    split
    · exact ⟨rfl, fun _ => rfl⟩
    · rename_i early
      exact ⟨rfl, fun late => absurd late early⟩
  · rw [unset] at other
    exact absurd other (by decide)

/-- **No end time.** Without the option `e` and without a client's end time, no round
on mains power charges on the voltage history. From the epoch on it takes the
time-based branch for a deadline that has passed, and the op-amp is off. -/
theorem never_charges_on_history (zero : F) {arguments : List Argument}
    (endless : ∀ argument ∈ arguments, argument.c ≠ 'e') (sample : Bat3)
    {events : List DaemonEvent}
    (unset : ∀ now number, .command (.hours now (some number)) ∉ events) :
    ∀ taken ∈ (daemon ar).trace (startDaemon zero arguments sample) events,
      ∀ now msg reads round, taken.event = .round now msg reads → taken.output = some round →
        taken.before.state.batRun = .OFF →
          ¬ ChargesOnHistory round.load ∧
            (0 ≤ now.entry →
              round.load.branch = .timeReached ∧ round.load.state.opampEn = .OFF) := by
  intro taken member now msg reads round called made mains
  have allowed : ∀ taken ∈ (daemon ar).trace (startDaemon zero arguments sample) events,
      ∀ now number, taken.event ≠ .command (.hours now (some number)) :=
    fun taken member now number asked => unset now number (asked ▸ (daemon ar).event_mem member)
  have unended := (daemon ar).trace_invariant (fun state => state.params.hours = -1)
    (fun taken => ∀ now number, taken.event ≠ .command (.hours now (some number)))
    (fun state event valid allowed => (hours_step ar allowed).trans valid)
    (startDaemon zero arguments sample) events (startParams_hours zero endless) allowed
  have deadline := (unended taken member).1
  obtain ⟨_, event, _, _, rfl⟩ := ((daemon ar).mem_trace _ events taken).mp member
  generalize (daemon ar).run _ _ = state at deadline mains made
  cases called
  obtain ⟨_, _, _, same, round', _⟩ := daemon_round made
  cases same
  have power := eeprom_frame Bat3.batRun (fun _ _ _ _ _ => rfl) state
  obtain ⟨led, prepared⟩ := prepare_eq ar now (eeprom state).2 state.params
  have reached := @doload_reached F ar now { (eeprom state).2 with led } state.params
    (power.trans mains) deadline
  rw [round', load_doRound, prepared]
  refine ⟨fun charges => ?_, fun late => ?_⟩
  · have branch := charges.1
    rw [reached.1] at branch
    split at branch
    · exact Branch.noConfusion branch
    · exact Branch.noConfusion branch
  · have passed : -1 < now.entry := lt_of_lt_of_le (by decide) late
    exact ⟨reached.1.trans (if_pos passed), reached.2 passed⟩

end EndTime

/-- A daemon without arguments, whose first round finds an empty history. -/
theorem never_charges_on_history_first :
    ¬ ChargesOnHistory
      (doRound Arith.exact (.still 1000) [] [] .blank (startParams 0 [])).1.load :=
  (@never_charges_on_history ℚ Arith.exact 0 [] (fun _ member => absurd member List.not_mem_nil)
    .blank [.round (.still 1000) [] []] (fun _ _ member => by cases List.mem_singleton.mp member) _
    List.mem_cons_self (.still 1000) [] [] _ rfl rfl rfl).1

/-- Started without an end time, the daemon does not charge on mains power. -/
theorem charging_fails_without_end_time :
    ¬ ∀ arguments : List Argument, (∀ argument ∈ arguments, argument.c ≠ 'e') →
      ∀ (sample : Bat3) (events : List DaemonEvent),
        (∀ now number, .command (.hours now (some number)) ∉ events) →
        ∀ taken ∈ (daemon Arith.exact).trace (startDaemon 0 arguments sample) events,
          ∀ now msg reads round, taken.event = .round now msg reads →
            taken.output = some round → taken.before.state.batRun = .OFF →
              ¬ taken.before.params.Stable Arith.exact now.after →
                ChargesOnHistory round.load := by
  intro charges
  have charged := charges [] (fun _ member => absurd member List.not_mem_nil) .blank
    [.round (.still 1000) [] []] (fun _ _ member => by cases List.mem_singleton.mp member) _
    List.mem_cons_self (.still 1000) [] [] _ rfl rfl rfl
    (fun stable => absurd stable.1 (by decide))
  exact absurd charged.1 (by decide +kernel)

end TsBat3

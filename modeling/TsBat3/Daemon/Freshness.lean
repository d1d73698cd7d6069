import TsBat3.Foundation.Epochs
import TsBat3.Daemon.Retries
import TsBat3.Charger.Stopping

/-! # Which replies the history records

The replies that the daemon takes over are numbered, the first sample with 0. A
round records the voltage of the reply it was made of, whatever becomes of the round
itself; when it fails, the next round is made of the same reply and may record it
again.
-/

namespace TsBat3

instance {F : Type} (note : Note F) : Decidable note.IsAppend :=
  match note with
  | .appended .. => isTrue trivial
  | .started _ => isFalse id
  | .cleared => isFalse id
  | .reset => isFalse id

/-- How many values are appended. -/
def appends {F : Type} (notes : List (Note F)) : Nat := notes.countP fun note => note.IsAppend

section Freshness

variable {F : Type} {ar : Arith F}

/-- How many values a step of the daemon appends to the history. -/
def recorded (taken : Machine.Step (Daemon F) DaemonEvent (Option (Round F))) : Nat :=
  taken.output.elim 0 fun round => appends round.load.notes

/-- The step takes over a reply. -/
def replaces (taken : Machine.Step (Daemon F) DaemonEvent (Option (Round F))) : Bool :=
  taken.output.elim false fun round => round.ret == 0

/-- The numbers of the replies whose voltage a run appends, in order. -/
def recordedReplies (ar : Arith F) (start : Daemon F) (events : List DaemonEvent) : List Nat :=
  epochs recorded replaces 0 ((daemon ar).trace start events)

/-- The voltages of the first sample and of the replies that the steps take over. -/
def voltages (first : Word) :
    List (Machine.Step (Daemon F) DaemonEvent (Option (Round F))) → List Word
  | [] => [first]
  | taken :: steps =>
      if replaces taken then first :: voltages taken.after.state.batU steps
      else voltages first steps

/-- The step is a round that records, judged by the state before it. -/
def Records (ar : Arith F) (taken : Machine.Step (Daemon F) DaemonEvent (Option (Round F))) :
    Prop :=
  ∃ now msg reads, taken.event = .round now msg reads ∧ taken.before.running = true ∧
    taken.before.state.batRun = .OFF ∧ taken.before.params.hours = 0 ∧
    taken.before.params.alarm ≤ now.entry ∧ ¬ taken.before.params.Stable ar now.before

/-- The step is a round in which a message arrives and decodes before the retries are at
their limit. -/
def Answered (taken : Machine.Step (Daemon F) DaemonEvent (Option (Round F))) : Prop :=
  ∃ now msg reads, taken.event = .round now msg reads ∧ taken.before.running = true ∧
    ∃ reply ∈ reads.take (MAX_RETRIES * MAX_RETRIES), attempt reply ≠ none

/-- A check appends nothing. -/
theorem appends_checkStable (now : Time) (target : Action F) :
    appends (checkStable ar now target).notes = 0 := by
  unfold checkStable
  split
  · rfl
  split
  · split
    · rfl
    · rfl
  · rfl

/-- Recording appends one value when the alarm is due and the history has not been
stable, and none otherwise. -/
theorem appends_record (now : Clock) (batU : Word) (target : Action F) :
    appends (record ar now batU target).2 ≤ 1 ∧
      (0 < appends (record ar now batU target).2 ↔
        target.alarm ≤ now.entry ∧ ¬ target.Stable ar now.before) := by
  have checked (alarm : Time) :
      (checkStable ar now.before { target with alarm }).stable = true ↔
        target.Stable ar now.before := checkStable_stable now.before { target with alarm }
  unfold record
  by_cases due : target.alarm ≤ now.entry
  · rw [if_pos due]
    dsimp only
    by_cases stable : target.Stable ar now.before
    · rw [if_pos ((checked _).mpr stable)]
      dsimp only
      rw [appends_checkStable]
      exact ⟨Nat.zero_le 1, fun less => absurd less (Nat.lt_irrefl 0),
        fun both => absurd stable both.2⟩
    · rw [if_neg fun other => stable ((checked _).mp other)]
      have one : appends ((checkStable ar now.before
          { target with alarm := now.record + 1 }).notes ++
            [.ofAppend ar (checkStable ar now.before
              { target with alarm := now.record + 1 }).target batU.toNat]) = 1 := by
        unfold appends
        rw [List.countP_append]
        exact congrArg (· + 1) (appends_checkStable now.before _)
      dsimp only
      rw [one]
      exact ⟨Nat.le_refl 1, fun _ => ⟨due, stable⟩, fun _ => Nat.zero_lt_one⟩
  · rw [if_neg due]
    exact ⟨Nat.zero_le 1, fun less => absurd less (Nat.lt_irrefl 0), fun both => absurd both.1 due⟩

/-- A call appends one value at most, and one exactly when it records. -/
theorem appends_doload (now : Clock) (state : Bat3) (target : Action F) :
    appends (doload ar now state target).notes ≤ 1 ∧
      (0 < appends (doload ar now state target).notes ↔
        state.batRun = .OFF ∧ target.hours = 0 ∧ target.alarm ≤ now.entry ∧
          ¬ target.Stable ar now.before) := by
  rcases doload_cases ar now state target with ⟨battery, taken⟩ | ⟨_, timed, taken⟩ |
    ⟨mains, endless, taken⟩
  · rw [taken]
    exact ⟨Nat.zero_le 1, fun less => absurd less (Nat.lt_irrefl 0),
      fun all => OnOff.noConfusion (battery.symm.trans all.1)⟩
  · rw [taken, (loadTimed_target now _ target).2]
    exact ⟨Nat.zero_le 1, fun less => absurd less (Nat.lt_irrefl 0),
      fun all => absurd all.2.1 timed⟩
  · have only : appends (loadStable ar now (softJP3Off state) target).notes =
        appends (record ar now (softJP3Off state).batU target).2 := by
      rw [(loadStable_target ar now _ target).2, appends, List.countP_append]
      exact congrArg (appends _ + ·) (appends_checkStable now.after _)
    rw [taken, only]
    obtain ⟨most, exactly⟩ := @appends_record F ar now (softJP3Off state).batU target
    refine ⟨most, exactly.trans ⟨fun both => ⟨mains, endless, both⟩, fun all => all.2.2⟩⟩

/-- What is appended is the voltage of the state. -/
theorem newval_doload {now : Clock} {state : Bat3} {target : Action F} {newval : Int}
    {previous : Option F} {weight : F}
    (member : .appended newval previous weight ∈ (doload ar now state target).notes) :
    newval = state.batU.toNat := by
  have silent (now : Time) (target : Action F) :
      .appended newval previous weight ∉ (checkStable ar now target).notes := by
    intro inside
    have none := List.countP_eq_zero.mp (@appends_checkStable F ar now target) _ inside
    exact none (decide_eq_true trivial)
  have voltage : (softJP3Off state).batU = state.batU := by rw [softJP3Off_eq]
  rcases doload_cases ar now state target with ⟨_, taken⟩ | ⟨_, _, taken⟩ | ⟨_, _, taken⟩
  · rw [taken] at member
    cases List.mem_singleton.mp member
  · rw [taken, (loadTimed_target now _ target).2] at member
    exact absurd member List.not_mem_nil
  · rw [taken, (loadStable_target ar now _ target).2] at member
    rcases List.mem_append.mp member with here | later
    · unfold record at here
      split at here
      · dsimp only at here
        split at here
        · exact absurd here (silent _ _)
        · rcases List.mem_append.mp here with check | append
          · exact absurd check (silent _ _)
          · cases List.mem_singleton.mp append
            rw [voltage]
      · exact absurd here List.not_mem_nil
    · exact absurd later (silent _ _)

/-- A step of the daemon records one value at most, and one exactly when the state
before it says so. -/
theorem recorded_step (state : Daemon F) (event : DaemonEvent) :
    recorded ((daemon ar).stepAt state event) ≤ 1 ∧
      (0 < recorded ((daemon ar).stepAt state event) ↔
        Records ar ((daemon ar).stepAt state event)) := by
  cases made : ((daemon ar).step state event).2 with
  | none =>
      have quiet : recorded ((daemon ar).stepAt state event) = 0 := by
        unfold recorded Machine.stepAt
        rw [made]
        rfl
      rw [quiet]
      refine ⟨Nat.zero_le 1, fun less => absurd less (Nat.lt_irrefl 0), ?_⟩
      rintro ⟨now, msg, reads, called, running, _⟩
      cases called
      exact absurd made ((daemon_makes_round state now msg reads).mpr running)
  | some round =>
      obtain ⟨now, msg, reads, called, same, _⟩ := daemon_round made
      have count : recorded ((daemon ar).stepAt state event) = appends round.load.notes := by
        unfold recorded Machine.stepAt
        rw [made]
        rfl
      have power := eeprom_frame Bat3.batRun (fun _ _ _ _ _ => rfl) state
      obtain ⟨led, prepared⟩ := prepare_eq ar now (eeprom state).2 state.params
      obtain ⟨most, exactly⟩ := @appends_doload F ar now { (eeprom state).2 with led } state.params
      rw [count, same, load_doRound, prepared]
      refine ⟨most, exactly.trans ?_⟩
      change (eeprom state).2.batRun = .OFF ∧ _ ↔ _
      rw [power]
      constructor
      · rintro all
        have running : state.running = true := by
          rw [← daemon_makes_round state now msg reads, ← called, made]
          exact Option.some_ne_none round
        exact ⟨now, msg, reads, called, running, all⟩
      · rintro ⟨now', msg', reads', called', _, all⟩
        cases called.symm.trans called'
        exact all

/-- A step takes over a reply when it is a round that is answered in time. -/
theorem replaces_iff (state : Daemon F) (event : DaemonEvent) :
    replaces ((daemon ar).stepAt state event) = true ↔
      Answered ((daemon ar).stepAt state event) := by
  unfold replaces Answered Machine.stepAt
  dsimp only
  cases made : ((daemon ar).step state event).2 with
  | none =>
      refine ⟨fun never => Bool.noConfusion never, ?_⟩
      rintro ⟨now, msg, reads, rfl, running, _⟩
      exact absurd made ((daemon_makes_round state now msg reads).mpr running)
  | some round =>
      obtain ⟨now, msg, reads, rfl, same, _⟩ := daemon_round made
      have running : state.running = true := by
        rw [← daemon_makes_round state now msg reads, made]
        exact Option.some_ne_none round
      have zero : (some round).elim false (fun round : Round F => round.ret == 0) = true ↔
          round.ret = 0 := beq_iff_eq
      rw [zero, same, ret_doRound_iff]
      refine ⟨fun found => ⟨now, msg, reads, rfl, running, found⟩, ?_⟩
      rintro ⟨now', msg', reads', called, _, found⟩
      cases called
      exact found

/-- A step that takes over no reply leaves the voltage of the state as it is. -/
theorem voltage_step {state : Daemon F} {event : DaemonEvent}
    (kept : replaces ((daemon ar).stepAt state event) = false) :
    ((daemon ar).step state event).1.state.batU = state.state.batU := by
  cases made : ((daemon ar).step state event).2 with
  | none => rw [(rom_idle made).1]
  | some round =>
      obtain ⟨now, msg, reads, _, same, sample, _⟩ := daemon_round made
      have failed : round.ret ≠ 0 := by
        unfold replaces Machine.stepAt at kept
        rw [made] at kept
        exact bne_iff_ne.mp (congrArg not kept)
      rw [same] at failed
      rw [sample, doRound_failed failed]
      exact eeprom_frame Bat3.batU (fun _ _ _ _ _ => rfl) state

/-- The voltage of the state a run reaches is that of the last reply taken over. -/
theorem voltage_run (start : Daemon F) (events : List DaemonEvent) :
    (voltages start.state.batU ((daemon ar).trace start events)).getLast? =
      some ((daemon ar).run start events).state.batU := by
  induction events generalizing start with
  | nil => rfl
  | cons event events ih =>
      rw [Machine.trace_cons, Machine.run_cons, voltages]
      cases taken : replaces ((daemon ar).stepAt start event) with
      | true =>
          have rest := ih ((daemon ar).step start event).1
          rw [if_pos rfl, List.getLast?_cons]
          change some ((voltages ((daemon ar).step start event).1.state.batU _).getLast?.getD _) = _
          rw [rest]
          rfl
      | false =>
          rw [if_neg Bool.false_ne_true, ← voltage_step taken]
          exact ih _

/-- The replies taken over are numbered from the first sample on. -/
theorem length_voltages (first : Word)
    (steps : List (Machine.Step (Daemon F) DaemonEvent (Option (Round F)))) :
    (voltages first steps).length = steps.countP replaces + 1 := by
  induction steps generalizing first with
  | nil => rfl
  | cons taken steps ih =>
      rw [voltages, List.countP_cons]
      cases replaces taken with
      | true => exact congrArg (· + 1) (ih _)
      | false => exact ih first

/-- **What is recorded.** A value that a step of a run appends is the voltage of the
reply whose number the step stands in. -/
theorem recorded_voltage (start : Daemon F) (before : List DaemonEvent) (event : DaemonEvent)
    {round : Round F}
    (made : ((daemon ar).step ((daemon ar).run start before) event).2 = some round)
    {newval : Int} {previous : Option F} {weight : F}
    (member : .appended newval previous weight ∈ round.load.notes) :
    let earlier := (daemon ar).trace start before
    ∃ batU, (voltages start.state.batU earlier)[earlier.countP replaces]? = some batU ∧
      newval = batU.toNat := by
  intro earlier
  have last := @voltage_run F ar start before
  rw [List.getLast?_eq_getElem?, length_voltages, Nat.add_sub_cancel] at last
  refine ⟨_, last, ?_⟩
  generalize (daemon ar).run start before = state at made
  obtain ⟨now, msg, reads, _, same, _⟩ := daemon_round made
  obtain ⟨led, prepared⟩ := prepare_eq ar now (eeprom state).2 state.params
  rw [same, load_doRound, prepared] at member
  rw [newval_doload member]
  exact congrArg (fun batU : Word => (batU.toNat : Int))
    (eeprom_frame Bat3.batU (fun _ _ _ _ _ => rfl) state)

/-- **Fresh measurements.** A run records no reply twice exactly when a round is answered
between any two rounds that record, the first of them included. -/
theorem recorded_once_iff (ar : Arith F) (start : Daemon F) (events : List DaemonEvent) :
    (recordedReplies ar start events).Nodup ↔
      ∀ earlier first between second later,
        (daemon ar).trace start events = earlier ++ first :: (between ++ second :: later) →
          Records ar first → Records ar second →
            ∃ taken ∈ first :: between, Answered taken := by
  have single : ∀ taken ∈ (daemon ar).trace start events, recorded taken ≤ 1 :=
    (daemon ar).forall_mem_trace (fun state event => (recorded_step state event).1) start events
  have records : ∀ taken ∈ (daemon ar).trace start events,
      (0 < recorded taken ↔ Records ar taken) :=
    (daemon ar).forall_mem_trace (fun state event => (recorded_step state event).2) start events
  have answers : ∀ taken ∈ (daemon ar).trace start events,
      (replaces taken = true ↔ Answered taken) :=
    (daemon ar).forall_mem_trace replaces_iff start events
  unfold recordedReplies
  rw [nodup_epochs_iff single]
  unfold Apart
  refine forall_congr' fun earlier => forall_congr' fun first => forall_congr' fun between =>
    forall_congr' fun second => forall₂_congr fun later split => ?_
  have front : first ∈ (daemon ar).trace start events := by
    rw [split]
    exact List.mem_append_right _ List.mem_cons_self
  have back : second ∈ (daemon ar).trace start events := by
    rw [split]
    exact List.mem_append_right _ (List.mem_cons_of_mem _
      (List.mem_append_right _ List.mem_cons_self))
  have inside {taken} (member : taken ∈ first :: between) :
      taken ∈ (daemon ar).trace start events := by
    rw [split, ← List.cons_append]
    exact List.mem_append_right _ (List.mem_append_left _ member)
  rw [records first front, records second back]
  refine imp_congr_right fun _ => imp_congr_right fun _ => ?_
  exact exists_congr fun taken => and_congr_right fun member => answers taken (inside member)

end Freshness

/-- On a line that stays silent the first sample is recorded in two rounds. -/
theorem recorded_twice_in_silence :
    ¬ ∀ (start : Daemon ℚ) (events : List DaemonEvent),
      (recordedReplies Arith.exact start events).Nodup := by
  intro once
  have twice : recordedReplies Arith.exact (startDaemon 0 [] .blank)
      [.command (.hours 0 (some (-1))), .round (.still 1000) [] [], .round (.still 1002) [] []] =
      [0, 0] := by decide +kernel
  have nodup := once (startDaemon 0 [] .blank)
    [.command (.hours 0 (some (-1))), .round (.still 1000) [] [], .round (.still 1002) [] []]
  rw [twice] at nodup
  exact absurd nodup (by decide)

end TsBat3

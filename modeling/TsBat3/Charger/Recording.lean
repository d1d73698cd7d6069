import TsBat3.Foundation.Machine
import TsBat3.Charger.Load
import TsBat3.Charger.Params

/-! # Recording the voltage

A run of the charger is any sequence of `doload` calls and of settings by a
client. The voltage is recorded whenever the charger charges with the alarm due,
until the history has been stable for a day: then the charger charges again, and
the test before the recording still finds the history stable.
-/

namespace TsBat3

/-- What reaches the charger. -/
inductive Event
  | load (now : Clock) (sample : Bat3)
  | setCurrent (i : Int)
  | setHours (now : Time) (i : Int)

/-- The clock readings that an event takes. -/
def Event.readings : Event → List Time
  | .load now _ => [now.entry, now.record, now.before, now.after, now.day]
  | .setCurrent _ => []
  | .setHours now _ => [now]

/-- The clock does not go back. -/
def Chronological (events : List Event) : Prop :=
  (events.flatMap Event.readings).Pairwise (· ≤ ·)

/-- The charger's answer to an event: the result of `doload`, if it was called, and
what happened to the history. -/
structure Report (F : Type) where
  load : Option (Load F)
  notes : List (Note F)

/-- The charger: its state are the parameters. -/
def charger {F : Type} (ar : Arith F) : Machine (Action F) Event (Report F) where
  step target
    | .load now sample =>
        let load := doload ar now sample target
        (load.target, ⟨some load, load.notes⟩)
    | .setCurrent i => (setCurrent target i, ⟨none, [.cleared]⟩)
    | .setHours now i => (setHours now target i, ⟨none, []⟩)

section Recording

variable {F : Type} (ar : Arith F)

/-- What `check_stable` calls stable: the last two weights have been near for longer
than `STABLE_TIME`. -/
def Action.Stable (now : Time) (target : Action F) : Prop :=
  2 ≤ target.weightpos ∧ ar.near target.curr target.prev = true ∧ target.stableTime ≠ 0 ∧
    STABLE_TIME * 60 < now - target.stableTime

/-- The alarm is due when the history has been stable for a day. -/
def Expired (now : Clock) (target : Action F) : Prop :=
  target.alarm ≤ now.entry ∧ target.Stable ar now.before ∧
    24 * 60 * 60 ≤ now.day - target.stableTime

variable {ar}

theorem checkStable_stable (now : Time) (target : Action F) :
    (checkStable ar now target).stable = true ↔ target.Stable ar now := by
  unfold checkStable Action.Stable
  by_cases short : target.weightpos < 2
  · rw [if_pos short]
    exact ⟨fun stable => Bool.noConfusion stable, fun stable => absurd short (by omega)⟩
  rw [if_neg short]
  by_cases near : ar.near target.curr target.prev = true
  · rw [if_pos near]
    by_cases stopped : target.stableTime = 0
    · rw [if_pos stopped]
      exact ⟨fun stable => Bool.noConfusion stable, fun stable => absurd stopped stable.2.2.1⟩
    · rw [if_neg stopped]
      dsimp only
      rw [decide_eq_true_iff]
      exact ⟨fun late => ⟨by omega, near, stopped, late⟩, fun stable => stable.2.2.2⟩
  · rw [if_neg near]
    exact ⟨fun stable => Bool.noConfusion stable, fun stable => absurd stable.2.1 near⟩

/-- A stable history is left as it is. -/
theorem checkStable_of_stable {now : Time} {target : Action F} (stable : target.Stable ar now) :
    checkStable ar now target = { stable := true, target, notes := [] } := by
  have long : ¬ target.weightpos < 2 := by
    have two := stable.1
    omega
  unfold checkStable
  rw [if_neg long, if_pos stable.2.1, if_neg stable.2.2.1]
  simp only [Check.mk.injEq, decide_eq_true_eq, and_self, and_true]
  exact stable.2.2.2

/-- While the history is stable a call neither records nor moves the timer. -/
theorem recheck_of_stable {now : Clock} {target : Action F} (due : target.alarm ≤ now.entry)
    (stable : target.Stable ar now.before) (batU : Word) :
    (record ar now batU target).2 = [] ∧
      recheck ar now batU target =
        { stable := true, target := { target with alarm := now.record + 1 }, notes := [] } := by
  have first : Action.Stable ar now.before { target with alarm := now.record + 1 } := stable
  have second : Action.Stable ar now.after { target with alarm := now.record + 1 } := by
    obtain ⟨long, near, running, late⟩ := stable
    have order := now.before_le
    exact ⟨long, near, running, lt_of_lt_of_le late (Int.sub_le_sub_right order _)⟩
  have recorded : record ar now batU target = ({ target with alarm := now.record + 1 }, []) := by
    unfold record
    rw [if_pos due]
    dsimp only
    rw [checkStable_of_stable first]
    rfl
  unfold recheck
  rw [recorded]
  exact ⟨rfl, checkStable_of_stable second⟩

/-- The voltage is recorded when the alarm is due and the history has not been
stable. -/
theorem mem_record {now : Clock} {target : Action F} (due : target.alarm ≤ now.entry)
    (unstable : ¬ target.Stable ar now.before) (batU : Word) :
    ∃ previous weight, .appended batU.toNat previous weight ∈ (record ar now batU target).2 := by
  have first : ¬ (checkStable ar now.before { target with alarm := now.record + 1 }).stable := by
    rw [checkStable_stable]
    exact unstable
  unfold record
  rw [if_pos due]
  dsimp only
  rw [if_neg first]
  exact ⟨_, _, List.mem_append_right _ (List.mem_singleton.mpr rfl)⟩

/-- The voltage of a sample is recorded in a call that charges when the alarm is
due. -/
def RecordsWhileCharging (load : Load F) (now : Clock) (sample : Bat3) (target : Action F) : Prop :=
  target.alarm ≤ now.entry → load.branch = .charging →
    ∃ previous weight, .appended sample.batU.toNat previous weight ∈ load.notes

/-- One call records while it charges unless the history has expired. -/
theorem recordsWhileCharging_iff {now : Clock} {sample : Bat3} {target : Action F}
    (mains : sample.batRun = .OFF) (endless : target.hours = 0) :
    RecordsWhileCharging (doload ar now sample target) now sample target ↔
      ¬ Expired ar now target := by
  have taken : doload ar now sample target = loadStable ar now (softJP3Off sample) target := by
    rcases doload_cases ar now sample target with ⟨other, _⟩ | ⟨_, other, _⟩ | ⟨_, _, taken⟩
    · exact OnOff.noConfusion (other.symm.trans mains)
    · exact absurd endless other
    · exact taken
  have voltage : (softJP3Off sample).batU = sample.batU := by rw [softJP3Off_eq]
  unfold RecordsWhileCharging
  rw [taken]
  unfold loadStable
  rw [voltage]
  dsimp only
  constructor
  · rintro records ⟨due, stable, long⟩
    obtain ⟨silent, again⟩ := recheck_of_stable due stable sample.batU
    rw [silent, again] at records
    dsimp only at records
    rw [if_neg (fun early => absurd early.2 (not_lt.mpr long))] at records
    obtain ⟨_, _, member⟩ := records due rfl
    exact absurd member List.not_mem_nil
  · intro current due charging
    by_cases stable : target.Stable ar now.before
    · obtain ⟨_, again⟩ := recheck_of_stable due stable sample.batU
      have early : now.day - target.stableTime < 24 * 60 * 60 := by
        by_contra long
        exact current ⟨due, stable, not_lt.mp long⟩
      rw [again, if_pos ⟨rfl, early⟩] at charging
      exact Branch.noConfusion charging
    · obtain ⟨previous, weight, member⟩ := mem_record due stable sample.batU
      refine ⟨previous, weight, ?_⟩
      split
      · exact List.mem_append_left _ member
      · exact List.mem_append_left _ member

variable (ar)

/-- What holds of the step of a run when it is a call on mains power without an end
time. -/
def OnHistory (taken : Machine.Step (Action F) Event (Report F))
    (holds : Load F → Clock → Bat3 → Action F → Prop) : Prop :=
  ∀ now sample load, taken.event = .load now sample → taken.output.load = some load →
    sample.batRun = .OFF → taken.before.hours = 0 → holds load now sample taken.before

/-- **A frozen history.** In every run, the charger records the voltage whenever it
charges with the alarm due, exactly when it never finds the history expired. -/
theorem records_while_charging_iff (start : Action F) (events : List Event) :
    (∀ taken ∈ (charger ar).trace start events, OnHistory taken RecordsWhileCharging) ↔
      ∀ taken ∈ (charger ar).trace start events,
        OnHistory taken fun _ now _ target => ¬ Expired ar now target := by
  refine forall₂_congr ((charger ar).forall_mem_trace (fun before event => ?_) start events)
  unfold OnHistory
  refine forall₃_congr fun now sample load => forall₄_congr fun called answered mains endless => ?_
  cases called
  cases answered
  exact recordsWhileCharging_iff mains endless

end Recording

/-- A day after the timer was started the charger charges again and records nothing. -/
theorem history_frozen_after_a_day :
    ¬ ∀ events : List Event, Chronological events →
      ∀ taken ∈ (charger Arith.exact).trace (startParams 0 []) events,
        OnHistory taken RecordsWhileCharging := by
  intro records
  let before : List Event :=
    [.setHours 0 (-1), .load (.still 1000) .blank, .load (.still 1001) .blank]
  let reached := (charger Arith.exact).run (startParams 0 []) before
  let load := doload Arith.exact (.still 87401) .blank reached
  have member : (charger Arith.exact).stepAt reached (.load (.still 87401) .blank) ∈
      (charger Arith.exact).trace (startParams 0 []) (before ++ [.load (.still 87401) .blank]) := by
    rw [Machine.trace_append]
    exact List.mem_append_right _ List.mem_cons_self
  have order : Chronological (before ++ [.load (.still 87401) .blank]) := by
    unfold Chronological
    decide
  have outcome : reached.hours = 0 ∧ reached.alarm ≤ 87401 ∧ load.branch = .charging ∧
      load.notes.isEmpty = true := by decide +kernel
  obtain ⟨endless, due, charging, silent⟩ := outcome
  obtain ⟨previous, weight, noted⟩ :=
    records _ order _ member (.still 87401) .blank load rfl rfl rfl endless due charging
  rw [List.isEmpty_iff.mp silent] at noted
  exact absurd noted List.not_mem_nil

end TsBat3

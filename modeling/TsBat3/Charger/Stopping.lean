import TsBat3.Charger.Recording
import Mathlib.Algebra.Order.Group.Abs
import Mathlib.Algebra.Order.Field.Rat

/-! # Stopping for stability

In exact arithmetic, a charger that stops because the history is stable has a timer
that has been running for the right time, and since the timer was started nothing
but near values has been appended. The invariant relates what happened to the
history so far to the timer and to the two newest weights.
-/

namespace TsBat3

section Stopping

/-- The note of a value that has been appended. -/
def Note.IsAppend {F : Type} : Note F → Prop
  | .appended .. => True
  | _ => False

/-- The note of a value that differs from its predecessor by less than 1. -/
def Note.IsNearAppend : Note ℚ → Prop
  | .appended _ (some previous) weight => |weight - previous| < 1
  | _ => False

/-- The timer was started at `start`, and nothing but near values has been appended
since, the value that made it start included. -/
def NearSince (log : List (Note ℚ)) (start : Time) : Prop :=
  ∃ earlier first between later, log = earlier ++ first :: (between ++ .started start :: later) ∧
    first.IsNearAppend ∧ (∀ note ∈ between, ¬ note.IsAppend) ∧ ∀ note ∈ later, note.IsNearAppend

/-- The two newest weights are those of the last append. -/
def LastAppend (log : List (Note ℚ)) (target : Action ℚ) : Prop :=
  2 ≤ target.weightpos → ∃ earlier newval later,
    log = earlier ++ .appended newval (some target.prev) target.curr :: later ∧
      ∀ note ∈ later, ¬ note.IsAppend

/-- A running timer has been justified since it was started. -/
structure Justified (log : List (Note ℚ)) (target : Action ℚ) : Prop where
  last : LastAppend log target
  timer : target.stableTime ≠ 0 → 2 ≤ target.weightpos ∧ NearSince log target.stableTime

/-- The same between an append and the check behind it, which tests the append. -/
structure Pending (log : List (Note ℚ)) (target : Action ℚ) : Prop where
  last : LastAppend log target
  timer : target.stableTime ≠ 0 → 2 ≤ target.weightpos ∧
    (|target.curr - target.prev| < 1 → NearSince log target.stableTime)

theorem Justified.pending {log : List (Note ℚ)} {target : Action ℚ} (valid : Justified log target) :
    Pending log target :=
  ⟨valid.last, fun running => ⟨(valid.timer running).1, fun _ => (valid.timer running).2⟩⟩

/-- Notes that append nothing leave the last append as it is. -/
theorem LastAppend.append {log notes : List (Note ℚ)} {target next : Action ℚ}
    (last : LastAppend log target) (quiet : ∀ note ∈ notes, ¬ note.IsAppend)
    (same : next.weightpos = target.weightpos ∧ next.weight = target.weight) :
    LastAppend (log ++ notes) next := by
  intro long
  obtain ⟨earlier, newval, later, rfl, silent⟩ := last (same.1 ▸ long)
  have curr : next.curr = target.curr := by rw [Action.curr, Action.curr, same.1, same.2]
  have prev : next.prev = target.prev := by rw [Action.prev, Action.prev, same.1, same.2]
  refine ⟨earlier, newval, later ++ notes, ?_, ?_⟩
  · rw [curr, prev, List.append_assoc, List.cons_append]
  · intro note member
    rcases List.mem_append.mp member with old | new
    · exact silent note old
    · exact quiet note new

private theorem exact_near (curr prev : ℚ) :
    Arith.exact.near curr prev = true ↔ |curr - prev| < 1 := by
  rw [abs_lt]
  exact decide_eq_true_iff

/-- **A check restores the invariant**: it starts a timer that the last append
justifies, keeps one that the last append still justifies, and clears any other. -/
theorem Pending.check {log : List (Note ℚ)} {target : Action ℚ} (valid : Pending log target)
    (now : Time) :
    let check := checkStable Arith.exact now target
    Justified (log ++ check.notes) check.target := by
  unfold checkStable
  by_cases short : target.weightpos < 2
  · rw [if_pos short]
    change Justified (log ++ []) target
    rw [List.append_nil]
    exact ⟨valid.last, fun running => absurd (valid.timer running).1 (not_le.mpr short)⟩
  rw [if_neg short]
  have long := not_lt.mp short
  by_cases near : Arith.exact.near target.curr target.prev = true
  · rw [if_pos near]
    rw [exact_near] at near
    by_cases stopped : target.stableTime = 0
    · rw [if_pos stopped]
      change Justified (log ++ [.started now]) { target with stableTime := now }
      refine ⟨valid.last.append (fun note member => ?_) ⟨rfl, rfl⟩, fun _ => ⟨long, ?_⟩⟩
      · rw [List.mem_singleton.mp member]
        exact id
      · obtain ⟨earlier, newval, later, rfl, silent⟩ := valid.last long
        exact ⟨earlier, .appended newval (some target.prev) target.curr, later, [],
          by rw [List.append_assoc, List.cons_append], near, silent,
          fun note member => absurd member List.not_mem_nil⟩
    · rw [if_neg stopped]
      change Justified (log ++ []) target
      rw [List.append_nil]
      exact ⟨valid.last, fun running => ⟨long, (valid.timer running).2 near⟩⟩
  · rw [if_neg near]
    refine ⟨valid.last.append (fun note member => ?_) ⟨rfl, rfl⟩, fun running => absurd rfl running⟩
    rw [List.mem_singleton.mp member]
    exact id

/-- The newest weight after an append. -/
theorem curr_processFirstDegree {F : Type} (ar : Arith F) (target : Action F) (newval : Int) :
    (processFirstDegree ar target newval).curr = newweight ar target newval := by
  unfold processFirstDegree Action.curr
  dsimp only
  split
  · exact Function.update_self _ _ _
  · exact Function.update_self _ _ _

/-- An append to a history that is not empty makes two weights of it, the older of
which was the newest before. -/
theorem prev_processFirstDegree {F : Type} (ar : Arith F) {target : Action F}
    (filled : target.weightpos ≠ 0) (newval : Int) :
    2 ≤ (processFirstDegree ar target newval).weightpos ∧
      (processFirstDegree ar target newval).prev = target.curr := by
  unfold processFirstDegree Action.prev Action.curr
  dsimp only
  by_cases full : target.weightpos + 1 = MAXMIN
  · rw [if_pos full]
    have place : target.weightpos = 29 := Nat.succ.inj full
    rw [place]
    exact ⟨Nat.le_add_left 2 27, rfl⟩
  · rw [if_neg full]
    have apart : target.weightpos + 1 - 2 ≠ target.weightpos + 1 - 1 := by omega
    refine ⟨by omega, ?_⟩
    rw [Function.update_of_ne apart]
    rfl

/-- An append leaves a running timer pending. -/
theorem Justified.append {log : List (Note ℚ)} {target : Action ℚ} (valid : Justified log target)
    (newval : Int) :
    Pending (log ++ [.ofAppend Arith.exact target newval])
      (processFirstDegree Arith.exact target newval) := by
  have curr := curr_processFirstDegree Arith.exact target newval
  constructor
  · intro long
    have filled : target.weightpos ≠ 0 := by
      intro empty
      unfold processFirstDegree at long
      rw [empty] at long
      exact absurd (show 2 ≤ 1 from long) (by decide)
    obtain ⟨_, prev⟩ := prev_processFirstDegree Arith.exact filled newval
    refine ⟨log, newval, [], ?_, fun note member => absurd member List.not_mem_nil⟩
    rw [curr, prev, Note.ofAppend, if_neg filled]
  · intro running
    obtain ⟨long, earlier, first, between, later, rfl, start, silent, near⟩ := valid.timer running
    have filled : target.weightpos ≠ 0 := by omega
    obtain ⟨still, prev⟩ := prev_processFirstDegree Arith.exact filled newval
    refine ⟨still, fun close => ⟨earlier, first, between,
      later ++ [.ofAppend Arith.exact target newval], ?_, start, silent, ?_⟩⟩
    · rw [List.append_assoc, List.cons_append, List.append_assoc, List.cons_append]
      rfl
    · intro note member
      rcases List.mem_append.mp member with old | new
      · exact near note old
      · rw [List.mem_singleton.mp new, Note.ofAppend, if_neg filled]
        rw [curr, prev] at close
        exact close

/-- Recording leaves a running timer pending. -/
theorem Justified.record {log : List (Note ℚ)} {target : Action ℚ} (valid : Justified log target)
    (now : Clock) (batU : Word) :
    Pending (log ++ (record Arith.exact now batU target).2)
      (record Arith.exact now batU target).1 := by
  unfold TsBat3.record
  by_cases due : target.alarm ≤ now.entry
  · rw [if_pos due]
    dsimp only
    have alarmed : Justified log { target with alarm := now.record + 1 } :=
      ⟨valid.last, valid.timer⟩
    have checked := alarmed.pending.check now.before
    split
    · exact checked.pending
    · rw [← List.append_assoc]
      exact checked.append batU.toNat
  · rw [if_neg due, List.append_nil]
    exact valid.pending

/-- **One step** of the charger keeps the timer justified. -/
theorem Justified.step {log : List (Note ℚ)} {target : Action ℚ} (valid : Justified log target)
    (event : Event) :
    let taken := (charger Arith.exact).step target event
    Justified (log ++ taken.2.notes) taken.1 := by
  have cleared (next : Action ℚ) (note : Note ℚ) (quiet : ¬ note.IsAppend)
      (stopped : next.stableTime = 0)
      (same : next.weightpos = 0 ∨
        next.weightpos = target.weightpos ∧ next.weight = target.weight) :
      Justified (log ++ [note]) next := by
    refine ⟨?_, fun running => absurd stopped running⟩
    rcases same with empty | same
    · intro long
      rw [empty] at long
      exact absurd long (by decide)
    · refine valid.last.append (fun other member => ?_) same
      rw [List.mem_singleton.mp member]
      exact quiet
  have unchanged (next : Action ℚ) (same : next = { target with hours := next.hours }) :
      Justified (log ++ []) next := by
    rw [List.append_nil, same]
    exact ⟨valid.last, valid.timer⟩
  cases event with
  | setCurrent i => exact cleared _ .cleared id rfl (Or.inr ⟨rfl, rfl⟩)
  | setHours now i =>
      refine unchanged _ ?_
      change setHours now target i = { target with hours := (setHours now target i).hours }
      unfold setHours
      split
      · rfl
      · rfl
  | load now sample =>
      change Justified (log ++ (doload Arith.exact now sample target).notes)
        (doload Arith.exact now sample target).target
      rcases doload_cases Arith.exact now sample target with
        ⟨_, taken⟩ | ⟨_, _, taken⟩ | ⟨_, _, taken⟩
      · rw [taken]
        exact cleared _ .reset id rfl (Or.inl rfl)
      · obtain ⟨same, silent⟩ := loadTimed_target now (softJP3Off sample) target
        rw [taken, same, silent]
        exact unchanged target rfl
      · have checked := (valid.record now (softJP3Off sample).batU).check now.after
        obtain ⟨same, noted⟩ := loadStable_target Arith.exact now (softJP3Off sample) target
        rw [taken, same, noted, ← List.append_assoc]
        exact checked

/-- A call that stops because of the history has found it stable, for less than a
day. -/
theorem stable_of_branch {F : Type} {ar : Arith F} {now : Clock} {sample : Bat3}
    {target : Action F} (stopped : (doload ar now sample target).branch = .stable) :
    let load := doload ar now sample target
    load.state.opampEn = .OFF ∧ load.target.Stable ar now.after ∧
      now.day - load.target.stableTime < 24 * 60 * 60 := by
  rcases doload_cases ar now sample target with ⟨_, taken⟩ | ⟨_, _, taken⟩ | ⟨_, _, taken⟩
  · rw [taken] at stopped
    exact Branch.noConfusion stopped
  · rw [taken] at stopped
    unfold loadTimed at stopped
    split at stopped
    · exact Branch.noConfusion stopped
    · exact Branch.noConfusion stopped
  · rw [taken] at stopped ⊢
    dsimp only
    rw [(loadStable_target ar now (softJP3Off sample) target).1]
    unfold loadStable at stopped ⊢
    dsimp only at stopped ⊢
    split at stopped
    · rename_i verdict
      have stable := (checkStable_stable _ _).mp verdict.1
      have same : (recheck ar now (softJP3Off sample).batU target).target =
          (record ar now (softJP3Off sample).batU target).1 := by
        rw [recheck, checkStable_of_stable stable]
      rw [if_pos verdict, same]
      rw [same] at verdict
      refine ⟨?_, stable, verdict.2⟩
      cases opamp : (softJP3Off sample).opampEn with
      | ON => rfl
      | OFF => exact opamp
    · exact Branch.noConfusion stopped

/-- The history of a run: what its calls and settings did, in order. -/
def history (start : Action ℚ) (events : List Event) : List (Note ℚ) :=
  ((charger Arith.exact).outputs start events).flatMap Report.notes

/-- A timer that runs in a run from the start of the daemon is justified. -/
theorem justified_run (arguments : List Argument) (events : List Event) :
    Justified (history (startParams 0 arguments) events)
      ((charger Arith.exact).run (startParams 0 arguments) events) := by
  obtain ⟨empty, stopped⟩ := startParams_idle (0 : ℚ) arguments
  have start : Justified [] (startParams (0 : ℚ) arguments) := by
    refine ⟨fun long => ?_, fun running => absurd stopped running⟩
    rw [empty] at long
    exact absurd long (by decide)
  refine (charger Arith.exact).outputs_invariant
    (fun past target => Justified (past.flatMap Report.notes) target) (fun _ => True)
    (fun past target event valid _ => ?_) _ events start (fun _ _ => trivial)
  have next := valid.step event
  rw [List.flatMap_append, List.flatMap_cons, List.flatMap_nil, List.append_nil]
  exact next

/-- **Stopping is justified.** Whenever a run from the start of the daemon stops
charging because of the history, the op-amp is off, the timer has been running for
more than `STABLE_TIME` and less than a day, and every value appended since it was
started was near its predecessor. -/
theorem stop_justified (arguments : List Argument) (before : List Event) (now : Clock)
    (sample : Bat3) :
    let start := startParams 0 arguments
    let load := doload Arith.exact now sample ((charger Arith.exact).run start before)
    load.branch = .stable →
      load.state.opampEn = .OFF ∧ 2 ≤ load.target.weightpos ∧ load.target.stableTime ≠ 0 ∧
        900 < now.day - load.target.stableTime ∧ now.day - load.target.stableTime < 86400 ∧
        NearSince (history start (before ++ [.load now sample])) load.target.stableTime := by
  intro start load stopped
  obtain ⟨off, stable, early⟩ := stable_of_branch stopped
  have valid := justified_run arguments (before ++ [.load now sample])
  rw [Machine.run_append] at valid
  have order := now.after_le
  have late := stable.2.2.2
  refine ⟨off, stable.1, stable.2.2.1, ?_, early, (valid.timer stable.2.2.1).2⟩
  exact lt_of_lt_of_le late (Int.sub_le_sub_right order _)

/-- Two equal voltages and a quarter of an hour stop the charger. -/
theorem stop_justified_quarter :
    let before : List Event :=
      [.setHours 0 (-1), .load (.still 1000) .blank, .load (.still 1001) .blank]
    let load := doload Arith.exact (.still 1902) .blank
      ((charger Arith.exact).run (startParams 0 []) before)
    900 < 1902 - load.target.stableTime ∧
      NearSince (history (startParams 0 []) (before ++ [.load (.still 1902) .blank]))
        load.target.stableTime := by
  intro before load
  obtain ⟨_, _, _, late, _, near⟩ :=
    stop_justified [] before (.still 1902) .blank (by decide +kernel)
  exact ⟨late, near⟩

end Stopping

end TsBat3

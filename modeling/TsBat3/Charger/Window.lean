import TsBat3.Foundation.Smoothing
import TsBat3.Charger.Recording
import Mathlib.Algebra.Order.Field.Rat
import Mathlib.Tactic.Linarith

/-! # The window of the voltage history

The weights are the terms of a running mean of the readings since the last reset, and the array
holds the newest of them, at most 29. Its last element is written by no call: when the window is
full, what is moved out of it is overwritten before it can be read.
-/

namespace TsBat3

section Window

variable {F : Type} (ar : Arith F)

/-- `weight[0..weightpos-1]` -/
def Action.window (target : Action F) : List F := (List.range target.weightpos).map target.weight

/-- The weights of some readings, since the history was empty. -/
def weights (readings : List Int) : List F := smooth ar.ofInt ar.blend readings

/-- The array holds the newest weights of the readings. -/
structure Windowed (readings : List Int) (target : Action F) : Prop where
  weightpos : target.weightpos = min readings.length (MAXMIN - 1)
  window : target.window = (weights ar readings).rtake target.weightpos

/-- A history is the same when its array and its position are. -/
theorem Windowed.of_same {ar : Arith F} {readings : List Int} {target next : Action F}
    (windowed : Windowed ar readings target)
    (same : next.weightpos = target.weightpos ∧ next.weight = target.weight) :
    Windowed ar readings next := by
  have window : next.window = target.window := by
    unfold Action.window
    rw [same.1, same.2]
  obtain ⟨weightpos, held⟩ := windowed
  rw [← same.1] at weightpos held
  exact ⟨weightpos, window.trans held⟩

private theorem windowed_reset (ar : Arith F) (target : Action F) :
    Windowed ar [] (resetHistory target) := ⟨rfl, rfl⟩

/-- Storing behind some elements of an array adds to them. -/
theorem map_range_update (weight : Nat → F) (pos : Nat) (value : F) :
    (List.range (pos + 1)).map (Function.update weight pos value) =
      (List.range pos).map weight ++ [value] := by
  rw [List.range_succ, List.map_append, List.map_singleton, Function.update_self]
  congr 1
  apply List.map_congr_left
  intro place member
  have small := List.mem_range.mp member
  exact Function.update_of_ne (Nat.ne_of_lt small) _ _

/-- The values that are moved to the front lose their first. -/
theorem map_range_shift (weight : Nat → F) :
    (List.range (MAXMIN - 2)).map (shift weight) =
      ((List.range (MAXMIN - 1)).map weight).tail := by
  rw [← List.map_tail]
  rfl

/-- **Appending** a weight drops the oldest one when the window is full. -/
theorem window_processFirstDegree {target : Action F} (newval : Int) :
    (processFirstDegree ar target newval).window =
      (if target.weightpos + 1 = MAXMIN then target.window.tail else target.window) ++
        [newweight ar target newval] := by
  unfold processFirstDegree Action.window
  dsimp only
  by_cases full : target.weightpos + 1 = MAXMIN
  · have place : target.weightpos = 28 + 1 := Nat.succ.inj full
    rw [if_pos full, if_pos full, place]
    exact (map_range_update (shift target.weight) 28 _).trans
      (congrArg (· ++ _) (map_range_shift target.weight))
  · rw [if_neg full, if_neg full]
    exact map_range_update target.weight target.weightpos _

/-- The newest weight of the window is the one that a new value is blended with. -/
theorem newweight_eq (target : Action F) (newval : Int) :
    newweight ar target newval = nextTerm ar.ofInt ar.blend target.window newval := by
  unfold newweight nextTerm Action.window Action.curr
  cases target.weightpos with
  | zero => rfl
  | succ pos =>
      rw [if_neg (Nat.succ_ne_zero pos), List.range_succ, List.map_append, List.map_singleton,
        List.getLast?_concat]
      rfl

variable {ar}

/-- In a window of the weights a new value is blended with the newest weight of all. -/
theorem Windowed.newweight {readings : List Int} {target : Action F}
    (windowed : Windowed ar readings target) (newval : Int) :
    TsBat3.newweight ar target newval =
      nextTerm ar.ofInt ar.blend (weights ar readings) newval := by
  rw [newweight_eq, windowed.window]
  unfold nextTerm
  cases readings using List.reverseRecOn with
  | nil =>
      have none : weights ar [] = [] := rfl
      rw [none, List.rtake_nil]
  | append_singleton readings reading =>
      have filled : target.weightpos ≠ 0 := by
        rw [windowed.weightpos, List.length_append, List.length_singleton]
        exact Nat.ne_of_gt (Nat.lt_min.mpr ⟨Nat.succ_pos _, by decide⟩)
      rw [getLast?_rtake _ filled]

/-- The position stops at the last element but one. -/
theorem weightpos_processFirstDegree {target : Action F} (inside : target.weightpos ≤ MAXMIN - 1)
    (newval : Int) :
    (processFirstDegree ar target newval).weightpos = min (target.weightpos + 1) (MAXMIN - 1) := by
  have bound : target.weightpos ≤ 29 := inside
  unfold processFirstDegree
  dsimp only
  change _ = min _ 29
  by_cases full : target.weightpos + 1 = MAXMIN
  · have place : target.weightpos = 29 := Nat.succ.inj full
    rw [if_pos full, place]
    rfl
  · have room : target.weightpos + 1 ≠ 30 := full
    rw [if_neg full]
    omega

/-- **One reading.** -/
theorem Windowed.append {readings : List Int} {target : Action F}
    (windowed : Windowed ar readings target) (newval : Int) :
    Windowed ar (readings ++ [newval]) (processFirstDegree ar target newval) := by
  have bound : target.weightpos = min readings.length 29 := windowed.weightpos
  have inside : target.weightpos ≤ 29 := by omega
  have pos : (processFirstDegree ar target newval).weightpos = min (target.weightpos + 1) 29 :=
    weightpos_processFirstDegree inside newval
  have grown : weights ar (readings ++ [newval]) =
      weights ar readings ++ [nextTerm ar.ofInt ar.blend (weights ar readings) newval] :=
    smooth_concat ar.ofInt ar.blend readings newval
  have sized : (weights ar readings).length = readings.length := length_smooth _ _ readings
  have appended := @window_processFirstDegree F ar target newval
  rw [windowed.newweight, windowed.window] at appended
  constructor
  · rw [pos, bound, List.length_append, List.length_singleton]
    change _ = min _ 29
    omega
  · rw [appended, pos, grown]
    by_cases full : target.weightpos + 1 = MAXMIN
    · have place : target.weightpos = 28 + 1 := Nat.succ.inj full
      have last : min (target.weightpos + 1) 29 = 28 + 1 := by omega
      rw [if_pos full, last, place, tail_rtake (by omega), List.rtake_concat_succ]
    · have room : target.weightpos + 1 ≠ 30 := full
      have next : min (target.weightpos + 1) 29 = target.weightpos + 1 := by omega
      rw [if_neg full, next, List.rtake_concat_succ]

/-! ### The elements of the array that are used -/

/-- The elements that `process_first_degree` reads or writes. -/
def processFirstDegreeTouched (target : Action F) : List Int :=
  (if target.weightpos = 0 then [] else [(target.weightpos : Int) - 1]) ++
    if target.weightpos + 1 = MAXMIN then
      (List.range (MAXMIN - 1)).flatMap (fun pos : Nat => [(pos : Int) + 1, (pos : Int)]) ++
        [(target.weightpos : Int) - 1]
    else [(target.weightpos : Int)]

/-- The elements that `check_stable` reads. -/
def checkStableTouched (target : Action F) : List Int :=
  if target.weightpos < 2 then [] else [(target.weightpos : Int) - 1, (target.weightpos : Int) - 2]

/-- A full history is moved as a whole. -/
theorem mem_processFirstDegreeTouched_full {target : Action F}
    (full : target.weightpos + 1 = MAXMIN) (index : Int) :
    index ∈ processFirstDegreeTouched target ↔ 0 ≤ index ∧ index < 30 := by
  have place : target.weightpos = 29 := Nat.succ.inj full
  unfold processFirstDegreeTouched
  rw [if_pos full, place]
  constructor
  · revert index
    decide
  · rintro ⟨low, high⟩
    refine List.mem_append_right _ (List.mem_append_left _ (List.mem_flatMap.mpr ?_))
    refine ⟨min index.toNat 28, List.mem_range.mpr ?_, ?_⟩
    · exact Nat.lt_succ_of_le (min_le_right _ 28)
    · rw [List.mem_cons, List.mem_singleton]
      omega

private theorem mem_processFirstDegreeTouched_room {target : Action F}
    (room : target.weightpos + 1 ≠ MAXMIN) (index : Int) :
    index ∈ processFirstDegreeTouched target ↔
      index = target.weightpos ∨ target.weightpos ≠ 0 ∧ index = target.weightpos - 1 := by
  unfold processFirstDegreeTouched
  rw [if_neg room, List.mem_append, List.mem_singleton, or_comm]
  split
  · rename_i empty
    simp only [List.not_mem_nil, empty, ne_eq, not_true_eq_false, false_and]
  · rename_i filled
    simp only [List.mem_singleton, filled, ne_eq, not_false_eq_true, true_and]

variable {target : Action F}

/-- Both functions stay in the array. -/
theorem Windowed.inBounds {readings : List Int} (windowed : Windowed ar readings target) :
    ∀ index ∈ processFirstDegreeTouched target ++ checkStableTouched target,
      0 ≤ index ∧ index ≤ 29 := by
  have bound : target.weightpos = min readings.length 29 := windowed.weightpos
  intro index member
  rcases List.mem_append.mp member with processed | checked
  · by_cases full : target.weightpos + 1 = MAXMIN
    · rw [mem_processFirstDegreeTouched_full full] at processed
      omega
    · rw [mem_processFirstDegreeTouched_room full] at processed
      omega
  · unfold checkStableTouched at checked
    split at checked
    · exact absurd checked List.not_mem_nil
    · rw [List.mem_cons, List.mem_singleton] at checked
      omega

/-- Nothing but what is touched is written. -/
theorem processFirstDegree_untouched {place : Nat}
    (apart : (place : Int) ∉ processFirstDegreeTouched target) (newval : Int) :
    (processFirstDegree ar target newval).weight place = target.weight place := by
  unfold processFirstDegree
  dsimp only
  by_cases full : target.weightpos + 1 = MAXMIN
  · rw [mem_processFirstDegreeTouched_full full] at apart
    have pos : target.weightpos = 29 := Nat.succ.inj full
    have outside : ¬ place + 1 < MAXMIN := by
      change ¬ place + 1 < 30
      omega
    rw [if_pos full, pos]
    exact (Function.update_of_ne (by omega) _ _).trans (if_neg outside)
  · rw [mem_processFirstDegreeTouched_room full] at apart
    rw [if_neg full]
    exact Function.update_of_ne (by omega) _ _

/-- **What is not touched is not read**: arrays that agree on what is touched get the same
weight, and agree there afterwards. -/
theorem processFirstDegree_agree {weight : Nat → F}
    (same : ∀ place : Nat, (place : Int) ∈ processFirstDegreeTouched target →
      weight place = target.weight place) (newval : Int) :
    newweight ar { target with weight } newval = newweight ar target newval ∧
      ∀ place : Nat, (place : Int) ∈ processFirstDegreeTouched target →
        (processFirstDegree ar { target with weight } newval).weight place =
          (processFirstDegree ar target newval).weight place := by
  have newest : newweight ar { target with weight } newval = newweight ar target newval := by
    unfold newweight Action.curr
    dsimp only
    by_cases empty : target.weightpos = 0
    · rw [if_pos empty, if_pos empty]
    · rw [if_neg empty, if_neg empty, same]
      unfold processFirstDegreeTouched
      rw [if_neg empty]
      exact List.mem_append_left _ (List.mem_singleton.mpr (by omega))
  refine ⟨newest, fun place member => ?_⟩
  unfold processFirstDegree
  rw [newest]
  dsimp only
  by_cases full : target.weightpos + 1 = MAXMIN
  · rw [if_pos full, if_pos full]
    have moved : shift weight place = shift target.weight place := by
      unfold shift
      split
      · rename_i inside
        refine same _ ((mem_processFirstDegreeTouched_full full _).mpr ?_)
        change place + 1 < 30 at inside
        omega
      · exact same _ member
    unfold Function.update
    split
    · rfl
    · exact moved
  · rw [if_neg full, if_neg full]
    unfold Function.update
    split
    · rfl
    · exact same _ member

/-- A check depends on the array where it touches it, and leaves it as it is. -/
theorem checkStable_agree {weight : Nat → F}
    (same : ∀ place : Nat, (place : Int) ∈ checkStableTouched target →
      weight place = target.weight place) (now : Time) :
    (checkStable ar now { target with weight }).stable = (checkStable ar now target).stable ∧
      (checkStable ar now { target with weight }).target =
        { (checkStable ar now target).target with weight } := by
  unfold checkStable
  dsimp only
  by_cases short : target.weightpos < 2
  · rw [if_pos short, if_pos short]
    exact ⟨rfl, rfl⟩
  have touched : checkStableTouched target =
      [(target.weightpos : Int) - 1, (target.weightpos : Int) - 2] := if_neg short
  rw [touched] at same
  simp only [List.mem_cons, List.not_mem_nil, or_false] at same
  have curr : Action.curr { target with weight } = target.curr :=
    same (target.weightpos - 1) (by omega)
  have prev : Action.prev { target with weight } = target.prev :=
    same (target.weightpos - 2) (by omega)
  rw [if_neg short, if_neg short, curr, prev]
  split
  · split
    · exact ⟨rfl, rfl⟩
    · exact ⟨rfl, rfl⟩
  · exact ⟨rfl, rfl⟩

/-! ### Readings of a run -/

/-- The readings since the last reset, after a note. -/
def Note.since (readings : List Int) : Note F → List Int
  | .appended newval _ _ => readings ++ [newval]
  | .reset => []
  | _ => readings

/-- The readings since the last reset. -/
def readingsSince (readings : List Int) (notes : List (Note F)) : List Int :=
  notes.foldl Note.since readings

private theorem readingsSince_append (readings : List Int) (first second : List (Note F)) :
    readingsSince readings (first ++ second) =
      readingsSince (readingsSince readings first) second := List.foldl_append

/-- A check leaves the window as it is. -/
theorem Windowed.check {readings : List Int} (windowed : Windowed ar readings target)
    (now : Time) :
    Windowed ar (readingsSince readings (checkStable ar now target).notes)
      (checkStable ar now target).target := by
  unfold checkStable
  split
  · exact windowed
  split
  · split
    · exact windowed.of_same ⟨rfl, rfl⟩
    · exact windowed
  · exact windowed.of_same ⟨rfl, rfl⟩

/-- Recording appends at most one reading. -/
theorem Windowed.record {readings : List Int} (windowed : Windowed ar readings target)
    (now : Clock) (batU : Word) :
    Windowed ar (readingsSince readings (record ar now batU target).2)
      (record ar now batU target).1 := by
  unfold TsBat3.record
  by_cases due : target.alarm ≤ now.entry
  · rw [if_pos due]
    dsimp only
    have alarmed : Windowed ar readings { target with alarm := now.record + 1 } :=
      windowed.of_same ⟨rfl, rfl⟩
    have checked := alarmed.check now.before
    split
    · exact checked
    · rw [readingsSince_append]
      exact checked.append batU.toNat
  · rw [if_neg due]
    exact windowed

/-- **One step** of the charger keeps the window. -/
theorem Windowed.step {readings : List Int} (windowed : Windowed ar readings target)
    (event : Event) :
    Windowed ar (readingsSince readings ((charger ar).step target event).2.notes)
      ((charger ar).step target event).1 := by
  cases event with
  | setCurrent i => exact windowed.of_same ⟨rfl, rfl⟩
  | setHours now i =>
      refine windowed.of_same ?_
      change (setHours now target i).weightpos = _ ∧ (setHours now target i).weight = _
      unfold setHours
      split
      · exact ⟨rfl, rfl⟩
      · exact ⟨rfl, rfl⟩
  | load now sample =>
      change Windowed ar (readingsSince readings (doload ar now sample target).notes)
        (doload ar now sample target).target
      rcases doload_cases ar now sample target with ⟨_, taken⟩ | ⟨_, _, taken⟩ | ⟨_, _, taken⟩
      · rw [taken]
        exact windowed_reset ar target
      · obtain ⟨same, silent⟩ := loadTimed_target now (softJP3Off sample) target
        rw [taken, same, silent]
        exact windowed
      · have checked := (windowed.record now (softJP3Off sample).batU).check now.after
        obtain ⟨same, noted⟩ := loadStable_target ar now (softJP3Off sample) target
        rw [taken, same, noted, readingsSince_append]
        exact checked

/-- The readings that a run leaves since its last reset. -/
def readingsOf (ar : Arith F) (start : Action F) (events : List Event) : List Int :=
  readingsSince [] (((charger ar).outputs start events).flatMap Report.notes)

/-- In every run from an empty history the array holds the newest weights. -/
theorem windowed_run {start : Action F} (empty : start.weightpos = 0) (events : List Event) :
    Windowed ar (readingsOf ar start events) ((charger ar).run start events) := by
  have fresh : Windowed ar [] start := (windowed_reset ar start).of_same ⟨empty, rfl⟩
  refine (charger ar).outputs_invariant
    (fun past target => Windowed ar (readingsSince [] (past.flatMap Report.notes)) target)
    (fun _ => True) (fun past target event windowed _ => ?_) start events fresh fun _ _ => trivial
  have next := windowed.step event
  rw [List.flatMap_append, List.flatMap_cons, List.flatMap_nil, List.append_nil,
    readingsSince_append]
  exact next

/-- The same for readings that are passed one after the other. -/
theorem windowed_foldl (ar : Arith F) (target : Action F) (readings : List Int) :
    Windowed ar readings (readings.foldl (processFirstDegree ar) (resetHistory target)) := by
  induction readings using List.reverseRecOn with
  | nil => exact windowed_reset ar target
  | append_singleton readings reading ih =>
      rw [List.foldl_concat]
      exact ih.append reading

end Window

/-! ### In exact arithmetic -/

section Exact

/-- The terms `w1 = v1`, `w(k+1) = v(k+1)*(1-FILTER) + wk*FILTER` of some readings, each of
them between two of the readings so far. -/
structure Filtered (readings : List Int) (terms : List ℚ) : Prop where
  length : terms.length = readings.length
  first : ∀ newval : Int, readings[0]? = some newval → terms[0]? = some (newval : ℚ)
  next : ∀ place (newval : Int) (prev : ℚ), readings[place + 1]? = some newval →
    terms[place]? = some prev →
      terms[place + 1]? = some (newval * (1 - 99 / 100) + prev * (99 / 100))
  between : ∀ place term, terms[place]? = some term →
    ∃ low ∈ readings.take (place + 1), ∃ high ∈ readings.take (place + 1),
      (low : ℚ) ≤ term ∧ term ≤ (high : ℚ)

private theorem exact_blend (newval : Int) (prev : ℚ) :
    Arith.exact.blend newval prev = newval * (1 - 99 / 100) + prev * (99 / 100) := by
  change (1 : ℚ) * newval * (1 - 99 / 100) + prev * (99 / 100) = _
  rw [one_mul]

private theorem exact_ofInt (newval : Int) : Arith.exact.ofInt newval = (newval : ℚ) := rfl

private theorem min_le_blend (newval : Int) (prev : ℚ) :
    min (Arith.exact.ofInt newval) prev ≤ Arith.exact.blend newval prev := by
  rw [exact_blend, exact_ofInt]
  have left := min_le_left (newval : ℚ) prev
  have right := min_le_right (newval : ℚ) prev
  linarith

private theorem blend_le_max (newval : Int) (prev : ℚ) :
    Arith.exact.blend newval prev ≤ max (Arith.exact.ofInt newval) prev := by
  rw [exact_blend, exact_ofInt]
  have left := le_max_left (newval : ℚ) prev
  have right := le_max_right (newval : ℚ) prev
  linarith

private theorem filtered_weights (readings : List Int) :
    Filtered readings (weights Arith.exact readings) where
  length := length_smooth _ _ readings
  first _ here := getElem?_smooth_zero _ _ here
  next _ newval prev here before := by
    rw [← exact_blend]
    exact getElem?_smooth_succ _ _ here before
  between _ _ here := smooth_between min_le_blend blend_le_max here

/-- What the array holds after some readings. -/
structure HistoryOf (readings : List Int) (target : Action ℚ) : Prop where
  weightpos : target.weightpos = min readings.length 29
  inBounds : ∀ index ∈ processFirstDegreeTouched target ++ checkStableTouched target,
    0 ≤ index ∧ index ≤ 29
  filtered : Filtered readings (weights .exact readings)
  window : target.window = (weights .exact readings).rtake target.weightpos

theorem Windowed.historyOf {readings : List Int} {target : Action ℚ}
    (windowed : Windowed Arith.exact readings target) : HistoryOf readings target where
  weightpos := windowed.weightpos
  inBounds := windowed.inBounds
  filtered := filtered_weights readings
  window := windowed.window

/-- **The voltage history**, after any readings behind a reset and in every run of the charger
from an empty history. What the array held before the reset does not matter. -/
theorem history_of_readings :
    (∀ (target : Action ℚ) (readings : List Int),
      HistoryOf readings (readings.foldl (processFirstDegree .exact) (resetHistory target))) ∧
    (∀ (target other : Action ℚ) (readings : List Int),
      (readings.foldl (processFirstDegree .exact) (resetHistory target)).window =
        (readings.foldl (processFirstDegree .exact) (resetHistory other)).window) ∧
    ∀ (start : Action ℚ) (events : List Event), start.weightpos = 0 →
      HistoryOf (readingsOf .exact start events) ((charger .exact).run start events) := by
  refine ⟨fun target readings => (windowed_foldl _ target readings).historyOf, ?_,
    fun start events empty => (windowed_run empty events).historyOf⟩
  intro target other readings
  have left := windowed_foldl .exact target readings
  have right := windowed_foldl .exact other readings
  rw [left.window, right.window, left.weightpos, right.weightpos]

/-- Two readings in a run from the start of the daemon. -/
theorem history_of_two_readings :
    let events : List Event :=
      [.setHours 0 (-1), .load (.still 1000) .blank, .load (.still 1001) .blank]
    HistoryOf (readingsOf .exact (startParams 0 []) events)
      ((charger .exact).run (startParams 0 []) events) :=
  history_of_readings.2.2 _ _ rfl

end Exact

end TsBat3

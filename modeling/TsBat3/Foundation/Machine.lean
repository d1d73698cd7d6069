import Mathlib.Data.List.Induction

/-! # Runs of a deterministic machine with outputs

A machine answers every event with an output and a new state. Properties of its
runs are stated about the list of all steps taken (`Machine.trace`) or about the
outputs so far together with the state reached (`Machine.outputs`,
`Machine.run`), and are proved from what one step preserves.
-/

/-- A deterministic machine that answers every event with an output. -/
structure Machine (σ ε ω : Type*) where
  step : σ → ε → σ × ω

namespace Machine

variable {σ ε ω : Type*}

/-- One step of a run: where it started, what happened, what was put out and
where it ended. -/
structure Step (σ ε ω : Type*) where
  before : σ
  event : ε
  output : ω
  after : σ

variable (machine : Machine σ ε ω)

/-- The step a machine takes from a state on an event. -/
def stepAt (state : σ) (event : ε) : Step σ ε ω where
  before := state
  event := event
  output := (machine.step state event).2
  after := (machine.step state event).1

/-- The state reached from `state` after all the events. -/
def run (state : σ) : List ε → σ
  | [] => state
  | event :: events => run (machine.step state event).1 events

/-- Every step taken from `state` on the events, in order. -/
def trace (state : σ) : List ε → List (Step σ ε ω)
  | [] => []
  | event :: events => machine.stepAt state event :: trace (machine.step state event).1 events

/-- The outputs put out from `state` on the events, in order. -/
def outputs (state : σ) (events : List ε) : List ω :=
  (machine.trace state events).map Step.output

@[simp] theorem run_nil (state : σ) : machine.run state [] = state := rfl

@[simp] theorem run_cons (state : σ) (event : ε) (events : List ε) :
    machine.run state (event :: events) = machine.run (machine.step state event).1 events := rfl

@[simp] theorem trace_nil (state : σ) : machine.trace state [] = [] := rfl

@[simp] theorem trace_cons (state : σ) (event : ε) (events : List ε) :
    machine.trace state (event :: events) =
      machine.stepAt state event :: machine.trace (machine.step state event).1 events := rfl

theorem run_append (state : σ) (first second : List ε) :
    machine.run state (first ++ second) = machine.run (machine.run state first) second := by
  induction first generalizing state with
  | nil => rfl
  | cons event first ih => exact ih _

theorem trace_append (state : σ) (first second : List ε) :
    machine.trace state (first ++ second) =
      machine.trace state first ++ machine.trace (machine.run state first) second := by
  induction first generalizing state with
  | nil => rfl
  | cons event first ih =>
      simp only [List.cons_append, trace_cons, run_cons, ih]

theorem outputs_append_singleton (state : σ) (events : List ε) (event : ε) :
    machine.outputs state (events ++ [event]) =
      machine.outputs state events ++ [(machine.step (machine.run state events) event).2] := by
  simp only [outputs, trace_append, List.map_append, trace_cons, trace_nil, List.map_cons,
    List.map_nil, stepAt]

/-- A step of a run is the machine's answer to one of its events at the state
reached by the events before. -/
theorem mem_trace (state : σ) (events : List ε) (taken : Step σ ε ω) :
    taken ∈ machine.trace state events ↔
      ∃ before event after, events = before ++ event :: after ∧
        taken = machine.stepAt (machine.run state before) event := by
  constructor
  · intro member
    induction events generalizing state with
    | nil => exact absurd member List.not_mem_nil
    | cons event events ih =>
        rcases List.mem_cons.mp member with same | later
        · exact ⟨[], event, events, rfl, same⟩
        · obtain ⟨before, other, after, split, reached⟩ := ih _ later
          exact ⟨event :: before, other, after, by rw [split, List.cons_append], reached⟩
  · rintro ⟨before, event, after, rfl, rfl⟩
    rw [trace_append]
    exact List.mem_append_right _ List.mem_cons_self

/-- The steps of a machine that an event leaves where it is. -/
theorem trace_replicate {state : σ} {event : ε} (still : (machine.step state event).1 = state)
    (count : Nat) : machine.trace state (List.replicate count event) =
      List.replicate count (machine.stepAt state event) := by
  induction count with
  | zero => rfl
  | succ count ih => rw [List.replicate_succ, List.replicate_succ, trace_cons, still, ih]

/-- What holds of every step that the machine can take holds of the steps of a run. -/
theorem forall_mem_trace {property : Step σ ε ω → Prop}
    (every : ∀ state event, property (machine.stepAt state event)) (state : σ) (events : List ε) :
    ∀ taken ∈ machine.trace state events, property taken := by
  intro taken member
  obtain ⟨before, event, after, -, rfl⟩ := (machine.mem_trace state events taken).mp member
  exact every _ event

/-- What happened in a step of a run is one of the run's events. -/
theorem event_mem {state : σ} {events : List ε} {taken : Step σ ε ω}
    (member : taken ∈ machine.trace state events) : taken.event ∈ events := by
  obtain ⟨before, event, after, rfl, rfl⟩ := (machine.mem_trace state events taken).mp member
  exact List.mem_append_right _ List.mem_cons_self

/-- A property of all outputs of a run, evaluated on the list of them, holds of the
output of every step. -/
theorem forall_of_all_outputs {ω : Type*} {machine : Machine σ ε (Option ω)} {state : σ}
    {events : List ε} {property : ω → Prop} [DecidablePred property]
    (all : (machine.outputs state events).all
      (fun output => output.elim true fun made => decide (property made)) = true) :
    ∀ taken ∈ machine.trace state events, ∀ made, taken.output = some made → property made := by
  intro taken member made put
  have evaluated := List.all_eq_true.mp all _ (List.mem_map_of_mem member)
  rw [put] at evaluated
  exact of_decide_eq_true evaluated

/-- **Run invariants.** What every allowed step preserves holds before and after
every step of a run of allowed steps. -/
theorem trace_invariant (inv : σ → Prop) (allowed : Step σ ε ω → Prop)
    (preserved : ∀ state event, inv state → allowed (machine.stepAt state event) →
      inv (machine.step state event).1)
    (state : σ) (events : List ε) (start : inv state)
    (every : ∀ taken ∈ machine.trace state events, allowed taken) :
    ∀ taken ∈ machine.trace state events, inv taken.before ∧ inv taken.after := by
  induction events generalizing state with
  | nil => exact fun taken member => absurd member List.not_mem_nil
  | cons event events ih =>
      have allowedNow := every _ List.mem_cons_self
      have next := preserved state event start allowedNow
      intro taken member
      rcases List.mem_cons.mp member with rfl | later
      · exact ⟨start, next⟩
      · exact ih _ next (fun other inside => every other (List.mem_cons_of_mem _ inside))
          taken later

/-- **Runs of good steps.** Where a property of a step depends on what led to it, good
steps have the property and preserve what it depends on, and no other step has it: then
all steps of a run have it when they are all good. -/
theorem trace_iff (inv : σ → Prop) (allowed property good : Step σ ε ω → Prop)
    (decided : ∀ state event, inv state → allowed (machine.stepAt state event) →
      (property (machine.stepAt state event) ↔ good (machine.stepAt state event)))
    (preserved : ∀ state event, inv state → allowed (machine.stepAt state event) →
      good (machine.stepAt state event) → inv (machine.step state event).1)
    (state : σ) (events : List ε) (start : inv state)
    (every : ∀ taken ∈ machine.trace state events, allowed taken) :
    (∀ taken ∈ machine.trace state events, property taken) ↔
      ∀ taken ∈ machine.trace state events, good taken := by
  induction events generalizing state with
  | nil =>
      refine iff_of_true ?_ ?_
      · exact fun taken member => absurd member List.not_mem_nil
      · exact fun taken member => absurd member List.not_mem_nil
  | cons event events ih =>
      rw [trace_cons, List.forall_mem_cons] at every ⊢
      rw [List.forall_mem_cons, decided state event start every.1]
      apply and_congr_right
      intro goodNow
      exact ih _ (preserved state event start every.1 goodNow) every.2

/-- **History invariants.** A relation between the outputs so far and the state
that every allowed step preserves holds at the end of every run of allowed
steps. -/
theorem outputs_invariant (inv : List ω → σ → Prop) (allowed : Step σ ε ω → Prop)
    (preserved : ∀ past state event, inv past state → allowed (machine.stepAt state event) →
      inv (past ++ [(machine.step state event).2]) (machine.step state event).1)
    (state : σ) (events : List ε) (start : inv [] state)
    (every : ∀ taken ∈ machine.trace state events, allowed taken) :
    inv (machine.outputs state events) (machine.run state events) := by
  induction events using List.reverseRecOn with
  | nil => exact start
  | append_singleton events event ih =>
      rw [trace_append] at every
      have reached := ih fun taken member => every taken (List.mem_append_left _ member)
      have allowedNow := every (machine.stepAt (machine.run state events) event)
        (List.mem_append_right _ List.mem_cons_self)
      rw [outputs_append_singleton, run_append]
      exact preserved _ _ event reached allowedNow

/-- A part of the state that no step of a run changes is the same at its end. -/
theorem run_constant {part : Type*} (read : σ → part) (state : σ) (events : List ε)
    (every : ∀ taken ∈ machine.trace state events, read taken.after = read taken.before) :
    read (machine.run state events) = read state := by
  induction events generalizing state with
  | nil => rfl
  | cons event events ih =>
      have now := every (machine.stepAt state event) List.mem_cons_self
      exact (ih _ fun taken member => every taken (List.mem_cons_of_mem _ member)).trans now

/-- A property that no step brings back has held all the time when it holds at the end. -/
theorem after_of_run (property : σ → Prop)
    (back : ∀ state event, property (machine.step state event).1 → property state) {state : σ}
    {events : List ε} (holds : property (machine.run state events)) :
    property state ∧ ∀ taken ∈ machine.trace state events, property taken.after := by
  induction events generalizing state with
  | nil => exact ⟨holds, fun taken member => absurd member List.not_mem_nil⟩
  | cons event events ih =>
      obtain ⟨now, later⟩ := ih holds
      refine ⟨back state event now, fun taken member => ?_⟩
      rcases List.mem_cons.mp member with rfl | follows
      · exact now
      · exact later taken follows

/-- **Trace invariants.** A relation between the steps so far and the state that every allowed
step preserves holds at the end of every run of allowed steps. -/
theorem trace_history (inv : List (Step σ ε ω) → σ → Prop) (allowed : Step σ ε ω → Prop)
    (preserved : ∀ past state event, inv past state → allowed (machine.stepAt state event) →
      inv (past ++ [machine.stepAt state event]) (machine.step state event).1)
    (state : σ) (events : List ε) (start : inv [] state)
    (every : ∀ taken ∈ machine.trace state events, allowed taken) :
    inv (machine.trace state events) (machine.run state events) := by
  induction events using List.reverseRecOn with
  | nil => exact start
  | append_singleton events event ih =>
      rw [trace_append] at every ⊢
      have reached := ih fun taken member => every taken (List.mem_append_left _ member)
      have allowedNow := every (machine.stepAt (machine.run state events) event)
        (List.mem_append_right _ List.mem_cons_self)
      rw [run_append]
      exact preserved _ _ event reached allowedNow

end Machine

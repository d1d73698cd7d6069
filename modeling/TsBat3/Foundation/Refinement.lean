import TsBat3.Foundation.Machine

/-! # Refinement of machines

A machine refines another one along a view of its states when each of its steps is a run of the
other machine in which the same can be observed. Then so is each of its runs, and what holds of all
states and observations of the other machine holds of those of the machine.
-/

namespace Machine

variable {σ ε ω τ δ ο ρ : Type*}

/-- Each step is a run of the other machine, with the same observations. -/
def Refines (machine : Machine σ ε ω) (spec : Machine τ δ ο) (view : σ → τ)
    (shown : ω → List ρ) (seen : ο → List ρ) : Prop :=
  ∀ state event, ∃ events : List δ,
    view (machine.step state event).1 = spec.run (view state) events ∧
      shown (machine.step state event).2 = (spec.outputs (view state) events).flatMap seen

variable {machine : Machine σ ε ω} {spec : Machine τ δ ο} {view : σ → τ}
  {shown : ω → List ρ} {seen : ο → List ρ}

theorem outputs_append (spec : Machine τ δ ο) (state : τ) (first second : List δ) :
    spec.outputs state (first ++ second) =
      spec.outputs state first ++ spec.outputs (spec.run state first) second := by
  unfold outputs
  rw [trace_append, List.map_append]

/-- **Each run** is a run of the other machine, with the same observations. -/
theorem Refines.run (refines : machine.Refines spec view shown seen) (state : σ)
    (events : List ε) :
    ∃ actions : List δ, view (machine.run state events) = spec.run (view state) actions ∧
      (machine.outputs state events).flatMap shown =
        (spec.outputs (view state) actions).flatMap seen := by
  induction events generalizing state with
  | nil => exact ⟨[], rfl, rfl⟩
  | cons event events ih =>
      obtain ⟨first, reached, made⟩ := refines state event
      obtain ⟨later, ends, makes⟩ := ih (machine.step state event).1
      refine ⟨first ++ later, ?_, ?_⟩
      · rw [run_cons, run_append, ends, reached]
      · rw [outputs_append, List.flatMap_append, ← made, ← reached, ← makes]
        rfl

/-- What every step of the other machine preserves holds in every state of a run. -/
theorem Refines.invariant (refines : machine.Refines spec view shown seen) {inv : τ → Prop}
    (preserved : ∀ state action, inv state → inv (spec.step state action).1) {state : σ}
    (start : inv (view state)) (events : List ε) : inv (view (machine.run state events)) := by
  obtain ⟨actions, reached, -⟩ := refines.run state events
  have kept (actions : List δ) (state : τ) (start : inv state) : inv (spec.run state actions) := by
    induction actions generalizing state with
    | nil => exact start
    | cons action actions ih => exact ih _ (preserved state action start)
  rw [reached]
  exact kept actions _ start

/-- What every step of the other machine shows only if it has a property has it in every run. -/
theorem Refines.observed (refines : machine.Refines spec view shown seen) {property : ρ → Prop}
    (every : ∀ state action, ∀ shows ∈ seen (spec.step state action).2, property shows)
    (state : σ) (events : List ε) :
    ∀ output ∈ machine.outputs state events, ∀ shows ∈ shown output, property shows := by
  intro output member shows among
  obtain ⟨actions, -, made⟩ := refines.run state events
  have observed : shows ∈ (spec.outputs (view state) actions).flatMap seen := by
    rw [← made]
    exact List.mem_flatMap.mpr ⟨output, member, among⟩
  obtain ⟨other, present, seenThere⟩ := List.mem_flatMap.mp observed
  obtain ⟨taken, inside, rfl⟩ := List.mem_map.mp present
  obtain ⟨before, action, after, -, rfl⟩ := (spec.mem_trace _ actions taken).mp inside
  exact every _ action shows seenThere

end Machine

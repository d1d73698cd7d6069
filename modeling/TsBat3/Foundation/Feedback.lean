import Mathlib.Algebra.Order.Ring.Int
import Mathlib.Data.Nat.Find
import Mathlib.Dynamics.FixedPoints.Basic

/-! # A regulator with a dead band

A regulator moves a place between two bounds against the error that it measures there: by a large
step when the error is large, by one when it is small, and not at all inside a dead band. Where the
error rises with the place, and not too steeply for the steps, the regulator comes to rest: in the
dead band, or at a bound that is too tight. The distance to a place of rest, counted twice and once
more while the error is large, falls with every move.
-/

/-- A step that brings a measure down unless it stays where it is has stayed there after as many
steps as the measure counts. -/
theorem isFixedPt_iterate_of_measure {α : Type*} {step : α → α} {inv : α → Prop}
    {measure : α → Nat} (kept : ∀ place, inv place → inv (step place))
    (falls : ∀ place, inv place → step place = place ∨ measure (step place) < measure place)
    {count : Nat} {place : α} (start : inv place) (enough : measure place ≤ count) :
    Function.IsFixedPt step (step^[count] place) := by
  induction count generalizing place with
  | zero =>
      rcases falls place start with still | less
      · exact still
      · exact absurd less (by omega)
  | succ count ih =>
      rw [Function.iterate_succ_apply]
      rcases falls place start with still | less
      · have rested : Function.IsFixedPt step place := still
        rw [still, (rested.iterate count).eq]
        exact rested
      · exact ih (kept place start) (by omega)

/-- The bounds of a regulator, its dead band, and its large steps. -/
structure Regulator where
  floor : Int
  ceiling : Int
  dead : Int
  far : Int
  stride : Int
  floor_le : floor ≤ ceiling
  dead_nonneg : 0 ≤ dead
  dead_le : dead ≤ far
  stride_pos : 0 < stride

namespace Regulator

variable (regulator : Regulator) (error : Int → Int)

def correction (difference : Int) : Int :=
  if difference > regulator.far then -regulator.stride
  else if difference < -regulator.far then regulator.stride
  else if difference > regulator.dead then -1
  else if difference < -regulator.dead then 1
  else 0

/-- The place after a measurement. -/
def move (place : Int) : Int :=
  min (max (place + regulator.correction (error place)) regulator.floor) regulator.ceiling

/-- The place is between the bounds. -/
def Within (place : Int) : Prop := regulator.floor ≤ place ∧ place ≤ regulator.ceiling

/-- The error is in the dead band, or at a bound and cannot be brought down. -/
def AtRest (place : Int) : Prop :=
  (-regulator.dead ≤ error place ∧ error place ≤ regulator.dead) ∨
    (place = regulator.floor ∧ regulator.dead < error place) ∨
    (place = regulator.ceiling ∧ error place < -regulator.dead)

/-- The error rises with the place: by no more than the dead band in a step of one, by no more than
a large error on each side in a large step, and from the dead band to a large error in no less
than half of one. -/
structure Tuned : Prop where
  rising : ∀ low high, low ≤ high → error low ≤ error high
  small : ∀ place, error (place + 1) ≤ error place + 2 * regulator.dead
  large : ∀ place, error (place + regulator.stride) ≤ error place + 2 * regulator.far
  apart : ∀ low high, low ≤ high → 2 * (high - low) < regulator.stride →
    error high ≤ error low + (regulator.far - regulator.dead)

variable {regulator error} {place rest : Int}

theorem within_move (place : Int) : regulator.Within (regulator.move error place) :=
  ⟨le_min (le_max_right _ _) regulator.floor_le, min_le_right _ _⟩

/-- A regulator at rest stays. -/
theorem move_atRest (within : regulator.Within place) (rested : regulator.AtRest error place) :
    regulator.move error place = place := by
  obtain ⟨low, high⟩ := within
  have dead := regulator.dead_nonneg
  have far := regulator.dead_le
  have stride := regulator.stride_pos
  unfold move correction
  rcases rested with ⟨above, below⟩ | ⟨bound, short⟩ | ⟨bound, excess⟩
  · split_ifs <;> omega
  · split_ifs <;> omega
  · split_ifs <;> omega

/-- A regulator that stays is at rest. -/
theorem atRest_of_move (within : regulator.Within place)
    (still : regulator.move error place = place) : regulator.AtRest error place := by
  obtain ⟨low, high⟩ := within
  have dead := regulator.dead_nonneg
  have far := regulator.dead_le
  have stride := regulator.stride_pos
  unfold move correction at still
  unfold AtRest
  split_ifs at still <;> omega

/-- A large error. -/
def Far (regulator : Regulator) (difference : Int) : Prop :=
  difference > regulator.far ∨ difference < -regulator.far

instance : DecidablePred regulator.Far := fun _ => inferInstanceAs (Decidable (_ ∨ _))

/-- The distance from a place of rest. -/
def distance (regulator : Regulator) (error : Int → Int) (rest place : Int) : Nat :=
  2 * (place - rest).natAbs + if regulator.Far (error place) then 1 else 0

/-- There is a place of rest between the bounds. -/
theorem exists_atRest (tuned : regulator.Tuned error) :
    ∃ rest, regulator.Within rest ∧ regulator.AtRest error rest := by
  have ordered := regulator.floor_le
  by_cases short : regulator.dead < error regulator.floor
  · exact ⟨regulator.floor, ⟨le_rfl, ordered⟩, Or.inr (Or.inl ⟨rfl, short⟩)⟩
  by_cases excess : error regulator.ceiling < -regulator.dead
  · exact ⟨regulator.ceiling, ⟨ordered, le_rfl⟩, Or.inr (Or.inr ⟨rfl, excess⟩)⟩
  -- the first place from the floor on at which the error is not below the dead band
  have reached : ∃ count : Nat, -regulator.dead ≤ error (regulator.floor + count) :=
    ⟨(regulator.ceiling - regulator.floor).toNat, by
      rw [Int.toNat_of_nonneg (by omega), add_sub_cancel]
      exact not_lt.mp excess⟩
  obtain ⟨count, above, first⟩ : ∃ count : Nat,
      -regulator.dead ≤ error (regulator.floor + count) ∧
        ∀ earlier : Nat, earlier < count → error (regulator.floor + earlier) < -regulator.dead :=
    ⟨Nat.find reached, Nat.find_spec reached, fun earlier early =>
      not_le.mp (Nat.find_min reached early)⟩
  have below : error (regulator.floor + count) ≤ regulator.dead := by
    cases count with
    | zero => simpa using short
    | succ count =>
        have missed := first count (Nat.lt_succ_self count)
        have step := tuned.small (regulator.floor + count)
        rw [Nat.cast_succ, ← add_assoc]
        omega
  refine ⟨regulator.floor + count, ⟨by omega, ?_⟩, Or.inl ⟨above, below⟩⟩
  by_contra past
  have missed := first (regulator.ceiling - regulator.floor).toNat (by omega)
  rw [Int.toNat_of_nonneg (by omega), add_sub_cancel] at missed
  exact excess missed

/-- Where the error is above the dead band, a place of rest is further down. -/
theorem rest_lt (tuned : regulator.Tuned error) (rested : regulator.AtRest error rest)
    (within : regulator.Within place) (above : regulator.dead < error place)
    (off : place ≠ regulator.floor) :
    rest < place ∧ (rest = regulator.floor ∨ error rest ≤ regulator.dead) := by
  have dead := regulator.dead_nonneg
  rcases rested with ⟨-, below⟩ | ⟨bound, -⟩ | ⟨bound, excess⟩
  · refine ⟨?_, Or.inr below⟩
    by_contra further
    have more := tuned.rising place rest (not_lt.mp further)
    omega
  · exact ⟨by have := within.1; omega, Or.inl bound⟩
  · have more := tuned.rising place rest (bound ▸ within.2)
    omega

/-- Where the error is below the dead band, a place of rest is further up. -/
theorem lt_rest (tuned : regulator.Tuned error) (rested : regulator.AtRest error rest)
    (within : regulator.Within place) (below : error place < -regulator.dead)
    (off : place ≠ regulator.ceiling) :
    place < rest ∧ (rest = regulator.ceiling ∨ -regulator.dead ≤ error rest) := by
  have dead := regulator.dead_nonneg
  rcases rested with ⟨above, -⟩ | ⟨bound, short⟩ | ⟨bound, -⟩
  · refine ⟨?_, Or.inr above⟩
    by_contra further
    have more := tuned.rising rest place (not_lt.mp further)
    omega
  · have more := tuned.rising rest place (bound ▸ within.1)
    omega
  · exact ⟨by have := within.2; omega, Or.inl bound⟩

/-- A move comes closer when it ends nearer to the place of rest, or no further from it and out of
the large errors. -/
theorem distance_lt {next : Int}
    (closer : (next - rest).natAbs < (place - rest).natAbs ∨
      ((next - rest).natAbs ≤ (place - rest).natAbs ∧ regulator.Far (error place) ∧
        ¬ regulator.Far (error next))) :
    regulator.distance error rest next < regulator.distance error rest place := by
  unfold distance
  rcases closer with less | ⟨less, far, near⟩
  · split_ifs <;> omega
  · rw [if_pos far, if_neg near]
    omega

/-- A move down comes closer. -/
theorem distance_down (tuned : regulator.Tuned error) (rested : regulator.AtRest error rest)
    (within : regulator.Within place) (above : regulator.dead < error place) :
    regulator.move error place = place ∨
      regulator.distance error rest (regulator.move error place) <
        regulator.distance error rest place := by
  by_cases bottom : place = regulator.floor
  · exact Or.inl (move_atRest within (Or.inr (Or.inl ⟨bottom, above⟩)))
  obtain ⟨further, target⟩ := rest_lt tuned rested within above bottom
  obtain ⟨low, high⟩ := within
  have dead := regulator.dead_nonneg
  have stride := regulator.stride_pos
  have order := regulator.dead_le
  refine Or.inr (distance_lt ?_)
  by_cases far : error place > regulator.far
  · have moved : regulator.move error place =
        max (place - regulator.stride) regulator.floor := by
      unfold move correction
      rw [if_pos far]
      omega
    rw [moved]
    generalize next : max (place - regulator.stride) regulator.floor = reached
    by_cases short : rest ≤ reached
    · exact Or.inl (by omega)
    · have inner : error rest ≤ regulator.dead := target.resolve_left (by omega)
      have long : regulator.stride ≤ 2 * (place - rest) := by
        by_contra brief
        have near := tuned.apart rest place further.le (not_le.mp brief)
        omega
      have stepped := tuned.large (place - regulator.stride)
      rw [sub_add_cancel] at stepped
      have above := tuned.rising (place - regulator.stride) reached (by omega)
      have below := tuned.rising reached rest (by omega)
      exact Or.inr ⟨by omega, Or.inl far, fun again => by rcases again <;> omega⟩
  · have moved : regulator.move error place = place - 1 := by
      unfold move correction
      rw [if_neg far, if_neg (by omega), if_pos above]
      omega
    rw [moved]
    exact Or.inl (by omega)

/-- A move up comes closer. -/
theorem distance_up (tuned : regulator.Tuned error) (rested : regulator.AtRest error rest)
    (within : regulator.Within place) (below : error place < -regulator.dead) :
    regulator.move error place = place ∨
      regulator.distance error rest (regulator.move error place) <
        regulator.distance error rest place := by
  by_cases top : place = regulator.ceiling
  · exact Or.inl (move_atRest within (Or.inr (Or.inr ⟨top, below⟩)))
  obtain ⟨further, target⟩ := lt_rest tuned rested within below top
  obtain ⟨low, high⟩ := within
  have dead := regulator.dead_nonneg
  have stride := regulator.stride_pos
  have order := regulator.dead_le
  refine Or.inr (distance_lt ?_)
  by_cases far : error place < -regulator.far
  · have moved : regulator.move error place =
        min (place + regulator.stride) regulator.ceiling := by
      unfold move correction
      rw [if_neg (by omega), if_pos far]
      omega
    rw [moved]
    generalize next : min (place + regulator.stride) regulator.ceiling = reached
    by_cases short : reached ≤ rest
    · exact Or.inl (by omega)
    · have inner : -regulator.dead ≤ error rest := target.resolve_left (by omega)
      have long : regulator.stride ≤ 2 * (rest - place) := by
        by_contra brief
        have near := tuned.apart place rest further.le (not_le.mp brief)
        omega
      have stepped := tuned.large place
      have above := tuned.rising rest reached (by omega)
      have below := tuned.rising reached (place + regulator.stride) (by omega)
      exact Or.inr ⟨by omega, Or.inr far, fun again => by rcases again <;> omega⟩
  · have moved : regulator.move error place = place + 1 := by
      unfold move correction
      rw [if_neg (by omega), if_neg far, if_neg (by omega), if_pos below]
      omega
    rw [moved]
    exact Or.inl (by omega)

/-- **A move comes closer** to every place of rest, unless it stays. -/
theorem distance_move (tuned : regulator.Tuned error) (rested : regulator.AtRest error rest)
    (within : regulator.Within place) :
    regulator.move error place = place ∨
      regulator.distance error rest (regulator.move error place) <
        regulator.distance error rest place := by
  by_cases above : regulator.dead < error place
  · exact distance_down tuned rested within above
  by_cases below : error place < -regulator.dead
  · exact distance_up tuned rested within below
  · exact Or.inl (move_atRest within (Or.inl ⟨not_lt.mp below, not_lt.mp above⟩))

/-- **A regulator comes to rest**, in no more moves than twice the room between its bounds and
one. -/
theorem rests (tuned : regulator.Tuned error) (within : regulator.Within place) {count : Nat}
    (enough : 2 * (regulator.ceiling - regulator.floor) + 1 ≤ count) :
    regulator.AtRest error ((regulator.move error)^[count] place) := by
  obtain ⟨rest, inside, rested⟩ := exists_atRest tuned
  have bounded : regulator.distance error rest place ≤ count := by
    unfold distance
    obtain ⟨low, high⟩ := within
    obtain ⟨floor, ceiling⟩ := inside
    split_ifs <;> omega
  have still := isFixedPt_iterate_of_measure (fun place _ => within_move place)
    (fun place within => distance_move tuned rested within) within bounded
  refine atRest_of_move ?_ still
  rw [← still.eq]
  exact within_move _

end Regulator

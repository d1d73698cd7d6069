import Mathlib.Algebra.Order.Ring.Int

/-! # Bisection

A search for the place at which a condition on the integers changes. It keeps a window, tests
the middle and goes on with one of the halves. A window may be narrowed by a reading of any
place, so that its ends need not be in order.
-/

/-- The window of a search. -/
structure SearchWindow where
  lo : Int
  hi : Int

namespace SearchWindow

def width (window : SearchWindow) : Int := window.hi - window.lo

/-- The place that is tested. -/
def mid (window : SearchWindow) : Int := window.lo + window.width.tdiv 2

/-- What a reading at a place leaves of a window. -/
def narrow (window : SearchWindow) (place : Int) (above : Bool) : SearchWindow :=
  if above then { window with lo := place } else { window with hi := place }

/-- The search is at its end. -/
def Settled (window : SearchWindow) : Prop := window.width < 2

instance (window : SearchWindow) : Decidable window.Settled := inferInstanceAs (Decidable (_ < _))

/-- Half of a width is rounded towards 0. -/
theorem half_spec (width : Int) :
    ∃ rest, width = 2 * width.tdiv 2 + rest ∧
      (0 ≤ width → 0 ≤ rest ∧ rest ≤ 1) ∧ (width ≤ 0 → -1 ≤ rest ∧ rest ≤ 0) := by
  refine ⟨width.tmod 2, (Int.mul_tdiv_add_tmod width 2).symm, fun nonneg => ?_, fun nonpos => ?_⟩
  · have low := Int.tmod_nonneg 2 nonneg
    have high := Int.tmod_lt_of_pos width (show (0 : Int) < 2 by decide)
    omega
  · have flipped : (-width).tmod 2 = -(width.tmod 2) := Int.neg_tmod width 2
    have low := Int.tmod_nonneg 2 (show 0 ≤ -width by omega)
    have high := Int.tmod_lt_of_pos (-width) (show (0 : Int) < 2 by decide)
    omega

/-- A window within some bounds is tested within them. -/
theorem mid_within {window : SearchWindow} {floor ceiling : Int}
    (lo : floor ≤ window.lo ∧ window.lo ≤ ceiling) (hi : floor ≤ window.hi ∧ window.hi ≤ ceiling) :
    floor ≤ window.mid ∧ window.mid ≤ ceiling := by
  obtain ⟨rest, half, nonneg, nonpos⟩ := half_spec window.width
  unfold mid
  unfold width at half nonneg nonpos ⊢
  rcases le_total window.lo window.hi with ordered | reversed
  · have positive := nonneg (by omega)
    omega
  · have negative := nonpos (by omega)
    omega

/-- The middle of a search that goes on is inside its window. -/
theorem mid_inside {window : SearchWindow} (going : ¬ window.Settled) :
    window.lo < window.mid ∧ window.mid < window.hi := by
  obtain ⟨rest, half, nonneg, _⟩ := half_spec window.width
  unfold Settled at going
  unfold mid
  have positive := nonneg (by omega)
  unfold width at half going ⊢
  omega

/-- **Halving.** -/
theorem width_narrow {window : SearchWindow} {count : Nat} (above : Bool)
    (wide : window.width ≤ 2 ^ (count + 1)) (going : ¬ window.Settled) :
    (window.narrow window.mid above).width ≤ 2 ^ count := by
  obtain ⟨rest, half, nonneg, _⟩ := half_spec window.width
  unfold Settled at going
  have positive := nonneg (by omega)
  rw [pow_succ] at wide
  unfold narrow mid
  cases above with
  | true =>
      rw [if_pos rfl]
      unfold width at half wide ⊢
      dsimp only
      omega
  | false =>
      rw [if_neg Bool.false_ne_true]
      unfold width at half wide ⊢
      dsimp only
      omega

/-- The condition has been found at the lower end and missed at the upper one, as far as these
have been moved. -/
structure Encloses (above : Int → Prop) (floor ceiling : Int) (window : SearchWindow) : Prop where
  ordered : window.lo < window.hi
  floor_le : floor ≤ window.lo
  le_ceiling : window.hi ≤ ceiling
  lower : window.lo = floor ∨ above window.lo
  upper : window.hi = ceiling ∨ ¬ above window.hi

/-- **A reading in the middle** of a search that goes on keeps what its window encloses. -/
theorem Encloses.narrow {above : Int → Prop} [DecidablePred above] {floor ceiling : Int}
    {window : SearchWindow} (encloses : window.Encloses above floor ceiling)
    (going : ¬ window.Settled) :
    (window.narrow window.mid (decide (above window.mid))).Encloses above floor ceiling := by
  obtain ⟨ordered, floor_le, le_ceiling, lower, upper⟩ := encloses
  obtain ⟨low, high⟩ := mid_inside going
  unfold SearchWindow.narrow
  by_cases found : above window.mid
  · rw [decide_eq_true found, if_pos rfl]
    exact ⟨high, floor_le.trans low.le, le_ceiling, Or.inr found, upper⟩
  · rw [decide_eq_false found, if_neg Bool.false_ne_true]
    exact ⟨low, floor_le, high.le.trans le_ceiling, lower, Or.inr found⟩

/-- At the end of a search the ends of its window are neighbours. -/
theorem Encloses.hi_eq {above : Int → Prop} {floor ceiling : Int} {window : SearchWindow}
    (encloses : window.Encloses above floor ceiling) (settled : window.Settled) :
    window.hi = window.lo + 1 ∧ window.mid = window.lo := by
  have ordered := encloses.ordered
  unfold Settled width at settled
  have next : window.hi = window.lo + 1 := by omega
  refine ⟨next, ?_⟩
  unfold mid width
  rw [next, add_sub_cancel_left]
  exact add_zero window.lo

/-- **The place of the change.** Of a condition that holds below every place at which it holds,
a search at its end has found where it stops. -/
theorem Encloses.found {above : Int → Prop}
    (lower : ∀ low high, low ≤ high → above high → above low) {floor ceiling : Int}
    {window : SearchWindow} (encloses : window.Encloses above floor ceiling)
    (settled : window.Settled) {place : Int} (inside : floor < place ∧ place < ceiling) :
    above place ↔ place ≤ window.mid := by
  obtain ⟨next, mid⟩ := encloses.hi_eq settled
  rw [mid]
  constructor
  · intro found
    by_contra later
    rcases encloses.upper with top | missed
    · omega
    · exact missed (lower _ _ (by omega) found)
  · intro early
    rcases encloses.lower with bottom | found
    · omega
    · exact lower _ _ early found

end SearchWindow

import Mathlib.Data.List.DropRight
import Mathlib.Data.List.Induction
import Mathlib.Order.Lattice

/-! # Running means and the newest of them

A running mean makes a term of every reading: the first reading as it is, each later one blended
with the term before. When blending stays between its arguments every term lies between two of
the readings so far. A window keeps the newest entries of a list that grows.
-/

section Smoothing

variable {α β : Type*} (first : α → β) (blend : α → β → β)

/-- The term that a reading adds to those before. -/
def nextTerm (terms : List β) (reading : α) : β :=
  terms.getLast?.elim (first reading) (blend reading)

/-- The terms of some readings. -/
def smooth (readings : List α) : List β :=
  readings.foldl (fun terms reading => terms ++ [nextTerm first blend terms reading]) []

@[simp] theorem smooth_nil : smooth first blend [] = [] := rfl

theorem smooth_concat (readings : List α) (reading : α) :
    smooth first blend (readings ++ [reading]) =
      smooth first blend readings ++ [nextTerm first blend (smooth first blend readings) reading] :=
  List.foldl_concat _ _ _ _

@[simp] theorem length_smooth (readings : List α) :
    (smooth first blend readings).length = readings.length := by
  induction readings using List.reverseRecOn with
  | nil => rfl
  | append_singleton readings reading ih =>
      rw [smooth_concat, List.length_append, List.length_append, ih]
      rfl

/-- A term depends on the readings so far. -/
theorem take_smooth (readings : List α) (count : Nat) :
    (smooth first blend readings).take count = smooth first blend (readings.take count) := by
  induction readings using List.reverseRecOn with
  | nil => rw [smooth_nil, List.take_nil, List.take_nil, smooth_nil]
  | append_singleton readings reading ih =>
      by_cases early : count ≤ readings.length
      · rw [smooth_concat, List.take_append_of_le_length (by rwa [length_smooth]),
          List.take_append_of_le_length early, ih]
      · rw [List.take_of_length_le, List.take_of_length_le]
        · rw [List.length_append, List.length_singleton]
          omega
        · rw [length_smooth, List.length_append, List.length_singleton]
          omega

/-- The term at a place is the last one of the readings up to there. -/
theorem getLast?_smooth_take {readings : List α} {place : Nat}
    (inside : place < readings.length) :
    (smooth first blend (readings.take (place + 1))).getLast? =
      (smooth first blend readings)[place]? := by
  have bound : place < (smooth first blend readings).length := by rwa [length_smooth]
  rw [← take_smooth, List.getLast?_take, if_neg (Nat.succ_ne_zero place), Nat.add_sub_cancel,
    List.getElem?_eq_getElem bound]
  rfl

/-- **The recurrence.** -/
theorem getElem?_smooth {readings : List α} {place : Nat} {reading : α}
    (here : readings[place]? = some reading) :
    (smooth first blend readings)[place]? =
      some (nextTerm first blend (smooth first blend (readings.take place)) reading) := by
  obtain ⟨inside, at_place⟩ := List.getElem?_eq_some_iff.mp here
  rw [← getLast?_smooth_take first blend inside, ← List.take_append_getElem inside, smooth_concat,
    List.getLast?_concat, at_place]

theorem getElem?_smooth_zero {readings : List α} {reading : α}
    (here : readings[0]? = some reading) :
    (smooth first blend readings)[0]? = some (first reading) := by
  rw [getElem?_smooth first blend here, List.take_zero]
  rfl

theorem getElem?_smooth_succ {readings : List α} {place : Nat} {reading : α} {term : β}
    (here : readings[place + 1]? = some reading)
    (before : (smooth first blend readings)[place]? = some term) :
    (smooth first blend readings)[place + 1]? = some (blend reading term) := by
  obtain ⟨inside, -⟩ := List.getElem?_eq_some_iff.mp here
  rw [getElem?_smooth first blend here, nextTerm,
    getLast?_smooth_take first blend (Nat.lt_of_succ_lt inside), before]
  rfl

variable {first blend} [LinearOrder β]

/-- The newest term lies between two of the readings. -/
theorem getLast?_smooth_between
    (low_le : ∀ reading term, min (first reading) term ≤ blend reading term)
    (le_high : ∀ reading term, blend reading term ≤ max (first reading) term)
    {readings : List α} {term : β} (last : (smooth first blend readings).getLast? = some term) :
    ∃ low ∈ readings, ∃ high ∈ readings, first low ≤ term ∧ term ≤ first high := by
  induction readings using List.reverseRecOn generalizing term with
  | nil => cases last
  | append_singleton readings reading ih =>
      rw [smooth_concat, List.getLast?_concat, Option.some.injEq] at last
      have newest : reading ∈ readings ++ [reading] :=
        List.mem_append_right _ List.mem_cons_self
      subst last
      unfold nextTerm
      cases previous : (smooth first blend readings).getLast? with
      | none => exact ⟨reading, newest, reading, newest, le_rfl, le_rfl⟩
      | some prev =>
          obtain ⟨low, lowIn, high, highIn, above, below⟩ := ih previous
          have under := low_le reading prev
          have upper := le_high reading prev
          have old {other : α} (inside : other ∈ readings) : other ∈ readings ++ [reading] :=
            List.mem_append_left _ inside
          rcases le_total (first reading) prev with less | less
          · rw [min_eq_left less] at under
            rw [max_eq_right less] at upper
            exact ⟨reading, newest, high, old highIn, under, upper.trans below⟩
          · rw [min_eq_right less] at under
            rw [max_eq_left less] at upper
            exact ⟨low, old lowIn, reading, newest, above.trans under, upper⟩

/-- **Terms stay among the readings.** -/
theorem smooth_between
    (low_le : ∀ reading term, min (first reading) term ≤ blend reading term)
    (le_high : ∀ reading term, blend reading term ≤ max (first reading) term)
    {readings : List α} {place : Nat} {term : β}
    (here : (smooth first blend readings)[place]? = some term) :
    ∃ low ∈ readings.take (place + 1), ∃ high ∈ readings.take (place + 1),
      first low ≤ term ∧ term ≤ first high := by
  obtain ⟨inside, -⟩ := List.getElem?_eq_some_iff.mp here
  rw [length_smooth] at inside
  rw [← getLast?_smooth_take first blend inside] at here
  exact getLast?_smooth_between low_le le_high here

end Smoothing

section Window

variable {α : Type*}

/-- A window that is full gives up its oldest entry. -/
theorem tail_rtake {entries : List α} {count : Nat} (full : count < entries.length) :
    (entries.rtake (count + 1)).tail = entries.rtake count := by
  unfold List.rtake
  rw [List.tail_drop]
  congr 1
  omega

/-- The newest entry is in every window. -/
theorem getLast?_rtake (entries : List α) {count : Nat} (some : count ≠ 0) :
    (entries.rtake count).getLast? = entries.getLast? := by
  unfold List.rtake
  rw [List.getLast?_drop]
  by_cases empty : entries.length ≤ entries.length - count
  · have none : entries = [] := List.eq_nil_of_length_eq_zero (by omega)
    rw [if_pos empty, none, List.getLast?_nil]
  · rw [if_neg empty]

end Window

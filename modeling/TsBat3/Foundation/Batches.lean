import Mathlib.Algebra.Order.BigOperators.Group.List
import Mathlib.Algebra.Order.Field.Basic
import Mathlib.Data.List.SplitBy

/-! # Batches of items and means of readings

Items that come one after the other with the same key are a batch. An item joins the last batch or
begins one. Readings that are collected in an array are its first cells, and their mean lies
within all bounds that they have.
-/

section Batches

variable {α κ : Type*} [DecidableEq κ] (key : α → κ)

/-- The items, taken apart where the key changes. -/
def batches (items : List α) : List (List α) :=
  items.splitBy fun item other => key item == key other

variable {key}

/-- An item with another key begins a batch. -/
theorem batches_concat_other {items : List α} {item : α}
    (other : ∀ last ∈ items.getLast?, key last ≠ key item) :
    batches key (items ++ [item]) = batches key items ++ [[item]] :=
  List.splitBy_append_cons [] fun last member => beq_false_of_ne (other last member)

theorem batches_eq_nil {items : List α} : batches key items = [] ↔ items = [] :=
  List.splitBy_eq_nil

/-- The last batch ends where the items end. -/
theorem getLast?_batch {items batch : List α} {front : List (List α)}
    (split : batches key items = front ++ [batch]) : items.getLast? = batch.getLast? := by
  have filled : batch ≠ [] := by
    apply List.ne_nil_of_mem_splitBy (l := items) (r := fun item other => key item == key other)
    change batch ∈ batches key items
    rw [split]
    exact List.mem_append_right _ List.mem_cons_self
  have whole : (batches key items).flatten = items := List.flatten_splitBy _ items
  rw [← whole, split, List.flatten_append, List.flatten_singleton,
    List.getLast?_append_of_ne_nil _ filled]

theorem exists_last_batch (key : α → κ) {items : List α} (some : items ≠ []) :
    ∃ front batch, batches key items = front ++ [batch] ∧ batch.getLast? = items.getLast? := by
  obtain ⟨front, batch, split⟩ :=
    (List.eq_nil_or_concat' _).resolve_left (mt batches_eq_nil.mp some : batches key items ≠ [])
  exact ⟨front, batch, split, (getLast?_batch split).symm⟩

/-- An item with the same key joins the last batch. -/
theorem batches_concat_same {items batch : List α} {front : List (List α)} {item : α}
    (split : batches key items = front ++ [batch])
    (same : ∀ last ∈ items.getLast?, key last = key item) :
    batches key (items ++ [item]) = front ++ [batch ++ [item]] := by
  have ends := getLast?_batch split
  obtain ⟨whole, filled, chains, apart⟩ := List.splitBy_eq_iff.mp split
  rw [List.mem_append, not_or] at filled
  have some : batch ≠ [] := fun none => filled.2 (none ▸ List.mem_cons_self)
  rw [List.isChain_append] at apart
  obtain ⟨before, -, next⟩ := apart
  refine List.splitBy_eq_iff.mpr ⟨?_, ?_, fun run member => ?_, ?_⟩
  · rw [whole, List.flatten_append, List.flatten_append, List.flatten_singleton,
      List.flatten_singleton, List.append_assoc]
  · rw [List.mem_append, not_or]
    refine ⟨filled.1, fun none => ?_⟩
    exact List.append_ne_nil_of_right_ne_nil _ (List.cons_ne_nil item [])
      (List.mem_singleton.mp none).symm
  · rcases List.mem_append.mp member with earlier | last
    · exact chains run (List.mem_append_left _ earlier)
    · rw [List.mem_singleton.mp last, List.isChain_append]
      refine ⟨chains batch (List.mem_append_right _ List.mem_cons_self),
        List.isChain_singleton _, fun final member other single => ?_⟩
      rw [← Option.some.inj single]
      exact beq_iff_eq.mpr (same final (ends ▸ member))
  · rw [List.isChain_append]
    refine ⟨before, List.isChain_singleton _, fun earlier member later single => ?_⟩
    obtain ⟨begun, _, differ⟩ := next earlier member batch rfl
    rw [← Option.some.inj single]
    refine ⟨begun, List.append_ne_nil_of_left_ne_nil some _, ?_⟩
    rwa [List.head_append_of_ne_nil some]

/-- An item with the same key ends no batch. -/
theorem dropLast_batches_same {items : List α} {item : α}
    (same : ∀ last ∈ items.getLast?, key last = key item) :
    (batches key (items ++ [item])).dropLast = (batches key items).dropLast := by
  rcases List.eq_nil_or_concat' (batches key items) with none | ⟨front, batch, split⟩
  · rw [batches_eq_nil.mp none]
    rfl
  · rw [batches_concat_same split same, split, List.dropLast_concat, List.dropLast_concat]

/-- An item with another key ends the last batch. -/
theorem dropLast_batches_other {items : List α} {item : α}
    (other : ∀ last ∈ items.getLast?, key last ≠ key item) :
    (batches key (items ++ [item])).dropLast = batches key items := by
  rw [batches_concat_other other, List.dropLast_concat]

/-- The items of a batch have one key. -/
theorem key_batch {items batch : List α} (member : batch ∈ batches key items) :
    ∀ item ∈ batch, ∀ other ∈ batch, key item = key other := by
  have chain : batch.IsChain fun item other => key item = key other :=
    (List.isChain_of_mem_splitBy member).imp fun _ _ same => beq_iff_eq.mp same
  have : IsTrans α fun item other => key item = key other := ⟨fun _ _ _ => Eq.trans⟩
  have : Std.Symm fun item other : α => key item = key other := ⟨fun _ _ => Eq.symm⟩
  exact (List.isChain_iff_pairwise.mp chain).forall_of_forall fun _ _ => rfl

end Batches

/-! ### Means -/

section Means

/-- A value lies within all bounds that some readings have. -/
def Between {β : Type*} [LE β] (readings : List β) (value : β) : Prop :=
  ∀ low high, (∀ reading ∈ readings, low ≤ reading ∧ reading ≤ high) → low ≤ value ∧ value ≤ high

variable {β : Type*} [Field β] [LinearOrder β] [IsStrictOrderedRing β]

theorem between_mean {readings : List β} (some : readings ≠ []) :
    Between readings (readings.sum / readings.length) := by
  intro low high bounds
  have count : (0 : β) < readings.length := Nat.cast_pos.mpr (List.length_pos_iff.mpr some)
  have above := List.card_nsmul_le_sum readings low fun reading member => (bounds reading member).1
  have below := List.sum_le_card_nsmul readings high fun reading member => (bounds reading member).2
  rw [nsmul_eq_mul] at above below
  constructor
  · rwa [le_div_iff₀ count, mul_comm]
  · rwa [div_le_iff₀ count, mul_comm]

/-- What lies between some of the readings lies between all of them. -/
theorem Between.mono {β : Type*} [LE β] {some all : List β} {value : β}
    (between : Between some value) (subset : some ⊆ all) : Between all value :=
  fun low high bounds => between low high fun reading member => bounds reading (subset member)

end Means

/-! ### Arrays -/

section Cells

variable {α : Type*}

/-- The first cells of an array. -/
def cells (arr : Nat → α) (count : Nat) : List α := (List.range count).map arr

/-- Another reading is stored behind the first cells. -/
theorem cells_update (arr : Nat → α) (count : Nat) (reading : α) :
    cells (Function.update arr count reading) (count + 1) = cells arr count ++ [reading] := by
  unfold cells
  rw [List.range_succ, List.map_append, List.map_singleton, Function.update_self]
  congr 1
  apply List.map_congr_left
  intro place inside
  exact Function.update_of_ne (List.mem_range.mp inside).ne _ _

end Cells

import Mathlib.Data.List.Nodup

/-! # Marks and epochs

In a list some items begin a new epoch behind them, and items carry marks. The marks
are all in different epochs exactly when an epoch ends between any two of them.
-/

section Epochs

variable {α : Type*} (marks : α → Nat) (ends : α → Bool)

/-- The epochs of the marks on a list, when the list begins in `epoch`. -/
def epochs (epoch : Nat) : List α → List Nat
  | [] => []
  | item :: items =>
      List.replicate (marks item) epoch ++
        epochs (if ends item then epoch + 1 else epoch) items

/-- No two marked items of a list are in one epoch: an item that ends the epoch of the
first stands before the second. -/
def Apart (items : List α) : Prop :=
  ∀ earlier first between second later,
    items = earlier ++ first :: (between ++ second :: later) →
      0 < marks first → 0 < marks second → ∃ item ∈ first :: between, ends item = true

variable {marks ends}

theorem le_of_mem_epochs {epoch number : Nat} {items : List α}
    (member : number ∈ epochs marks ends epoch items) : epoch ≤ number := by
  induction items generalizing epoch with
  | nil => exact absurd member List.not_mem_nil
  | cons item items ih =>
      rcases List.mem_append.mp member with here | later
      · exact Nat.le_of_eq (List.eq_of_mem_replicate here).symm
      · have behind := ih later
        split at behind
        · exact Nat.le_of_succ_le behind
        · exact behind

/-- The epoch in which a list begins has a mark when a marked item stands before the
epoch's end. -/
theorem mem_epochs_iff {epoch : Nat} {items : List α} :
    epoch ∈ epochs marks ends epoch items ↔
      ∃ between second later, items = between ++ second :: later ∧ 0 < marks second ∧
        ∀ item ∈ between, ends item = false := by
  induction items with
  | nil =>
      refine ⟨fun member => absurd member List.not_mem_nil, ?_⟩
      rintro ⟨between, second, later, split, _⟩
      cases between <;> cases split
  | cons item items ih =>
      rw [epochs, List.mem_append, List.mem_replicate]
      constructor
      · rintro (⟨marked, _⟩ | member)
        · exact ⟨[], item, items, rfl, Nat.pos_of_ne_zero marked,
            fun other none => absurd none List.not_mem_nil⟩
        · cases ended : ends item with
          | true =>
              rw [if_pos ended] at member
              exact absurd (le_of_mem_epochs member) (Nat.not_succ_le_self epoch)
          | false =>
              rw [if_neg (Bool.eq_false_iff.mp ended)] at member
              obtain ⟨between, second, later, rfl, marked, inside⟩ := ih.mp member
              refine ⟨item :: between, second, later, rfl, marked, fun other among => ?_⟩
              rcases List.mem_cons.mp among with rfl | deeper
              · exact ended
              · exact inside other deeper
      · rintro ⟨between, second, later, split, marked, inside⟩
        cases between with
        | nil =>
            obtain ⟨rfl, rfl⟩ := List.cons.inj split
            exact Or.inl ⟨Nat.ne_of_gt marked, rfl⟩
        | cons head between =>
            obtain ⟨rfl, rest⟩ := List.cons.inj split
            have ended : ends item = false := inside item List.mem_cons_self
            rw [if_neg (Bool.eq_false_iff.mp ended)]
            exact Or.inr (ih.mpr ⟨between, second, later, rest, marked,
              fun other among => inside other (List.mem_cons_of_mem _ among)⟩)

/-- The marks on a list are apart when those behind its first item are, and the first
item's epoch has no mark behind it. -/
theorem apart_cons {item : α} {items : List α} :
    Apart marks ends (item :: items) ↔
      Apart marks ends items ∧ (0 < marks item → ends item = false →
        ∀ between second later, items = between ++ second :: later → 0 < marks second →
          ∃ other ∈ between, ends other = true) := by
  constructor
  · intro apart
    refine ⟨fun earlier first between second later split => ?_, ?_⟩
    · exact apart (item :: earlier) first between second later (congrArg (item :: ·) split)
    · intro marked ended between second later split again
      obtain ⟨other, among, ends⟩ :=
        apart [] item between second later (congrArg (item :: ·) split) marked again
      rcases List.mem_cons.mp among with rfl | deeper
      · exact Bool.noConfusion (ended.symm.trans ends)
      · exact ⟨other, deeper, ends⟩
  · rintro ⟨apart, alone⟩ earlier first between second later split marked again
    cases earlier with
    | nil =>
        obtain ⟨rfl, rest⟩ := List.cons.inj split
        cases ended : ends item with
        | true => exact ⟨item, List.mem_cons_self, ended⟩
        | false =>
            obtain ⟨other, among, ends⟩ := alone marked ended between second later rest again
            exact ⟨other, List.mem_cons_of_mem _ among, ends⟩
    | cons head earlier =>
        exact apart earlier first between second later (List.cons.inj split).2 marked again

/-- **One mark for each epoch.** When no item has more than one mark, the marks are in
different epochs exactly when they are apart. -/
theorem nodup_epochs_iff {epoch : Nat} {items : List α} (single : ∀ item ∈ items, marks item ≤ 1) :
    (epochs marks ends epoch items).Nodup ↔ Apart marks ends items := by
  induction items generalizing epoch with
  | nil =>
      refine ⟨fun _ earlier first between second later split => ?_, fun _ => List.nodup_nil⟩
      cases earlier <;> cases split
  | cons item items ih =>
      have rest := @ih (if ends item then epoch + 1 else epoch)
        fun other member => single other (List.mem_cons_of_mem _ member)
      have here : (List.replicate (marks item) epoch).Nodup :=
        List.nodup_replicate.mpr (single item List.mem_cons_self)
      have meets : List.Disjoint (List.replicate (marks item) epoch)
          (epochs marks ends (if ends item then epoch + 1 else epoch) items) ↔
          (0 < marks item → ends item = false →
            ∀ between second later, items = between ++ second :: later → 0 < marks second →
              ∃ other ∈ between, ends other = true) := by
        have single : List.Disjoint (List.replicate (marks item) epoch)
            (epochs marks ends (if ends item then epoch + 1 else epoch) items) ↔
            (0 < marks item →
              epoch ∉ epochs marks ends (if ends item then epoch + 1 else epoch) items) :=
          ⟨fun disjoint marked => disjoint (List.mem_replicate.mpr ⟨Nat.ne_of_gt marked, rfl⟩),
            fun absent number left right => absent
              (Nat.pos_of_ne_zero (List.mem_replicate.mp left).1)
              (List.eq_of_mem_replicate left ▸ right)⟩
        rw [single]
        refine forall_congr' fun marked => ?_
        cases ended : ends item with
        | true =>
            rw [if_pos rfl]
            exact ⟨fun _ same => Bool.noConfusion same,
              fun _ member => absurd (le_of_mem_epochs member) (Nat.not_succ_le_self epoch)⟩
        | false =>
            rw [if_neg Bool.false_ne_true, mem_epochs_iff]
            simp only [true_implies, not_exists, not_and, not_forall, Bool.not_eq_false]
            constructor
            · intro absent between second later split again
              obtain ⟨other, among, ends⟩ := absent between second later split again
              exact ⟨other, among, ends⟩
            · intro present between second later split again
              obtain ⟨other, among, ends⟩ := present between second later split again
              exact ⟨other, among, ends⟩
      rw [epochs, List.nodup_append', apart_cons, rest, meets]
      exact ⟨fun both => ⟨both.2.1, both.2.2⟩, fun both => ⟨here, both.1, both.2⟩⟩

end Epochs

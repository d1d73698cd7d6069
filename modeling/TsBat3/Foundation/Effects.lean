import Mathlib.Order.Defs.Unbundled

/-! # What a program may do to its state

`Keeps rel prog` says that a relation holds between the state in which a program starts and
the state that it leaves. Relations that are reflexive and transitive are kept by a program
when its parts keep them.
-/

theorem run_bind_state {σ α β : Type} (first : StateM σ α) (rest : α → StateM σ β) (state : σ) :
    (first >>= rest).run state = (rest (first.run state).1).run (first.run state).2 := rfl

/-- The relation holds between the state a program starts in and the one it leaves. -/
def Keeps {σ α : Type} (rel : σ → σ → Prop) (prog : StateM σ α) : Prop :=
  ∀ state, rel state (prog.run state).2

namespace Keeps

variable {σ α β : Type} {rel : σ → σ → Prop}

theorem pure [Std.Refl rel] (value : α) : Keeps rel (Pure.pure value) :=
  fun state => Std.Refl.refl state

theorem get [Std.Refl rel] : Keeps rel (MonadState.get : StateM σ σ) :=
  fun state => Std.Refl.refl state

theorem update {change : σ → σ} (kept : ∀ state, rel state (change state)) :
    Keeps rel (modify change : StateM σ PUnit) := kept

theorem bind [IsTrans σ rel] {first : StateM σ α} {rest : α → StateM σ β}
    (before : Keeps rel first) (after : ∀ value, Keeps rel (rest value)) :
    Keeps rel (first >>= rest) :=
  fun state => IsTrans.trans _ _ _ (before state) (after _ _)

theorem ite {condition : Prop} [Decidable condition] {first second : StateM σ α}
    (yes : condition → Keeps rel first) (no : ¬ condition → Keeps rel second) :
    Keeps rel (if condition then first else second) := by
  by_cases holds : condition
  · rw [if_pos holds]
    exact yes holds
  · rw [if_neg holds]
    exact no holds

/-- What comes second need only be looked at for the values that come first. -/
theorem bind_value [IsTrans σ rel] {first : StateM σ α} {rest : α → StateM σ β}
    (value : α → Prop) (before : Keeps rel first) (values : ∀ state, value (first.run state).1)
    (after : ∀ found, value found → Keeps rel (rest found)) : Keeps rel (first >>= rest) :=
  fun state => IsTrans.trans _ _ _ (before state) (after _ (values state) _)

end Keeps

/-- The relation holds between the two states whenever the program returns a value of a kind. -/
def KeepsIf {σ α : Type} (good : α → Prop) (rel : σ → σ → Prop) (prog : StateM σ α) : Prop :=
  ∀ state, good (prog.run state).1 → rel state (prog.run state).2

namespace KeepsIf

variable {σ α β : Type} {good : β → Prop} {rel : σ → σ → Prop}

theorem of_keeps {prog : StateM σ β} (kept : Keeps rel prog) : KeepsIf good rel prog :=
  fun state _ => kept state

theorem bind [IsTrans σ rel] {first : StateM σ α} {rest : α → StateM σ β}
    (before : Keeps rel first) (after : ∀ value, KeepsIf good rel (rest value)) :
    KeepsIf good rel (first >>= rest) :=
  fun state fine => IsTrans.trans _ _ _ (before state) (after _ _ fine)

/-- A program that ends in a value of another kind need not keep anything. -/
theorem bind_pure {first : StateM σ α} {value : β} (bad : ¬ good value) :
    KeepsIf good rel (first >>= fun _ => Pure.pure value) :=
  fun _ fine => absurd fine bad

theorem ite {condition : Prop} [Decidable condition] {first second : StateM σ β}
    (yes : condition → KeepsIf good rel first) (no : ¬ condition → KeepsIf good rel second) :
    KeepsIf good rel (if condition then first else second) := by
  by_cases holds : condition
  · rw [if_pos holds]
    exact yes holds
  · rw [if_neg holds]
    exact no holds

end KeepsIf

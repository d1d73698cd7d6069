import Mathlib.Algebra.BigOperators.Group.List.Basic
import Mathlib.Data.List.Basic

/-! # Byte stuffing and complement checksums

A stuffing code sends a reserved symbol as an escape symbol followed by the
flipped form of the symbol, so that the reserved symbols themselves are free to
delimit frames. `Stuffing.unstuff` undoes `Stuffing.stuff`; `Stuffing.scan` is
the same reading for a body that may be cut off. `Stuffing.pairs` are the places
at which a body has an escape pair, counted in read symbols.

A complement checksum makes the sum of a message and its check symbol a fixed
total.
-/

/-- A code that sends each reserved symbol as `esc` and its flipped form. -/
structure Stuffing (α : Type*) where
  esc : α
  flip : α → α
  reserved : α → Bool
  reserved_esc : reserved esc = true
  flip_flip : ∀ symbol, flip (flip symbol) = symbol
  plain_flip : ∀ symbol, reserved symbol = true → reserved (flip symbol) = false

namespace Stuffing

variable {α : Type*} (code : Stuffing α)

/-- What one symbol is sent as. -/
def stuffSymbol (symbol : α) : List α :=
  if code.reserved symbol then [code.esc, code.flip symbol] else [symbol]

def stuff (message : List α) : List α := message.flatMap code.stuffSymbol

@[simp] theorem stuff_nil : code.stuff [] = [] := rfl

@[simp] theorem stuff_cons (symbol : α) (message : List α) :
    code.stuff (symbol :: message) = code.stuffSymbol symbol ++ code.stuff message := rfl

theorem stuff_append (first second : List α) :
    code.stuff (first ++ second) = code.stuff first ++ code.stuff second :=
  List.flatMap_append

/-- A message without reserved symbols is sent as it is. -/
theorem stuff_of_plain {message : List α}
    (plain : ∀ symbol ∈ message, code.reserved symbol = false) : code.stuff message = message := by
  induction message with
  | nil => rfl
  | cons symbol message ih =>
      rw [stuff_cons, stuffSymbol, plain symbol List.mem_cons_self,
        ih fun later member => plain later (List.mem_cons_of_mem _ member)]
      rfl

theorem esc_ne_of_plain {symbol : α} (plain : code.reserved symbol = false) :
    symbol ≠ code.esc := by
  rintro rfl
  rw [code.reserved_esc] at plain
  exact Bool.noConfusion plain

/-- Only the escape symbol is both sent and reserved. -/
theorem plain_of_mem_stuff {message : List α} {sent : α} (member : sent ∈ code.stuff message)
    (other : sent ≠ code.esc) : code.reserved sent = false := by
  obtain ⟨symbol, _, inside⟩ := List.mem_flatMap.mp member
  unfold stuffSymbol at inside
  by_cases reserved : code.reserved symbol = true
  · simp only [reserved, ↓reduceIte, List.mem_cons, List.not_mem_nil, or_false] at inside
    rcases inside with rfl | rfl
    · exact absurd rfl other
    · exact code.plain_flip symbol reserved
  · simp only [reserved, Bool.false_eq_true, ↓reduceIte, List.mem_singleton] at inside
    subst inside
    exact Bool.eq_false_iff.mpr reserved

/-- A stuffed message has one more symbol for each reserved one. -/
theorem length_stuff (message : List α) :
    (code.stuff message).length = message.length + message.countP code.reserved := by
  induction message with
  | nil => rfl
  | cons symbol message ih =>
      rw [stuff_cons, List.length_append, List.length_cons, List.countP_cons, ih]
      unfold stuffSymbol
      split
      · change 2 + _ = _
        omega
      · change 1 + _ = _
        omega

theorem length_stuff_le (message : List α) :
    (code.stuff message).length ≤ 2 * message.length := by
  have some := @List.countP_le_length α code.reserved message
  rw [length_stuff]
  omega

/-- **Every escape symbol opens a pair.** Where a stuffed message has an escape symbol, the
symbols in front of it are whole units, and it is followed by the flipped form of the reserved
symbol that it is sent for. -/
theorem split_of_esc {message before after : List α}
    (split : code.stuff message = before ++ code.esc :: after) :
    ∃ read symbol rest, message = read ++ symbol :: rest ∧ code.reserved symbol = true ∧
      before = code.stuff read ∧ after = code.flip symbol :: code.stuff rest := by
  induction message generalizing before with
  | nil => exact absurd split.symm (List.append_ne_nil_of_right_ne_nil _ (List.cons_ne_nil _ _))
  | cons symbol message ih =>
      rw [stuff_cons] at split
      unfold stuffSymbol at split
      by_cases reserved : code.reserved symbol = true
      · rw [if_pos reserved, List.cons_append, List.cons_append, List.nil_append] at split
        rcases before with _ | ⟨first, _ | ⟨second, before⟩⟩
        · obtain ⟨-, rest⟩ := List.cons.inj split
          exact ⟨[], symbol, message, rfl, reserved, rfl, rest.symm⟩
        · -- the flipped form of a reserved symbol is none itself
          obtain ⟨escape, -⟩ := List.cons.inj (List.cons.inj split).2
          exact absurd escape (code.esc_ne_of_plain (code.plain_flip symbol reserved))
        · obtain ⟨rfl, tail⟩ := List.cons.inj split
          obtain ⟨rfl, later⟩ := List.cons.inj tail
          obtain ⟨read, other, rest, rfl, escaped, rfl, rfl⟩ := ih later
          refine ⟨symbol :: read, other, rest, rfl, escaped, ?_, rfl⟩
          rw [stuff_cons, stuffSymbol, if_pos reserved]
          rfl
      · rw [if_neg reserved, List.cons_append, List.nil_append] at split
        cases before with
        | nil =>
            obtain ⟨escape, -⟩ := List.cons.inj split
            exact absurd escape (code.esc_ne_of_plain (Bool.eq_false_iff.mpr reserved))
        | cons first before =>
            obtain ⟨rfl, later⟩ := List.cons.inj split
            obtain ⟨read, other, rest, rfl, escaped, rfl, rfl⟩ := ih later
            refine ⟨symbol :: read, other, rest, rfl, escaped, ?_, rfl⟩
            rw [stuff_cons, stuffSymbol, if_neg reserved]
            rfl

/-- **Where a stuffed message can be cut**: behind a symbol of the message, or within a pair. -/
theorem prefix_stuff {message part : List α} (begins : part <+: code.stuff message) :
    ∃ cut, cut <+: message ∧ (part = code.stuff cut ∨ part = code.stuff cut ++ [code.esc]) := by
  induction message generalizing part with
  | nil => exact ⟨[], List.nil_prefix, Or.inl (List.prefix_nil.mp begins)⟩
  | cons symbol message ih =>
      rw [stuff_cons] at begins
      have longer {rest : List α} (later : rest <+: code.stuff message) :
          ∃ cut, cut <+: symbol :: message ∧
            (code.stuffSymbol symbol ++ rest = code.stuff cut ∨
              code.stuffSymbol symbol ++ rest = code.stuff cut ++ [code.esc]) := by
        obtain ⟨cut, inside, rfl | rfl⟩ := ih later
        · exact ⟨symbol :: cut, (List.prefix_cons_inj symbol).mpr inside, Or.inl rfl⟩
        · exact ⟨symbol :: cut, (List.prefix_cons_inj symbol).mpr inside,
            Or.inr (List.append_assoc _ _ _).symm⟩
      unfold stuffSymbol at begins longer
      by_cases reserved : code.reserved symbol = true
      · rw [if_pos reserved] at begins longer
        rcases part with _ | ⟨first, _ | ⟨second, rest⟩⟩
        · exact ⟨[], List.nil_prefix, Or.inl rfl⟩
        · obtain ⟨rfl, -⟩ := List.cons_prefix_cons.mp begins
          exact ⟨[], List.nil_prefix, Or.inr rfl⟩
        · obtain ⟨rfl, tail⟩ := List.cons_prefix_cons.mp begins
          obtain ⟨rfl, later⟩ := List.cons_prefix_cons.mp tail
          exact longer later
      · rw [if_neg reserved] at begins longer
        cases part with
        | nil => exact ⟨[], List.nil_prefix, Or.inl rfl⟩
        | cons first rest =>
            obtain ⟨rfl, later⟩ := List.cons_prefix_cons.mp begins
            exact longer later

variable [DecidableEq α]

/-- Read a body unit by unit. A body that ends in the middle of an escape pair
has no reading. -/
def unstuff : List α → Option (List α)
  | [] => some []
  | symbol :: body =>
      if symbol = code.esc then
        match body with
        | [] => none
        | second :: body => (unstuff body).map (code.flip second :: ·)
      else (unstuff body).map (symbol :: ·)

@[simp] theorem unstuff_nil : code.unstuff [] = some [] := rfl

@[simp] theorem unstuff_esc : code.unstuff [code.esc] = none := by
  simp only [unstuff, ↓reduceIte]

@[simp] theorem unstuff_pair (symbol : α) (body : List α) :
    code.unstuff (code.esc :: symbol :: body) =
      (code.unstuff body).map (code.flip symbol :: ·) := by
  simp only [unstuff, ↓reduceIte]

theorem unstuff_plain {symbol : α} (other : symbol ≠ code.esc) (body : List α) :
    code.unstuff (symbol :: body) = (code.unstuff body).map (symbol :: ·) := by
  cases body <;> simp only [unstuff, other, ↓reduceIte]

/-- **Induction on units.** What holds of an empty body, and is kept when a pair or a plain symbol
comes in front, holds of every body of whole units and what it is read as. -/
@[elab_as_elim]
theorem unit_induction {motive : List α → List α → Prop} (nil : motive [] [])
    (pair : ∀ symbol body message, motive body message →
      motive (code.esc :: symbol :: body) (code.flip symbol :: message))
    (plain : ∀ symbol body message, symbol ≠ code.esc → motive body message →
      motive (symbol :: body) (symbol :: message))
    {body message : List α} (reads : code.unstuff body = some message) : motive body message := by
  induction body using unstuff.induct code generalizing message with
  | case1 =>
      rw [← Option.some.inj reads]
      exact nil
  | case2 =>
      rw [unstuff_esc] at reads
      cases reads
  | case3 second body ih =>
      rw [unstuff_pair, Option.map_eq_some_iff] at reads
      obtain ⟨rest, inner, rfl⟩ := reads
      exact pair second body rest (ih inner)
  | case4 symbol body other ih =>
      rw [unstuff_plain code other, Option.map_eq_some_iff] at reads
      obtain ⟨rest, inner, rfl⟩ := reads
      exact plain symbol body rest other (ih inner)

/-- A stuffed message reads as that message. -/
theorem unstuff_stuff (message : List α) : code.unstuff (code.stuff message) = some message := by
  induction message with
  | nil => rfl
  | cons symbol message ih =>
      rw [stuff_cons]
      unfold stuffSymbol
      by_cases reserved : code.reserved symbol = true
      · simp only [reserved, ↓reduceIte, List.cons_append, List.nil_append, unstuff_pair, ih,
          Option.map_some, code.flip_flip]
      · have other := code.esc_ne_of_plain (Bool.eq_false_iff.mpr reserved)
        simp only [reserved, Bool.false_eq_true, ↓reduceIte, List.cons_append, List.nil_append,
          unstuff_plain code other, ih, Option.map_some]

/-- Read a body that may be cut off: an escape symbol at its end stands for
itself. -/
def scan : List α → List α
  | [] => []
  | symbol :: body =>
      if symbol = code.esc then
        match body with
        | [] => [symbol]
        | second :: body => code.flip second :: scan body
      else symbol :: scan body

@[simp] theorem scan_nil : code.scan [] = [] := rfl

@[simp] theorem scan_esc : code.scan [code.esc] = [code.esc] := by
  simp only [scan, ↓reduceIte]

@[simp] theorem scan_pair (symbol : α) (body : List α) :
    code.scan (code.esc :: symbol :: body) = code.flip symbol :: code.scan body := by
  simp only [scan, ↓reduceIte]

theorem scan_plain {symbol : α} (other : symbol ≠ code.esc) (body : List α) :
    code.scan (symbol :: body) = symbol :: code.scan body := by
  cases body <;> simp only [scan, other, ↓reduceIte]

/-- A body of whole units is read the same way in front of another body. -/
theorem scan_append {body message : List α} (reads : code.unstuff body = some message)
    (tail : List α) : code.scan (body ++ tail) = message ++ code.scan tail := by
  refine code.unit_induction ?nil ?pair ?plain reads
  case nil => rfl
  case pair =>
    intro symbol body message ih
    rw [List.cons_append, List.cons_append, scan_pair, ih, List.cons_append]
  case plain =>
    intro symbol body message other ih
    rw [List.cons_append, scan_plain code other, ih, List.cons_append]

theorem scan_eq_of_unstuff {body message : List α} (reads : code.unstuff body = some message) :
    code.scan body = message := by
  have same := code.scan_append reads []
  rwa [List.append_nil, scan_nil, List.append_nil] at same

@[simp] theorem scan_stuff (message : List α) : code.scan (code.stuff message) = message :=
  code.scan_eq_of_unstuff (code.unstuff_stuff message)

/-- **One damaged symbol.** When one symbol of a body is replaced by another, and neither is the
escape symbol, the two bodies are read alike but for one symbol. -/
theorem scan_replace {old new : α} (oldPlain : old ≠ code.esc) (newPlain : new ≠ code.esc)
    (changed : old ≠ new) (before after : List α) :
    ∃ read left right rest, left ≠ right ∧
      code.scan (before ++ old :: after) = read ++ left :: rest ∧
      code.scan (before ++ new :: after) = read ++ right :: rest := by
  induction before using scan.induct code with
  | case1 =>
      refine ⟨[], old, new, code.scan after, changed, ?_, ?_⟩
      · exact code.scan_plain oldPlain after
      · exact code.scan_plain newPlain after
  | case2 =>
      -- the damaged symbol is the second half of a pair
      refine ⟨[], code.flip old, code.flip new, code.scan after, ?_, ?_, ?_⟩
      · intro same
        rw [← code.flip_flip old, same, code.flip_flip] at changed
        exact changed rfl
      · exact code.scan_pair old after
      · exact code.scan_pair new after
  | case3 flipped body ih =>
      obtain ⟨read, left, right, rest, apart, first, second⟩ := ih
      refine ⟨code.flip flipped :: read, left, right, rest, apart, ?_, ?_⟩
      · rw [List.cons_append, List.cons_append, scan_pair, first, List.cons_append]
      · rw [List.cons_append, List.cons_append, scan_pair, second, List.cons_append]
  | case4 symbol body other ih =>
      obtain ⟨read, left, right, rest, apart, first, second⟩ := ih
      refine ⟨symbol :: read, left, right, rest, apart, ?_, ?_⟩
      · rw [List.cons_append, code.scan_plain other, first, List.cons_append]
      · rw [List.cons_append, code.scan_plain other, second, List.cons_append]

/-- The places of the complete escape pairs of a body, counted in read symbols
from `start`. -/
def pairs (start : Nat) : List α → List Nat
  | [] => []
  | symbol :: body =>
      if symbol = code.esc then
        match body with
        | [] => []
        | _ :: body => start :: pairs (start + 1) body
      else pairs (start + 1) body

@[simp] theorem pairs_nil (start : Nat) : code.pairs start [] = [] := rfl

@[simp] theorem pairs_esc (start : Nat) : code.pairs start [code.esc] = [] := by
  simp only [pairs, ↓reduceIte]

@[simp] theorem pairs_pair (start : Nat) (symbol : α) (body : List α) :
    code.pairs start (code.esc :: symbol :: body) = start :: code.pairs (start + 1) body := by
  simp only [pairs, ↓reduceIte]

theorem pairs_plain (start : Nat) {symbol : α} (other : symbol ≠ code.esc) (body : List α) :
    code.pairs start (symbol :: body) = code.pairs (start + 1) body := by
  cases body <;> simp only [pairs, other, ↓reduceIte]

theorem le_of_mem_pairs {start place : Nat} {body : List α}
    (member : place ∈ code.pairs start body) : start ≤ place := by
  induction start, body using pairs.induct code with
  | case1 start => exact absurd member List.not_mem_nil
  | case2 start =>
      rw [pairs_esc] at member
      exact absurd member List.not_mem_nil
  | case3 start second body ih =>
      rw [pairs_pair, List.mem_cons] at member
      rcases member with rfl | later
      · exact Nat.le_refl _
      · exact Nat.le_of_succ_le (ih later)
  | case4 start symbol body other ih =>
      rw [pairs_plain code start other] at member
      exact Nat.le_of_succ_le (ih member)

theorem pairs_append {body message : List α} (reads : code.unstuff body = some message)
    (start : Nat) (tail : List α) :
    code.pairs start (body ++ tail) =
      code.pairs start body ++ code.pairs (start + message.length) tail := by
  revert start
  refine code.unit_induction ?nil ?pair ?plain reads
  case nil => exact fun start => rfl
  case pair =>
    intro symbol body message ih start
    rw [List.cons_append, List.cons_append, pairs_pair, pairs_pair, ih, List.length_cons,
      Nat.add_assoc, Nat.add_comm 1, List.cons_append]
  case plain =>
    intro symbol body message other ih start
    rw [List.cons_append, pairs_plain code start other, pairs_plain code start other, ih,
      List.length_cons, Nat.add_assoc, Nat.add_comm 1]

/-- A body of whole units is undone in front of another body. -/
theorem unstuff_append {body message : List α} (reads : code.unstuff body = some message)
    (tail : List α) : code.unstuff (body ++ tail) = (code.unstuff tail).map (message ++ ·) := by
  refine code.unit_induction ?nil ?pair ?plain reads
  case nil => exact Option.map_id'.symm
  case pair =>
    intro symbol body message ih
    rw [List.cons_append, List.cons_append, unstuff_pair, ih, Option.map_map]
    rfl
  case plain =>
    intro symbol body message other ih
    rw [List.cons_append, unstuff_plain code other, ih, Option.map_map]
    rfl

theorem unstuff_of_not_mem {body : List α} (free : code.esc ∉ body) :
    code.unstuff body = some body := by
  induction body with
  | nil => rfl
  | cons symbol body ih =>
      have other : symbol ≠ code.esc := fun same => free (same ▸ List.mem_cons_self)
      rw [unstuff_plain code other, ih fun member => free (List.mem_cons_of_mem _ member),
        Option.map_some]

theorem pairs_of_not_mem {body : List α} (free : code.esc ∉ body) (start : Nat) :
    code.pairs start body = [] := by
  induction body generalizing start with
  | nil => rfl
  | cons symbol body ih =>
      have other : symbol ≠ code.esc := fun same => free (same ▸ List.mem_cons_self)
      rw [pairs_plain code start other, ih fun member => free (List.mem_cons_of_mem _ member)]

/-- The first escape pair of a body, with what stands before and behind it. -/
theorem split_of_head?_pairs {body : List α} {start place : Nat}
    (first : (code.pairs start body).head? = some place) :
    ∃ plain second rest, body = plain ++ code.esc :: second :: rest ∧ code.esc ∉ plain ∧
      place = start + plain.length := by
  induction start, body using pairs.induct code with
  | case1 start => cases first
  | case2 start =>
      rw [pairs_esc] at first
      cases first
  | case3 start second body ih =>
      rw [pairs_pair, List.head?_cons] at first
      exact ⟨[], second, body, rfl, List.not_mem_nil, (Option.some.inj first).symm⟩
  | case4 start symbol body other ih =>
      rw [pairs_plain code start other] at first
      obtain ⟨plain, second, rest, rfl, free, rfl⟩ := ih first
      refine ⟨symbol :: plain, second, rest, rfl, ?_, ?_⟩
      · intro member
        rcases List.mem_cons.mp member with same | later
        · exact other same.symm
        · exact free later
      · rw [List.length_cons]
        omega

/-- **Readings out of step.** A body read from behind the escape symbol of its
first pair never agrees with the reading from that symbol on. -/
theorem scan_ne_unstuff_esc (moved : ∀ symbol, code.flip symbol ≠ symbol) {body message : List α}
    (reads : code.unstuff (code.esc :: body) = some message) (left right : List α) :
    code.scan body ++ left ≠ message ++ right := by
  induction body using unstuff.induct code generalizing message with
  | case1 =>
      rw [unstuff_esc] at reads
      cases reads
  | case2 =>
      rw [unstuff_pair, unstuff_nil, Option.map_some] at reads
      rw [scan_esc, ← Option.some.inj reads]
      intro same
      exact moved code.esc (List.cons.inj same).1.symm
  | case3 second body ih =>
      rw [unstuff_pair, Option.map_eq_some_iff] at reads
      obtain ⟨rest, inner, rfl⟩ := reads
      rw [scan_pair]
      intro same
      obtain ⟨head, tail⟩ := List.cons.inj same
      have escape : second = code.esc := by rw [← code.flip_flip second, head, code.flip_flip]
      rw [escape] at inner
      exact ih inner tail
  | case4 symbol body other ih =>
      rw [unstuff_pair, Option.map_eq_some_iff] at reads
      obtain ⟨rest, inner, rfl⟩ := reads
      rw [scan_plain code other]
      intro same
      exact moved symbol (List.cons.inj same).1.symm

/-- The first escape pair of a stuffed message stands at its first reserved
symbol. -/
theorem head?_pairs_stuff (start : Nat) (message : List α) :
    (code.pairs start (code.stuff message)).head? =
      (message.findIdx? code.reserved).map (start + ·) := by
  induction message generalizing start with
  | nil => rfl
  | cons symbol message ih =>
      rw [stuff_cons, List.findIdx?_cons]
      unfold stuffSymbol
      by_cases reserved : code.reserved symbol = true
      · simp only [reserved, ↓reduceIte, List.cons_append, List.nil_append, pairs_pair,
          List.head?_cons, Option.map_some, Nat.add_zero]
      · have other := code.esc_ne_of_plain (Bool.eq_false_iff.mpr reserved)
        simp only [reserved, Bool.false_eq_true, ↓reduceIte, List.cons_append, List.nil_append,
          pairs_plain code start other, ih, Option.map_map]
        congr 1
        funext place
        simp only [Function.comp_apply]
        omega

/-- A stuffed message has as many pairs as escape symbols. -/
theorem length_pairs_stuff (start : Nat) (message : List α) :
    (code.pairs start (code.stuff message)).length = (code.stuff message).count code.esc := by
  induction message generalizing start with
  | nil => rfl
  | cons symbol message ih =>
      rw [stuff_cons]
      unfold stuffSymbol
      by_cases reserved : code.reserved symbol = true
      · have other := code.esc_ne_of_plain (code.plain_flip symbol reserved)
        rw [if_pos reserved, List.cons_append, List.cons_append, List.nil_append, pairs_pair,
          List.length_cons, ih, List.count_cons_self, List.count_cons_of_ne other]
      · have other := code.esc_ne_of_plain (Bool.eq_false_iff.mpr reserved)
        rw [if_neg reserved, List.cons_append, List.nil_append, code.pairs_plain start other, ih,
          List.count_cons_of_ne other]

/-- Different messages are stuffed differently. -/
theorem stuff_injective : Function.Injective code.stuff := by
  intro first second same
  have reads := code.unstuff_stuff first
  rw [same, code.unstuff_stuff] at reads
  exact (Option.some.inj reads).symm

end Stuffing

/-- A list shifted by one symbol differs from itself, whatever copies of another
symbol follow the two. -/
theorem cons_append_replicate_ne {α : Type*} {symbol filler : α} (other : symbol ≠ filler)
    (message : List α) (left right : Nat) :
    symbol :: (message ++ List.replicate left filler) ≠
      message ++ List.replicate right filler := by
  induction message generalizing symbol with
  | nil =>
      intro same
      have member : symbol ∈ List.replicate right filler := by
        rw [← List.nil_append (List.replicate right filler), ← same]
        exact List.mem_cons_self
      exact other (List.eq_of_mem_replicate member)
  | cons first message ih =>
      intro same
      obtain ⟨rfl, rest⟩ := List.cons.inj same
      exact ih other rest

/-- The check symbol that completes a message to `total`, subtracted symbol by
symbol. -/
def complement {α : Type*} [Sub α] (total : α) (message : List α) : α :=
  message.foldl (· - ·) total

theorem complement_eq_sub_sum {α : Type*} [AddCommGroup α] (total : α) (message : List α) :
    complement total message = total - message.sum := by
  induction message generalizing total with
  | nil => exact (sub_zero total).symm
  | cons symbol message ih =>
      rw [List.sum_cons, ← sub_sub]
      exact ih (total - symbol)

/-- A check symbol is right exactly when message and check sum to the total. -/
theorem complement_eq_iff {α : Type*} [AddCommGroup α] (total : α) (message : List α)
    (check : α) : complement total message = check ↔ (message ++ [check]).sum = total := by
  rw [complement_eq_sub_sum, sub_eq_iff_eq_add, List.sum_append, List.sum_singleton, add_comm,
    eq_comm]

import TsBat3.Foundation.Framing
import TsBat3.Foundation.Machine

/-! # Taking frames apart

A reader looks for the symbol that begins a frame, undoes the stuffing symbol by symbol and delivers
what it has at the symbol that ends the frame. It has room for a number of symbols and starts over
when that is used up. What it delivers is what stands in a frame of the stream, less what it has had
no room for (`Delimited.delivers_frame`).
-/

/-- A stuffing code with the symbols that begin and end a frame. -/
structure Delimited (α : Type*) extends Stuffing α where
  start : α
  stop : α
  reserved_start : reserved start = true
  reserved_stop : reserved stop = true
  start_ne_esc : start ≠ esc
  stop_ne_esc : stop ≠ esc
  stop_ne_start : stop ≠ start

/-- Where a reader is: between frames, or in one, with the symbols that it holds and whether the
last one it took was an escape symbol. -/
inductive Phase (α : Type*)
  | outside
  | inside (cells : List α) (escaped : Bool)

/-- What is held of a message when there is room for less. -/
def held {α : Type*} (room : Nat) (message : List α) : List α :=
  message.drop (room * (message.length / room))

/-- Another symbol is held. -/
def hold {α : Type*} (room : Nat) (cells : List α) (symbol : α) : List α :=
  if cells.length + 1 = room then [] else cells ++ [symbol]

section Held

variable {α : Type*} {room : Nat}

@[simp] theorem held_nil : held room ([] : List α) = [] := List.drop_nil

theorem length_held (message : List α) : (held room message).length = message.length % room := by
  have parts := Nat.div_add_mod message.length room
  rw [held, List.length_drop]
  omega

theorem hold_held (some : 0 < room) (message : List α) (symbol : α) :
    hold room (held room message) symbol = held room (message ++ [symbol]) := by
  have parts := Nat.div_add_mod message.length room
  have small := Nat.mod_lt message.length some
  unfold hold
  rw [length_held]
  by_cases full : message.length % room + 1 = room
  · have whole : message.length + 1 = room * (message.length / room + 1) := by
      rw [Nat.mul_add]
      omega
    rw [if_pos full, held, List.length_append, List.length_singleton, whole,
      Nat.mul_div_cancel_left _ some, ← whole]
    have all : (message ++ [symbol]).length ≤ message.length + 1 := Nat.le_of_eq List.length_append
    exact (List.drop_eq_nil_of_le all).symm
  · have same : (message.length + 1) / room = message.length / room :=
      Nat.div_eq_of_lt_le (by rw [Nat.mul_comm]; omega) (by rw [Nat.mul_comm, Nat.mul_add]; omega)
    rw [if_neg full, held, held, List.length_append, List.length_singleton, same,
      List.drop_append_of_le_length (by omega)]

end Held

namespace Delimited

variable {α : Type*} [DecidableEq α] (code : Delimited α)

/-- What stands between the delimiters of a frame: plain symbols, and escape pairs whatever their
second half is. -/
inductive Reads : List α → List α → Prop
  | nil : Reads [] []
  | plain {body message : List α} {symbol : α} : Reads body message → symbol ≠ code.esc →
      symbol ≠ code.start → symbol ≠ code.stop → Reads (body ++ [symbol]) (message ++ [symbol])
  | pair {body message : List α} (symbol : α) : Reads body message →
      Reads (body ++ [code.esc, symbol]) (message ++ [code.flip symbol])

/-- The reader that has room for a number of symbols. -/
def reader (room : Nat) : Machine (Phase α) α (Option (List α)) where
  step
    | .outside, symbol => (if symbol = code.start then .inside [] false else .outside, none)
    | .inside cells true, symbol => (.inside (hold room cells (code.flip symbol)) false, none)
    | .inside cells false, symbol =>
        if symbol = code.esc then (.inside cells true, none)
        else if symbol = code.start then
          (if cells = [] then .inside [] false else .outside, none)
        else if symbol = code.stop then (.outside, if cells = [] then none else some cells)
        else (.inside (hold room cells symbol) false, none)

/-- What a reader does with a symbol, and what it delivers. -/
inductive Takes (room : Nat) : Phase α → α → Phase α → Option (List α) → Prop
  | skips {symbol : α} : symbol ≠ code.start → Takes room .outside symbol .outside none
  | opens : Takes room .outside code.start (.inside [] false) none
  | escapes (cells : List α) : Takes room (.inside cells false) code.esc (.inside cells true) none
  | flips (cells : List α) (symbol : α) : Takes room (.inside cells true) symbol
      (.inside (hold room cells (code.flip symbol)) false) none
  | reopens : Takes room (.inside [] false) code.start (.inside [] false) none
  | breaks {cells : List α} : cells ≠ [] →
      Takes room (.inside cells false) code.start .outside none
  | closes : Takes room (.inside [] false) code.stop .outside none
  | delivers {cells : List α} : cells ≠ [] →
      Takes room (.inside cells false) code.stop .outside (some cells)
  | holds (cells : List α) {symbol : α} : symbol ≠ code.esc → symbol ≠ code.start →
      symbol ≠ code.stop →
      Takes room (.inside cells false) symbol (.inside (hold room cells symbol) false) none

theorem takes_step (room : Nat) (phase : Phase α) (symbol : α) :
    code.Takes room phase symbol ((code.reader room).step phase symbol).1
      ((code.reader room).step phase symbol).2 := by
  unfold reader
  cases phase with
  | outside =>
      dsimp only
      by_cases begins : symbol = code.start
      · rw [if_pos begins, begins]
        exact .opens
      · rw [if_neg begins]
        exact .skips begins
  | inside cells pending =>
      cases pending with
      | true => exact .flips cells symbol
      | false =>
          dsimp only
          by_cases escape : symbol = code.esc
          · rw [if_pos escape, escape]
            exact .escapes cells
          rw [if_neg escape]
          by_cases begins : symbol = code.start
          · rw [if_pos begins, begins]
            dsimp only
            split
            · rename_i none
              rw [none]
              exact .reopens
            · exact .breaks ‹_›
          rw [if_neg begins]
          by_cases ends : symbol = code.stop
          · rw [if_pos ends, ends]
            dsimp only
            split
            · rename_i none
              rw [none]
              exact .closes
            · exact .delivers ‹_›
          · rw [if_neg ends]
            exact .holds cells escape begins ends

variable {code}

theorem Reads.unstuff {body message : List α} (reads : code.Reads body message) :
    code.unstuff body = some message := by
  induction reads with
  | nil => rfl
  | plain reads other _ _ ih =>
      rw [code.unstuff_append ih, code.unstuff_plain other, Stuffing.unstuff_nil]
      rfl
  | pair symbol reads ih =>
      rw [code.unstuff_append ih, Stuffing.unstuff_pair, Stuffing.unstuff_nil]
      rfl

/-! ### Runs -/

variable {room : Nat}

/-- What a reader that is in a frame has taken of it. -/
structure Begun (code : Delimited α) (room : Nat) (past cells : List α) (escaped : Bool) :
    Prop where
  frame : ∃ noise body message, code.Reads body message ∧ cells = held room message ∧
    past = noise ++ code.start :: (body ++ if escaped then [code.esc] else [])

/-- A reader is in the frame whose start it has found. -/
theorem begun_run (some : 0 < room) (past : List α) {cells : List α} {escaped : Bool}
    (reached : (code.reader room).run .outside past = .inside cells escaped) :
    code.Begun room past cells escaped := by
  induction past using List.reverseRecOn generalizing cells escaped with
  | nil => nomatch reached
  | append_singleton past symbol ih =>
      have taken := code.takes_step room ((code.reader room).run .outside past) symbol
      rw [Machine.run_append, Machine.run_cons, Machine.run_nil] at reached
      rw [reached] at taken
      generalize before : (code.reader room).run .outside past = phase at taken
      generalize ((code.reader room).step phase symbol).2 = output at taken
      cases taken with
      | opens => exact ⟨past, [], [], .nil, held_nil.symm, rfl⟩
      | reopens => exact ⟨past, [], [], .nil, held_nil.symm, rfl⟩
      | escapes =>
          obtain ⟨noise, body, message, reads, same, rfl⟩ := ih before
          refine ⟨noise, body, message, reads, same, ?_⟩
          simp only [↓reduceIte, Bool.false_eq_true, List.append_assoc, List.cons_append,
            List.append_nil]
      | flips cells symbol =>
          obtain ⟨noise, body, message, reads, rfl, rfl⟩ := ih before
          refine ⟨noise, _, _, .pair symbol reads, hold_held some _ _, ?_⟩
          simp only [↓reduceIte, Bool.false_eq_true, List.append_assoc, List.cons_append,
            List.nil_append, List.append_nil]
      | holds cells escape begins ends =>
          obtain ⟨noise, body, message, reads, rfl, rfl⟩ := ih before
          refine ⟨noise, _, _, .plain reads escape begins ends, hold_held some _ _, ?_⟩
          simp only [↓reduceIte, Bool.false_eq_true, List.append_assoc, List.cons_append,
            List.append_nil]

/-- A delivery is what is held at the end of a frame. -/
theorem delivers_held {phase : Phase α} {symbol : α} {cells : List α}
    (delivered : ((code.reader room).step phase symbol).2 = some cells) :
    phase = .inside cells false ∧ symbol = code.stop ∧ cells ≠ [] := by
  have taken := code.takes_step room phase symbol
  rw [delivered] at taken
  generalize ((code.reader room).step phase symbol).1 = next at taken
  cases taken with
  | delivers filled => exact ⟨rfl, rfl, filled⟩

/-- **What is delivered stands in a frame of the stream.** -/
theorem delivers_frame (some : 0 < room) {past cells : List α} {symbol : α}
    (delivered : ((code.reader room).step ((code.reader room).run .outside past) symbol).2 =
      Option.some cells) :
    ∃ noise body message, code.Reads body message ∧ cells = held room message ∧ cells ≠ [] ∧
      past ++ [symbol] = noise ++ code.start :: (body ++ [code.stop]) := by
  obtain ⟨reached, rfl, filled⟩ := delivers_held delivered
  obtain ⟨noise, body, message, reads, same, rfl⟩ := begun_run some past reached
  refine ⟨noise, body, message, reads, same, filled, ?_⟩
  simp only [↓reduceIte, Bool.false_eq_true, List.append_assoc, List.cons_append, List.append_nil]

end Delimited
